import Denn.Core.Table
import Denn.Core.Transition
import Denn.Core.Text
import Denn.Progress.Invariant
import Denn.Progress.Tracking
import Denn.Progress.Effects
import Denn.Rating.Cache
import Denn.Rating.Consistency
import Denn.Moderation.Enqueue
import Denn.Moderation.Service
import Denn.Moderation.Worker
import Denn.Moderation.System
import Denn.Moderation.Changes
import Denn.Moderation.Ambiguity
import Denn.Moderation.Fencing
import Denn.Core.Sha256
import Denn.Core.Join
import Denn.Core.Json
import Denn.Content.State
import Denn.Content.Detail
import Denn.Moderation.Detail
import Denn.Moderation.Judging
import Denn.Moderation.Work
import Denn.Moderation.Summary
import Denn.Moderation.Currency
import Denn.Moderation.Override
import Denn.Store.Mappers
import Denn.Store.System
import Denn.Store.Coherence
import Denn.Store.Writes
import Denn.Store.Renames
import Denn.Store.Freshness
import Denn.Store.Fetch
import Denn.Store.Refresh
import Denn.Store.Availability
import Denn.Store.Country
import Denn.Progress.Collections
import Denn.Progress.Mirror
import Denn.Core.Integer
import Denn.Store.Proxy
import Denn.Store.Isolation
import Denn.Preparation.Job
import Denn.Preparation.System
import Denn.Preparation.Fencing
import Denn.Preparation.Admission
import Denn.Lists.Basic
import Denn.Lists.Policy
import Denn.Lists.Service
import Denn.Lists.System
import Denn.Lists.Writes
import Denn.Lists.Invariant
import Denn.Lists.Membership
import Denn.Lists.Access
import Denn.Core.Rounding
import Denn.Lists.Items
import Denn.Lists.Ratings
import Denn.Lists.Counters
import Denn.Moderation.Attempts
import Denn.Moderation.Completion
import Denn.Store.RefreshQuery
import Denn.Core.Paging
import Denn.Moderation.Backfill
import Denn.Moderation.BackfillRuns
import Denn.Moderation.Recompose
import Denn.Moderation.RecomposeRuns
import Denn.Progress.Backfill
import Denn.Progress.BackfillRuns
import Denn.Core.Expiring
import Denn.Proxy.Homepage
import Denn.Proxy.HomepageRuns
import Denn.Core.Decimal
import Denn.Core.Md5
import Denn.Core.Substitution
import Denn.Proxy.CacheKey
import Denn.Proxy.CacheKeySeparation
import Denn.Proxy.Circuit
import Denn.Proxy.CircuitRuns
import Denn.Proxy.SingleFlight
import Denn.Proxy.FlightRuns
import Denn.Core.Constraint
import Denn.Core.IsoDate
import Denn.Ingest.Catalog
import Denn.Ingest.Payload
import Denn.Ingest.Rows
import Denn.Ingest.Mappers
import Denn.Ingest.Writes
import Denn.Ingest.Tolerance
import Denn.Core.GoInt
import Denn.Proxy.Eligibility
import Denn.Proxy.TmdbShow
import Denn.Ingest.ShowCompleteness
import Denn.Core.Query
import Denn.Ingest.Reconstruct
import Denn.Ingest.Durations
import Denn.Core.Window
import Denn.Proxy.TmdbListing
import Denn.Proxy.Pagination
import Denn.Proxy.GamePages
import Denn.Proxy.ProviderToken
import Denn.Proxy.TokenRuns
import Denn.Proxy.FlightContext
import Denn.Proxy.Disconnects
import Denn.Proxy.AggregateKeys
import Denn.Proxy.AggregateKeySeparation
import Denn.Proxy.RateLimit
import Denn.Proxy.Charts
import Denn.Core.OrderedMap
import Denn.Web.Resolution
import Denn.Web.Discovery
import Denn.Web.Session
import Denn.Web.SessionRuns
import Denn.Ingest.Settled
import Denn.Proxy.Browse
import Denn.Core.Ranking
import Denn.Proxy.Trending
import Denn.Profile.Banner
import Denn.Profile.BannerRuns
import Denn.Profile.OverviewBanner
import Denn.Proxy.GameDuration
import Denn.Core.RowUpdate
import Denn.Core.Ranks
import Denn.Lists.Order
import Denn.Lists.Moves
import Denn.Lists.Renumber
import Denn.Core.OrderBy
import Denn.Lists.Explore
import Denn.Lists.Promotion
import Denn.Lists.Groups
import Denn.Lists.GroupRuns
import Denn.Content.Rearranged
import Denn.Core.Agreement
import Denn.Core.CanonicalText
import Denn.Core.ReadCommitted
import Denn.Core.Requests
import Denn.Core.Serial
import Denn.Lists.Edits
import Denn.Lists.EditRuns
import Denn.Proxy.Scores
import Denn.Core.Apportion
import Denn.Moderation.Sampling
import Denn.Proxy.Retries
import Denn.Proxy.Bulk
import Denn.Core.Statements
import Denn.Proxy.SearchQuery
import Denn.Ingest.EstimateRuns
import Denn.Ingest.AlbumTracks
import Denn.Core.Heap
import Denn.Core.Overlay
import Denn.Content.SourceFields
import Denn.Ingest.Fixpoint
import Denn.Progress.SyncRestore
import Denn.Core.Pattern
import Denn.Moderation.GoldCases
import Denn.Moderation.GoldExport
import Denn.Core.Clusters
import Denn.Web.ContentPlatforms
import Denn.Web.PlatformOrder
import Denn.Web.Text
import Denn.Core.PyDecimal
import Denn.Profile.Filters
import Denn.Web.CodeUnits
import Denn.Web.Numerals
import Denn.Web.ExploreQuery
import Denn.Web.ExploreRequest
import Denn.Web.ExploreRoundtrip
import Denn.Web.PercentEncoding
import Denn.Web.UrlResolution
import Denn.Web.ListReordering
import Denn.Core.WorkPool
import Denn.Store.BackgroundRefresh
import Denn.Core.ReadThrough
import Denn.Proxy.CachedRequests
import Denn.Proxy.MultiSearch
import Denn.Core.Hex
import Denn.Core.Hmac
import Denn.Web.CatalogVisitor
import Denn.Web.ConfinedPaths
import Denn.Core.Chunks
import Denn.Proxy.BulkHandlers
import Denn.Store.BulkRequests
