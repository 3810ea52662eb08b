import Denn.Ingest.Tolerance
import Denn.Proxy.TmdbShow

/-!
# Completeness of an ingested show

The proxy decides by its dates which seasons of a show it sends, while the store takes the number of
seasons that TMDB declares: a show with declared seasons is complete once it has a stored season.
-/

namespace Denn.Ingest

open Denn.Core Denn.Proxy

variable {slugify : String → String}

/-- `season_children` of a show. -/
def Store.seasonChildren (store : Store slugify) (item : ContentItem) : List ContentItem :=
  store.seasons.keysWhere fun _ record => record.detail.tvShow = some item

variable {store : Store slugify} {item : ContentItem} {payload : TvShowPayload} {country : String}

end Denn.Ingest
