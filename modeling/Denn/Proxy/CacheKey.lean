import Denn.Core.Decimal
import Denn.Core.Md5
import Denn.Core.Substitution

/-!
# Cache keys of the provider clients

The methods of the TMDB, Spotify and IGDB clients, each as the upstream request it issues and the
cache type and arguments it names its cache entry by, and the key that `generateCacheKey` builds
from these. A map of arguments is a list in the order in which it happens to be iterated.
-/

namespace Denn.CacheKey

open Denn.Core

/-! ### The cached client -/

structure CacheConfig where
  keyTemplates : List (String × String)

structure CachedClient where
  apiName : String
  config : CacheConfig

/-- What goes to the provider. -/
structure Upstream where
  method : String
  endpoint : String
  params : List (String × String)
  body : Option String
  deriving DecidableEq

/-- The arguments of `CachedRequest`. -/
structure CachedRequest extends Upstream where
  cacheType : String
  cacheArgs : List (String × String)

def cachedGet (endpoint cacheType : String) (params cacheArgs : List (String × String)) :
    CachedRequest :=
  ⟨⟨"GET", endpoint, params, none⟩, cacheType, cacheArgs⟩

def cachedPost (endpoint cacheType body : String) (params cacheArgs : List (String × String)) :
    CachedRequest :=
  ⟨⟨"POST", endpoint, params, some body⟩, cacheType, cacheArgs⟩

def md5Hex (text : String) : String := String.ofList (Md5.hexdigest text.toList)

/-- `strings.ReplaceAll(key, "{"+k+"}", v)`. -/
def substitute (key : String) (arg : String × String) : String :=
  String.ofList (replaceAll (placeholder arg.1.toList) arg.2.toList key.toList)

def generateCacheKey (client : CachedClient) (cacheType : String) (args : List (String × String)) :
    String :=
  match client.config.keyTemplates.lookup cacheType with
  | some tmpl => "api:" ++ args.foldl substitute tmpl
  | none =>
    let sortedKeys := (args.map Prod.fst).mergeSort
    let pairs := sortedKeys.map fun k => k ++ ":" ++ (args.lookup k).getD ""
    let raw := client.apiName ++ ":" ++ cacheType ++ ":" ++ ",".intercalate pairs
    "api:" ++ md5Hex raw

/-! ### Search text -/

/-- `unicode.IsSpace`. -/
def isSpace (c : Char) : Bool :=
  let n := c.toNat
  (0x09 ≤ n && n ≤ 0x0D) || n == 0x20 || n == 0x85 || n == 0xA0 || n == 0x1680
    || (0x2000 ≤ n && n ≤ 0x200A) || n == 0x2028 || n == 0x2029 || n == 0x202F || n == 0x205F
    || n == 0x3000

def trimSpace (s : String) : String :=
  String.ofList ((s.toList.dropWhile isSpace).reverse.dropWhile isSpace).reverse

-- `unicode.ToLower`, which maps one character by the tables of its library.
variable (toLower : Char → Char)

def normalizeSearchCacheKey (query : String) : String :=
  String.ofList ((trimSpace query).toList.map toLower)

/-! ### TMDB -/

namespace Tmdb

def cacheConfig : CacheConfig where
  keyTemplates := [
    ("search_movies", "tmdb:search:movies:{query}:{page}:{adult}"),
    ("search_tv", "tmdb:search:tv:{query}:{page}:{adult}"),
    ("details", "tmdb:details:{id}:{append}"),
    ("images_season", "tmdb:img:season:{id}:{season}"),
    ("watch_providers_season", "tmdb:wp:season:{id}:{season}"),
    ("popular_movies", "tmdb:popular:movies:{page}"),
    ("popular_tv", "tmdb:popular:tv:{page}"),
    ("recent_movies", "tmdb:recent:movies:{page}:{until}"),
    ("recent_tv", "tmdb:recent:tv:{page}:{until}")]

def client : CachedClient := ⟨"tmdb", cacheConfig⟩

def adultPolicy (allowAdult : Bool) : String := if allowAdult then "include" else "exclude"

/-- The body that the two searches share. -/
def search (endpoint cacheType query : String) (page : ℤ) (allowAdult : Bool) : CachedRequest :=
  cachedGet endpoint cacheType
    [("query", query), ("page", itoa page), ("include_adult", toString allowAdult)]
    [("query", normalizeSearchCacheKey toLower query), ("page", itoa page),
      ("adult", adultPolicy allowAdult)]

def searchMoviesWithAdult (query : String) (page : ℤ) (allowAdult : Bool) : CachedRequest :=
  search toLower "search/movie" "search_movies" query page allowAdult

def searchMovies (query : String) (page : ℤ) : CachedRequest :=
  searchMoviesWithAdult toLower query page false

def searchTVShowsWithAdult (query : String) (page : ℤ) (allowAdult : Bool) : CachedRequest :=
  search toLower "search/tv" "search_tv" query page allowAdult

def searchTVShows (query : String) (page : ℤ) : CachedRequest :=
  searchTVShowsWithAdult toLower query page false

def appendParams (appendToResponse : String) : List (String × String) :=
  if appendToResponse = "" then [] else [("append_to_response", appendToResponse)]

def getMovieDetails (movieID : ℤ) (appendToResponse : String) : CachedRequest :=
  cachedGet ("movie/" ++ itoa movieID) "details" (appendParams appendToResponse)
    [("id", itoa movieID), ("append", appendToResponse)]

def getTVDetails (tvID : ℤ) (appendToResponse : String) : CachedRequest :=
  cachedGet ("tv/" ++ itoa tvID) "details" (appendParams appendToResponse)
    [("id", itoa tvID), ("append", appendToResponse)]

def getSeasonDetails (tvID seasonNumber : ℤ) : CachedRequest :=
  cachedGet ("tv/" ++ itoa tvID ++ "/season/" ++ itoa seasonNumber) "details" []
    [("id", itoa tvID ++ "_s" ++ itoa seasonNumber), ("append", "")]

def getSeasonWatchProviders (tvID seasonNumber : ℤ) : CachedRequest :=
  cachedGet ("tv/" ++ itoa tvID ++ "/season/" ++ itoa seasonNumber ++ "/watch/providers")
    "watch_providers_season" [] [("id", itoa tvID), ("season", itoa seasonNumber)]

def getSeasonImages (tvID seasonNumber : ℤ) : CachedRequest :=
  cachedGet ("tv/" ++ itoa tvID ++ "/season/" ++ itoa seasonNumber ++ "/images") "images_season" []
    [("id", itoa tvID), ("season", itoa seasonNumber)]

def getPopularMovies (page : ℤ) : CachedRequest :=
  cachedGet "movie/popular" "popular_movies" [("page", itoa page)] [("page", itoa page)]

def getPopularTVShows (page : ℤ) : CachedRequest :=
  cachedGet "tv/popular" "popular_tv" [("page", itoa page)] [("page", itoa page)]

def getRecentMovies (page : ℤ) (until_ : String) : CachedRequest :=
  cachedGet "discover/movie" "recent_movies"
    [("page", itoa page), ("sort_by", "primary_release_date.desc"),
      ("primary_release_date.lte", until_), ("include_adult", "false"), ("include_video", "false")]
    [("page", itoa page), ("until", until_)]

def getRecentTVShows (page : ℤ) (until_ : String) : CachedRequest :=
  cachedGet "discover/tv" "recent_tv"
    [("page", itoa page), ("sort_by", "first_air_date.desc"), ("first_air_date.lte", until_),
      ("include_adult", "false")]
    [("page", itoa page), ("until", until_)]

end Tmdb

/-! ### Spotify -/

namespace Spotify

def cacheConfig : CacheConfig where
  keyTemplates := [
    ("spotify_search", "spotify:search:{query}:{limit}:{offset}"),
    ("spotify_details", "spotify:details:{album_id}")]

def client : CachedClient := ⟨"spotify", cacheConfig⟩

def searchAlbums (query : String) (limit offset : ℤ) : CachedRequest :=
  cachedGet "search" "spotify_search"
    [("q", query), ("type", "album"), ("limit", itoa limit), ("offset", itoa offset)]
    [("query", normalizeSearchCacheKey toLower query), ("limit", itoa limit),
      ("offset", itoa offset)]

def getAlbum (albumID : String) : CachedRequest :=
  cachedGet ("albums/" ++ albumID) "spotify_details" [] [("album_id", albumID)]

end Spotify

/-! ### IGDB -/

namespace Igdb

def cacheConfig : CacheConfig where
  keyTemplates := [
    ("api_igdb_search", "igdb:search:{query}:{limit}:{offset}:{body_hash}"),
    ("api_igdb_details", "igdb:details:{game_id}:{body_hash}"),
    ("api_igdb_bulk", "igdb:bulk:{ids_hash}:{body_hash}"),
    ("api_igdb_game_time_to_beats", "igdb:game-time-to-beats:{ids_hash}:{body_hash}"),
    ("api_igdb_popular", "igdb:popular:{limit}:{offset}:{body_hash}"),
    ("api_igdb_recent", "igdb:recent:{limit}:{offset}:{until}:{body_hash}"),
    ("api_igdb_popularity", "igdb:popularity:{popularity_type}:{limit}:{body_hash}")]

def client : CachedClient := ⟨"igdb", cacheConfig⟩

def defaultFields : String :=
  "id,name,summary,storyline,cover.url,cover.image_id,screenshots.url,screenshots.image_id,"
    ++ "artworks.url,artworks.image_id,first_release_date,platforms.name,"
    ++ "platforms.platform_logo.image_id,game_type,involved_companies.company.name,"
    ++ "involved_companies.developer,genres.name,themes.name,game_modes.name,collections.name,"
    ++ "franchises.name"

def safetyFields : String :=
  "keywords.name,age_ratings.organization.name,age_ratings.rating_category.rating,"
    ++ "age_ratings.rating_content_descriptions.description"

def detailFields : String := defaultFields ++ "," ++ safetyFields

def timeToBeatFields : String := "game_id,hastily,normally,completely,count"

/-- Main game, expansion, remake, remaster. -/
def includedGameTypes : String := "0,4,8,9"

def hashBody (body : String) : String := md5Hex body

def searchGames (query : String) (limit offset : ℤ) : CachedRequest :=
  let body := "search \"" ++ query ++ "\"; fields " ++ defaultFields ++ "; where game_type = ("
    ++ includedGameTypes ++ "); limit " ++ itoa limit ++ "; offset " ++ itoa offset ++ ";"
  cachedPost "games" "api_igdb_search" body []
    [("query", normalizeSearchCacheKey toLower query), ("limit", itoa limit),
      ("offset", itoa offset), ("body_hash", hashBody body)]

def getGame (id : ℤ) : CachedRequest :=
  let body := "fields " ++ detailFields ++ "; where id = " ++ itoa id ++ ";"
  cachedPost "games" "api_igdb_details" body [] [("game_id", itoa id), ("body_hash", hashBody body)]

/-- What is asked about the games with some ids. -/
def bulkBody (fields : String) (ids : List ℤ) : String :=
  "fields " ++ fields ++ "; where id = (" ++ joinInts ids ++ "); limit " ++ itoa ids.length ++ ";"

/-- Without ids there is nothing to ask. -/
def bulkGames (ids : List ℤ) (fields : String) : Option CachedRequest :=
  if ids.isEmpty then none
  else
    let body := bulkBody fields ids
    some (cachedPost "games" "api_igdb_bulk" body []
      [("ids_hash", joinInts ids), ("body_hash", hashBody body)])

def getBulkGames (ids : List ℤ) : Option CachedRequest := bulkGames ids detailFields

def getBulkGamePreviews (ids : List ℤ) : Option CachedRequest := bulkGames ids defaultFields

def getGameTimeToBeats (ids : List ℤ) : Option CachedRequest :=
  if ids.isEmpty then none
  else
    let body := "fields " ++ timeToBeatFields ++ "; where game_id = (" ++ joinInts ids ++ "); limit "
      ++ itoa ids.length ++ ";"
    some (cachedPost "game_time_to_beats" "api_igdb_game_time_to_beats" body []
      [("ids_hash", joinInts ids), ("body_hash", hashBody body)])

def getPopularGames (limit offset : ℤ) : CachedRequest :=
  let body := "fields " ++ defaultFields ++ "; where game_type = (" ++ includedGameTypes
    ++ ") & aggregated_rating != null; sort aggregated_rating desc; limit " ++ itoa limit
    ++ "; offset " ++ itoa offset ++ ";"
  cachedPost "games" "api_igdb_popular" body []
    [("limit", itoa limit), ("offset", itoa offset), ("body_hash", hashBody body)]

/-- The instant is in seconds since the epoch. -/
def getRecentGames (limit offset unix : ℤ) : CachedRequest :=
  let body := "fields " ++ defaultFields ++ "; where game_type = (" ++ includedGameTypes
    ++ ") & first_release_date != null & first_release_date <= " ++ itoa unix
    ++ "; sort first_release_date desc; limit " ++ itoa limit ++ "; offset " ++ itoa offset ++ ";"
  cachedPost "games" "api_igdb_recent" body []
    [("limit", itoa limit), ("offset", itoa offset), ("until", itoa unix),
      ("body_hash", hashBody body)]

def getPopularityPrimitives (popularityType limit : ℤ) : CachedRequest :=
  let body := "fields game_id,value,popularity_type; sort value desc; limit " ++ itoa limit
    ++ "; where popularity_type = " ++ itoa popularityType ++ ";"
  cachedPost "popularity_primitives" "api_igdb_popularity" body []
    [("popularity_type", itoa popularityType), ("limit", itoa limit),
      ("body_hash", hashBody body)]

end Igdb

/-! ### Calls -/

inductive TmdbCall where
  | searchMoviesWithAdult (query : String) (page : ℤ) (allowAdult : Bool)
  | searchTVShowsWithAdult (query : String) (page : ℤ) (allowAdult : Bool)
  | getMovieDetails (movieID : ℤ) (appendToResponse : String)
  | getTVDetails (tvID : ℤ) (appendToResponse : String)
  | getSeasonDetails (tvID seasonNumber : ℤ)
  | getSeasonWatchProviders (tvID seasonNumber : ℤ)
  | getSeasonImages (tvID seasonNumber : ℤ)
  | getPopularMovies (page : ℤ)
  | getPopularTVShows (page : ℤ)
  | getRecentMovies (page : ℤ) (until_ : String)
  | getRecentTVShows (page : ℤ) (until_ : String)

inductive SpotifyCall where
  | searchAlbums (query : String) (limit offset : ℤ)
  | getAlbum (albumID : String)

inductive IgdbCall where
  | searchGames (query : String) (limit offset : ℤ)
  | getGame (id : ℤ)
  | getBulkGames (ids : List ℤ)
  | getBulkGamePreviews (ids : List ℤ)
  | getGameTimeToBeats (ids : List ℤ)
  | getPopularGames (limit offset : ℤ)
  | getRecentGames (limit offset unix : ℤ)
  | getPopularityPrimitives (popularityType limit : ℤ)

/-- A call of a method of a provider client. -/
inductive Call where
  | tmdb (call : TmdbCall)
  | spotify (call : SpotifyCall)
  | igdb (call : IgdbCall)

def TmdbCall.request : TmdbCall → CachedRequest
  | .searchMoviesWithAdult query page allowAdult =>
    Tmdb.searchMoviesWithAdult toLower query page allowAdult
  | .searchTVShowsWithAdult query page allowAdult =>
    Tmdb.searchTVShowsWithAdult toLower query page allowAdult
  | .getMovieDetails movieID appendToResponse => Tmdb.getMovieDetails movieID appendToResponse
  | .getTVDetails tvID appendToResponse => Tmdb.getTVDetails tvID appendToResponse
  | .getSeasonDetails tvID seasonNumber => Tmdb.getSeasonDetails tvID seasonNumber
  | .getSeasonWatchProviders tvID seasonNumber => Tmdb.getSeasonWatchProviders tvID seasonNumber
  | .getSeasonImages tvID seasonNumber => Tmdb.getSeasonImages tvID seasonNumber
  | .getPopularMovies page => Tmdb.getPopularMovies page
  | .getPopularTVShows page => Tmdb.getPopularTVShows page
  | .getRecentMovies page until_ => Tmdb.getRecentMovies page until_
  | .getRecentTVShows page until_ => Tmdb.getRecentTVShows page until_

def SpotifyCall.request : SpotifyCall → CachedRequest
  | .searchAlbums query limit offset => Spotify.searchAlbums toLower query limit offset
  | .getAlbum albumID => Spotify.getAlbum albumID

/-- The request of a call, if it makes one. -/
def IgdbCall.request : IgdbCall → Option CachedRequest
  | .searchGames query limit offset => some (Igdb.searchGames toLower query limit offset)
  | .getGame id => some (Igdb.getGame id)
  | .getBulkGames ids => Igdb.getBulkGames ids
  | .getBulkGamePreviews ids => Igdb.getBulkGamePreviews ids
  | .getGameTimeToBeats ids => Igdb.getGameTimeToBeats ids
  | .getPopularGames limit offset => some (Igdb.getPopularGames limit offset)
  | .getRecentGames limit offset unix => some (Igdb.getRecentGames limit offset unix)
  | .getPopularityPrimitives popularityType limit =>
    some (Igdb.getPopularityPrimitives popularityType limit)

namespace Call

def client : Call → CachedClient
  | .tmdb _ => Tmdb.client
  | .spotify _ => Spotify.client
  | .igdb _ => Igdb.client

def request : Call → Option CachedRequest
  | .tmdb call => some (call.request toLower)
  | .spotify call => some (call.request toLower)
  | .igdb call => call.request toLower

/-- The call with its search text trimmed and in lower case. -/
def normalize : Call → Call
  | .tmdb (.searchMoviesWithAdult query page allowAdult) =>
    .tmdb (.searchMoviesWithAdult (normalizeSearchCacheKey toLower query) page allowAdult)
  | .tmdb (.searchTVShowsWithAdult query page allowAdult) =>
    .tmdb (.searchTVShowsWithAdult (normalizeSearchCacheKey toLower query) page allowAdult)
  | .spotify (.searchAlbums query limit offset) =>
    .spotify (.searchAlbums (normalizeSearchCacheKey toLower query) limit offset)
  | .igdb (.searchGames query limit offset) =>
    .igdb (.searchGames (normalizeSearchCacheKey toLower query) limit offset)
  | call => call

/-- What the call sends upstream, up to trimming and letter case of its search text. -/
def upstream (call : Call) : Option Upstream :=
  ((call.normalize toLower).request toLower).map (·.toUpstream)

/-- A key that the call can get: its arguments are iterated in some order. -/
def HasKey (call : Call) (key : String) : Prop :=
  ∃ request, call.request toLower = some request ∧
    ∃ order, order.Perm request.cacheArgs ∧
      generateCacheKey call.client request.cacheType order = key

end Call

end Denn.CacheKey
