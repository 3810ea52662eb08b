import Denn.Store.Writes

/-!
# Reconstructed payloads

What `from_local` makes of the persisted rows: the text fields, the streaming platforms of some
country and the status of the completion times of a game.
-/

namespace Denn

open Core

/-! ### Completion times of games -/

structure DurationValues where
  hastilySeconds : Option ℕ
  normallySeconds : Option ℕ
  completelySeconds : Option ℕ
  deriving DecidableEq

def DurationValues.values (duration : DurationValues) : List (Option ℕ) :=
  [duration.hastilySeconds, duration.normallySeconds, duration.completelySeconds]

def maxGameDurationSeconds : ℕ := 3000 * 60 * 60

/-- `normalize_game_duration_values`: impossible values are dropped, and of values that contradict
    each other only the normal one is kept. -/
def normalizeGameDurationValues (duration : DurationValues) : DurationValues :=
  let clean (value : Option ℕ) : Option ℕ :=
    value.filter fun value => 0 < value && value ≤ maxGameDurationSeconds
  let normalized : DurationValues :=
    ⟨clean duration.hastilySeconds, clean duration.normallySeconds,
      clean duration.completelySeconds⟩
  if (normalized.values.reduceOption).Pairwise (· ≤ ·) then normalized
  else ⟨none, normalized.normallySeconds, none⟩

/-- `normalized_game_duration_status`. -/
def normalizedGameDurationStatus (sourceStatus : DurationStatus) (duration : DurationValues) :
    DurationStatus :=
  if sourceStatus = .error then .error
  else if duration.values.any (·.isSome) then
    if sourceStatus ∈ [.matched, .stale] then sourceStatus else .matched
  else .noData

def GameDurationEstimateRow.values (estimate : GameDurationEstimateRow) : DurationValues :=
  ⟨estimate.hastilySeconds, estimate.normallySeconds, estimate.completelySeconds⟩

/-- The `status` of the `duration` of a payload, if it has one. -/
def durationStatus (row : DetailRow) (children : ChildRows) : Option DurationStatus :=
  match row with
  | .game _ => children.gameDurationEstimates.head?.map fun estimate =>
      normalizedGameDurationStatus estimate.status (normalizeGameDurationValues estimate.values)
  | _ => none

/-! ### Streaming platforms -/

/-- A row of the platform table: its key and the URL of its image. -/
abbrev PlatformRow := PlatformKey × String

/-- The content types with streaming platforms. -/
def ContentType.hasPlatforms : ContentType → Bool
  | .movie | .tvShow | .season => true
  | _ => false

/-- The rows that `serialize_streaming_platforms` includes: those of the country, or of every country
    if there is none. -/
def includedRows (rows : List PlatformRow) (requestCountry : Option String) : List PlatformRow :=
  rows.filter fun row => requestCountry.all fun country =>
    country = "" || row.1.countryCode = "" || row.1.countryCode = country

/-- The rows grouped by kind. -/
def groupRows (rows : List PlatformRow) : PlatformMap :=
  let entries (kind : StreamingKind) : List PlatformPayload :=
    (rows.filter (·.1.kind = kind)).map fun row =>
      { name := some row.1.name, imageUrl := some row.2 |>.filter (· ≠ "") }
  ⟨entries .stream, entries .rent, entries .buy⟩

/-! ### Payloads -/

/-- A reconstructed payload, with the rows that it is made of. -/
structure LocalPayload where
  detail : StoredDetail
  tvShowTitle : Option String
  platformRows : List PlatformRow
  duration : Option DurationStatus
  isStale : Bool := false

/-- The text fields of the payload. -/
def LocalPayload.fields (payload : LocalPayload) : Json :=
  fromLocal payload.detail.row payload.tvShowTitle payload.detail.children

def LocalPayload.platforms (payload : LocalPayload) : PlatformMap := groupRows payload.platformRows

/-- `_mark_stale`. -/
def LocalPayload.markStale (payload : LocalPayload) : LocalPayload :=
  { payload with
    isStale := true
    duration := payload.duration.map fun status =>
      if status = .matched then .stale else status }

namespace LocalStore

variable (s : LocalStore)

def streamingPlatforms (item : ItemId) : List PlatformRow :=
  s.platforms.rows.filter fun row => row.1.item = item

/-- The `from_local` of the item's content type. -/
def fromLocalIn (requestCountry : Option String) (item : ItemId) : Option LocalPayload :=
  (s.details.get? item).map fun detail =>
    { detail := detail
      tvShowTitle := detail.row.tvShow?.bind s.showTitle
      platformRows :=
        if detail.row.contentType.hasPlatforms then
          includedRows (s.streamingPlatforms item) requestCountry
        else []
      duration := durationStatus detail.row detail.children }

/-- The dispatch `from_local`, which passes no country on. -/
def fromLocal (item : ItemId) : Option LocalPayload := s.fromLocalIn none item

variable {s}

lemma fromLocal_eq_some {item : ItemId} {payload : LocalPayload}
    (h : s.fromLocal item = some payload) :
    s.details.get? item = some payload.detail ∧ payload.isStale = false ∧
      (payload.detail.row.contentType.hasPlatforms = true →
        payload.platformRows = s.streamingPlatforms item) := by
  obtain ⟨detail, hdetail, rfl⟩ := Option.map_eq_some_iff.mp h
  refine ⟨hdetail, rfl, fun hplatforms => ?_⟩
  rw [if_pos hplatforms]
  exact List.filter_eq_self.mpr fun _ _ => rfl

lemma isSome_fromLocal {item : ItemId} :
    (s.fromLocal item).isSome = (s.details.get? item).isSome := by
  rw [fromLocal, fromLocalIn, Option.isSome_map]

end LocalStore

@[simp] lemma LocalPayload.markStale_detail (payload : LocalPayload) :
    payload.markStale.detail = payload.detail := rfl

@[simp] lemma LocalPayload.markStale_platformRows (payload : LocalPayload) :
    payload.markStale.platformRows = payload.platformRows := rfl

@[simp] lemma LocalPayload.markStale_isStale (payload : LocalPayload) :
    payload.markStale.isStale = true := rfl

end Denn
