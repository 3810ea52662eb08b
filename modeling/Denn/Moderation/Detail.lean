import Denn.Content.Detail
import Denn.Moderation.System

/-!
# What moderation reads from persisted detail

The hash, the provider rule and the completeness of the rows of an item. The provider rule reads
columns of the main row that are no part of the hashed text.
-/

namespace Denn

open Core

/-- A loaded main row, with the title of a season's local show. -/
structure LoadedDetail where
  sourceApi : SourceAPI
  row : DetailRow
  tvShowTitle : Option String := none

/-- `_provider_explicit`: the rules read nothing of the child rows. -/
def providerExplicit (main : LoadedDetail) : Bool :=
  payloadIsExplicit main.sourceApi main.row.contentType (fromLocal main.row main.tvShowTitle {})

/-- The state that `build_state_and_hash` makes of loaded rows. -/
def LoadedDetail.state (main : LoadedDetail) (children : ChildRows) :
    Except ModerationStateError TextTree :=
  buildModerationState main.sourceApi main.row.contentType
    (fromLocal main.row main.tvShowTitle children)

def LoadedDetail.sourceHash (main : LoadedDetail) (children : ChildRows) :
    Except StateFailure SourceHash :=
  ((main.state children).map hashModerationState).mapError fun _ => .stateUnavailable

lemma LoadedDetail.sourceHash_ne_empty {main : LoadedDetail} {children : ChildRows}
    {hash : SourceHash} (h : main.sourceHash children = .ok hash) : hash ≠ "" := by
  unfold sourceHash at h
  cases hstate : main.state children with
  | error e =>
    rw [hstate] at h
    cases h
  | ok state =>
    rw [hstate] at h
    cases h
    exact hashModerationState_ne_empty state

def detailSemantics : DetailSemantics LoadedDetail ChildRows where
  sourceHash := LoadedDetail.sourceHash
  providerExplicit := providerExplicit
  detailIsComplete main children := detailIsComplete main.row children
  sourceHash_ne_empty := LoadedDetail.sourceHash_ne_empty

lemma lookup_optionalList_ne {key key' : String} (h : key ≠ key') (values : List Json) :
    (optionalList key' values).lookup key = none := by
  unfold optionalList
  split_ifs
  · rfl
  · have hkey : (key == key') = false := by simpa using h
    rw [List.lookup_cons, hkey]
    rfl

/-- The payload with the child rows leads to the same verdict of the provider rules. -/
theorem payloadIsExplicit_fromLocal (main : LoadedDetail) (children : ChildRows) :
    payloadIsExplicit main.sourceApi main.row.contentType
      (fromLocal main.row main.tvShowTitle children) = providerExplicit main := by
  obtain ⟨sourceApi, row, tvShowTitle⟩ := main
  cases row with
  | movie detail => rfl
  | tvShow detail => rfl
  | game detail =>
    have hget : ∀ children, (fromLocal (.game detail) tvShowTitle children).get "age_ratings"
        = (fromLocal (.game detail) tvShowTitle {}).get "age_ratings" := by
      intro children
      simp only [fromLocal, gamePayload, Json.get, List.lookup_append,
        lookup_optionalList_ne (show "age_ratings" ≠ "genres" by decide),
        lookup_optionalList_ne (show "age_ratings" ≠ "themes" by decide),
        lookup_optionalList_ne (show "age_ratings" ≠ "game_modes" by decide)]
    cases sourceApi with
    | igdb => simp only [providerExplicit, payloadIsExplicit, DetailRow.contentType, hget children]
    | _ => rfl
  | season detail => cases sourceApi <;> rfl
  | album detail => cases sourceApi <;> rfl
  | book detail => cases sourceApi <;> rfl

/-! ### Computed hashes -/

/-- Semantics that look up hashes that have been computed before. -/
def DetailSemantics.memo {μ χ : Type} (semantics : DetailSemantics μ χ)
    (known : μ → χ → Option SourceHash)
    (h : ∀ {main children hash}, known main children = some hash →
      semantics.sourceHash main children = .ok hash) : DetailSemantics μ χ :=
  { semantics with
    sourceHash := fun main children =>
      (known main children).elim (semantics.sourceHash main children) .ok
    sourceHash_ne_empty := by
      intro main children hash hsource
      cases hknown : known main children with
      | none =>
        rw [hknown] at hsource
        exact semantics.sourceHash_ne_empty hsource
      | some hash' =>
        rw [hknown] at hsource
        cases hsource
        exact semantics.sourceHash_ne_empty (h hknown) }

lemma DetailSemantics.memo_eq {μ χ : Type} (semantics : DetailSemantics μ χ)
    {known : μ → χ → Option SourceHash}
    (h : ∀ {main children hash}, known main children = some hash →
      semantics.sourceHash main children = .ok hash) : semantics.memo known h = semantics := by
  have hsource : (semantics.memo known h).sourceHash = semantics.sourceHash := by
    funext main children
    simp only [memo]
    cases hknown : known main children with
    | none => rfl
    | some hash => exact (h hknown).symm
  cases semantics
  simpa only [memo, mk.injEq, and_true] using hsource

/-- A movie with a title and no other text. -/
def titledMovie (title : String) (adult : Option Bool) : LoadedDetail where
  sourceApi := .tmdb
  row := .movie { title, adult }

def titleOfMovie : LoadedDetail → Option String
  | ⟨.tmdb, .movie ⟨title, originalTitle, tagline, description, _, .arr [], .arr []⟩, none⟩ =>
    if originalTitle = "" ∧ tagline = "" ∧ description = "" then some title else none
  | _ => none

lemma state_of_titleOfMovie {main : LoadedDetail} {title : String}
    (h : titleOfMovie main = some title) (children : ChildRows) :
    main.state children = (titledMovie title none).state {} := by
  unfold titleOfMovie at h
  split at h
  · split_ifs at h with htexts
    obtain ⟨rfl, rfl, rfl⟩ := htexts
    cases h
    rename_i adult
    cases adult <;> rfl
  · cases h

def sourceHashOfA : SourceHash := "3310873dfc1b1710ca23423854fcf529f734a65509be9a0bf3fb0d38d7b4117c"

def sourceHashOfB : SourceHash := "f8858cf0f832575767c03ca2b688786ff4e94e0a5ef1f39d8995bc6581a320d3"

lemma sourceHash_titledMovie_A :
    ((titledMovie "A" none).state {}).map hashModerationState = .ok sourceHashOfA := by
  decide +kernel

lemma sourceHash_titledMovie_B :
    ((titledMovie "B" none).state {}).map hashModerationState = .ok sourceHashOfB := by
  decide +kernel

def computedHash (main : LoadedDetail) (_ : ChildRows) : Option SourceHash :=
  match titleOfMovie main with
  | some "A" => some sourceHashOfA
  | some "B" => some sourceHashOfB
  | _ => none

lemma sourceHash_of_computedHash {main : LoadedDetail} {children : ChildRows} {hash : SourceHash}
    (h : computedHash main children = some hash) : main.sourceHash children = .ok hash := by
  unfold computedHash at h
  split at h
  · next htitle =>
    cases h
    rw [LoadedDetail.sourceHash, state_of_titleOfMovie htitle, sourceHash_titledMovie_A]
    rfl
  · next htitle =>
    cases h
    rw [LoadedDetail.sourceHash, state_of_titleOfMovie htitle, sourceHash_titledMovie_B]
    rfl
  · cases h

/-- The semantics with the hashes of two movies looked up. -/
def computedSemantics : DetailSemantics LoadedDetail ChildRows :=
  detailSemantics.memo computedHash sourceHash_of_computedHash

lemma computedSemantics_eq : computedSemantics = detailSemantics :=
  detailSemantics.memo_eq sourceHash_of_computedHash

abbrev standardConfig : ModerationConfig LoadedDetail ChildRows := .standard detailSemantics

/-- A run of the standard configuration is replayed with the hashes looked up. -/
theorem exists_standardRun
    (ok : ModerationConfig LoadedDetail ChildRows → ModerationState LoadedDetail ChildRows →
      ModerationAction LoadedDetail ChildRows → Bool)
    (P : ModerationState LoadedDetail ChildRows → Bool)
    (as : List (ModerationAction LoadedDetail ChildRows))
    (h : ((moderationSystem (.standard computedSemantics)).replay
      (fun s a => ok (.standard computedSemantics) s a = true)
      (.empty LoadedDetail ChildRows) as).any P = true) :
    ∃ s, (moderationSystem standardConfig).ReachableUnder
      (fun s a => ok standardConfig s a = true) s ∧ P s = true := by
  rw [computedSemantics_eq] at h
  exact (moderationSystem standardConfig).exists_reachableUnder_of_replay _ P as (.initial rfl) h

end Denn
