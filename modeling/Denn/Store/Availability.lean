import Denn.Store.Fetch
import Denn.Store.Renames

/-!
# What a bulk fetch answers

An item with local detail is always answered, and only a payload that is stored touches its rows. A
payload that is made of an old row is marked stale, unless the row was to be refreshed and the mapper
failed: then it is rebuilt like a new one.
-/

namespace Denn

open Core

variable {config : StoreConfig} {s : LocalStore} {call : FetchCall} {item : ItemId}

namespace LocalStore

lemma classify_of_none (h : s.details.get? item = none) : s.classify config item = .missing := by
  rw [classify, h]

lemma classify_ne_missing (h : (s.details.get? item).isSome) :
    s.classify config item ≠ .missing := by
  obtain ⟨detail, hdetail⟩ := Option.isSome_iff_exists.mp h
  simp only [classify, hdetail]
  split_ifs <;> simp

/-- The fallback is there for every item with detail that goes to the proxy. -/
lemma fallback_of_needsProxy (hneeds : item ∈ s.needsProxy config call)
    (hdetail : (s.details.get? item).isSome) :
    s.fallback config item = (s.fromLocal item).map LocalPayload.markStale := by
  obtain ⟨-, hmissing | hincomplete | ⟨hstale, -⟩⟩ := mem_needsProxy.mp hneeds
  · exact absurd hmissing (classify_ne_missing hdetail)
  · rw [fallback, if_pos (.inr hincomplete)]
  · rw [fallback, if_pos (.inl hstale)]

/-- An item that the proxy has a payload for is rebuilt. -/
lemma answer_of_permits (hneeds : item ∈ s.needsProxy config call)
    (hproxy : (call.proxy item).isSome) (hpermits : call.permits item = true) :
    (s.fetchBulkSourceData config call).2.get? item
      = (s.fetchBulkSourceData config call).1.rebuild call item := by
  have hanswer : Answered config s call item ((s.fetchBulkSourceData config call).2.get? item) :=
    fetchBulkSourceData_answers
  obtain ⟨hitem, hclass⟩ := mem_needsProxy.mp hneeds
  generalize (s.fetchBulkSourceData config call).2.get? item = answer at hanswer ⊢
  cases hanswer with
  | absent hnot => exact absurd hitem hnot
  | fresh _ hfresh => simp [hfresh] at hclass
  | stale _ hstale hserve => simp [hstale, hserve] at hclass
  | fallback _ hnone => simp [hnone] at hproxy
  | refused _ _ hrefused => simp [hrefused] at hpermits
  | rebuilt => rfl

/-- Every item with detail has an answer, and a call leaves the rows of the items that it stores no
    payload for. -/
theorem detail_stays_available (h : (localStoreSystem config).Reachable s)
    (hguard : call.guard = none) (hdetail : (s.details.get? item).isSome) :
    (item ∈ call.items → ((s.fetchBulkSourceData config call).2.get? item).isSome) ∧
    (s.stores config call item = false →
      SameRows s (s.fetchBulkSourceData config call).1 item) := by
  have hI := storeInvariant_of_reachable h
  obtain ⟨detail, hsome⟩ := Option.isSome_iff_exists.mp hdetail
  obtain ⟨row, hrow, -⟩ := hI.typed item detail hsome
  have hlocal : (s.fromLocal item).isSome := by
    rw [isSome_fromLocal]
    exact hdetail
  constructor
  · intro hitem
    have hhydrate : item ∈ s.hydrate call.items := mem_hydrate.mpr ⟨hitem, by rw [hrow]; rfl⟩
    have hanswer : Answered config s call item ((s.fetchBulkSourceData config call).2.get? item) :=
      fetchBulkSourceData_answers
    generalize (s.fetchBulkSourceData config call).2.get? item = answer at hanswer ⊢
    cases hanswer with
    | absent hnot => exact absurd hhydrate hnot
    | fresh _ hclass => rwa [Option.isSome_map]
    | stale _ hclass hserve => rwa [Option.isSome_map]
    | fallback hneeds hproxy =>
      rw [fallback_of_needsProxy hneeds hdetail, Option.isSome_map, Option.isSome_map]
      exact hlocal
    | refused hneeds hproxy hpermits => simp [FetchCall.permits, hguard] at hpermits
    | rebuilt hneeds hproxy hpermits =>
      unfold rebuild
      split
      · rfl
      · rwa [Option.isSome_map]
  · intro hstores
    exact (fetchBulkSourceData_refreshes config call hI hrow).2.left (by simp [hstores])

/-- A season is stored, and a month passes. -/
def monthOldSeason : List StoreAction :=
  [ .getOrCreate (.tmdb, "42:1", .season),
    .upsert { item := 0, payload := standalonePayload "A" }, .tick 2678400 ]

/-- A call while the proxy is down. -/
def failedFetch : FetchCall where
  items := [0]
  proxy _ := none

/-- A call for the season, with a mapper that fails or not. -/
def refetchSeason (fails : Bool) : FetchCall where
  items := [0]
  proxy _ := some (standalonePayload "A")
  fails _ := fails

/-- The fetch answers with rows that it does not call stale although they are. -/
def hidesStaleness (config : StoreConfig) (s : LocalStore) : Bool :=
  match (s.fetchBulkSourceData config (refetchSeason true)).2.get? 0 with
  | some (.fromRows _ payload) =>
    !payload.isStale && !detailIsFresh defaultPolicy s.clock payload.detail
  | _ => false

/-- The season is available, a fetch stores it, and a fetch with a failing mapper hides its age. -/
lemma exists_monthOldSeason : ∃ s, (localStoreSystem (.standard detailSemantics)).Reachable s ∧
    (s.details.get? 0).isSome ∧ s.stores (.standard detailSemantics) (refetchSeason false) 0 ∧
    ((s.fetchBulkSourceData (.standard detailSemantics) (refetchSeason false)).2.get? 0).isSome ∧
    hidesStaleness (.standard detailSemantics) s := by
  obtain ⟨s, hs, hold⟩ := exists_storeRun (fun _ _ _ => true)
    (fun config s => (s.details.get? 0).isSome && s.stores config (refetchSeason false) 0
      && ((s.fetchBulkSourceData config (refetchSeason false)).2.get? 0).isSome
      && hidesStaleness config s)
    monthOldSeason (by decide +kernel)
  simp only [Bool.and_eq_true] at hold
  exact ⟨s, hs.reachable, hold.1.1.1, hold.1.1.2, hold.1.2, hold.2⟩

theorem old_season_stays_available : ∃ s : LocalStore,
    ((s.fetchBulkSourceData (.standard detailSemantics) failedFetch).2.get? 0).isSome ∧
    SameRows s (s.fetchBulkSourceData (.standard detailSemantics) failedFetch).1 0 := by
  obtain ⟨s, hs, hdetail, -⟩ := exists_monthOldSeason
  have hguard : failedFetch.guard = none := rfl
  obtain ⟨hanswer, hsame⟩ := detail_stays_available hs hguard hdetail
  exact ⟨s, hanswer (by simp [failedFetch]), hsame (by simp [stores, storesFor, failedFetch])⟩

/-! ### The stale flag -/

end LocalStore

end Denn
