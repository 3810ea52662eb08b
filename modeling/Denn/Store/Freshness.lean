import Denn.Store.Renames

/-!
# Freshness of seasons

A write of a show's nested entry renews the refresh time of the season's row like a write of the
season's own payload, and completeness asks nothing of seasons. So a season row tells that its
episodes are there only if its own payload was the last to write it.
-/

namespace Denn

open Core

variable {config : StoreConfig} {s s' : LocalStore}

/-- The number of episodes that a season's row declares. -/
def DetailRow.declaredEpisodes : DetailRow → ℕ
  | season detail => detail.numberOfEpisodes
  | _ => 0

/-- The nested entries of a show come without episodes, and a season lists episodes if it declares
    any. -/
def DetailPayload.isProxyShaped : DetailPayload → Bool
  | .tvShow payload => payload.nestedSeasons.all fun entry => entry.2.episodes.isNone
  | .season payload => payload.episodes.isSome
      && (payload.declaredCount = 0 || !(payload.episodeRows.getD []).isEmpty)
  | _ => true

def StoreAction.isProxyShaped : StoreAction → Bool
  | .upsert request => request.payload.isProxyShaped
  | _ => true

namespace LocalStore

/-- The last payload that was stored for the item. -/
def latestIngest (s : LocalStore) (item : ItemId) : Option Ingest :=
  s.ingests.find? fun ingest => ingest.item = item

/-- The seasons with episodes that are served as fresh were last written by their own payload. -/
def servesOwn (config : StoreConfig) (s : LocalStore) : StoreAction → Bool
  | .serve items => (s.serveFresh config items).all fun read =>
      read.detail.row.declaredEpisodes = 0 || (s.latestIngest read.item).any (·.kind = .own)
  | _ => true

/-- The read detail is within its lifetime since the item's own payload, and has episodes. -/
structure Earned (config : StoreConfig) (s : LocalStore) (read : FreshRead) : Prop where
  ingest : ∃ ingest ∈ s.ingests, ingest.item = read.item ∧ ingest.kind = .own ∧
    ingest.ingestedAt ≤ read.readAt ∧ read.readAt - ingest.ingestedAt ≤
      (computeRefreshPolicy config.policy read.detail.row.contentType read.detail.releaseDate
        read.detail.status read.readAt).ttl
  episodes : read.detail.children.episodes ≠ []

/-- A row was refreshed by the last payload for its item. -/
structure RefreshInvariant (s : LocalStore) : Prop where
  latest : ∀ item detail, s.details.get? item = some detail → ∃ kind,
    s.latestIngest item = some ⟨item, kind, detail.lastRefreshedAt⟩ ∧
    (kind = .own → 0 < detail.row.declaredEpisodes → detail.children.episodes ≠ [])
  past : ∀ ingest ∈ s.ingests, ingest.ingestedAt ≤ s.clock

lemma RefreshInvariant.empty : RefreshInvariant .empty := by
  constructor <;> simp [LocalStore.empty]

/-- The invariant reads the details, the ingests and the clock. -/
lemma RefreshInvariant.congr (h : RefreshInvariant s) (hdetails : s'.details = s.details)
    (hingests : s'.ingests = s.ingests) (hclock : s.clock ≤ s'.clock) : RefreshInvariant s' where
  latest item detail hdetail := by
    rw [hdetails] at hdetail
    rw [latestIngest, hingests]
    exact h.latest item detail hdetail
  past ingest hingest := (h.past ingest (hingests ▸ hingest)).trans hclock

/-- A season's own payload leaves its episodes. -/
lemma episodes_of_isProxyShaped {payload : SeasonPayload}
    (h : (DetailPayload.season payload).isProxyShaped = true) {children children' : ChildRows}
    (hchildren : payload.replaceEpisodes children = some children')
    (hcount : payload.declaredCount ≠ 0) : children'.episodes ≠ [] := by
  simp only [DetailPayload.isProxyShaped, Bool.and_eq_true, Bool.or_eq_true, decide_eq_true_eq,
    hcount, false_or, Bool.not_eq_true', List.isEmpty_eq_false_iff] at h
  obtain ⟨-, hrows⟩ := h
  unfold SeasonPayload.replaceEpisodes at hchildren
  cases hepisodes : payload.episodeRows with
  | none => simp [hepisodes] at hrows
  | some rows =>
    rw [hepisodes, Option.getD_some] at hrows
    simp only [hepisodes] at hchildren
    split_ifs at hchildren
    cases hchildren
    intro hempty
    have hlength := (List.perm_insertionSort
      (fun a b : EpisodeRow => a.episodeNumber ≤ b.episodeNumber) rows).length_eq
    rw [show rows.insertionSort _ = [] from hempty, List.length_nil] at hlength
    exact hrows (List.length_eq_zero_iff.mp hlength.symm)

/-- A detail that is written from an item's own payload has the episodes that it declares. -/
lemma Written.episodes {request : Upsert} {item : ItemId} {row : DetailRow} {children : ChildRows}
    (hshaped : request.payload.isProxyShaped = true)
    (h : Written request s item row children .own) (hcount : 0 < row.declaredEpisodes) :
    children.episodes ≠ [] := by
  cases h with
  | tvShow hitem hpayload => simp [DetailRow.declaredEpisodes] at hcount
  | season hitem hpayload hchildren =>
    rw [hpayload] at hshaped
    exact episodes_of_isProxyShaped hshaped hchildren hcount.ne'
  | plain hitem hrow =>
    cases row with
    | season detail => exact absurd rfl hrow.2
    | movie | tvShow | game | album | book => simp [DetailRow.declaredEpisodes] at hcount

lemma RefreshInvariant.write {request : Upsert} (hshaped : request.payload.isProxyShaped = true)
    (h : RefreshInvariant s) (hwrite : Write config request s s') : RefreshInvariant s' := by
  cases hwrite with
  | item key =>
    have hsame := itemsOnly_getOrCreate s key
    exact h.congr hsame.details hsame.ingests hsame.clock.ge
  | hash item hash =>
    have hsame := itemsOnly_setHash s item hash
    exact h.congr hsame.details hsame.ingests hsame.clock.ge
  | @detail item itemRow row children kind hitem hwritten htype releaseDate status =>
    constructor
    · intro item' detail hdetail
      simp only [writeDetail, Table.get?_set] at hdetail
      simp only [latestIngest, writeDetail, List.find?_cons]
      split_ifs at hdetail with heq
      · cases hdetail
        refine ⟨kind, by simp [heq], ?_⟩
        rintro rfl hcount
        exact hwritten.episodes hshaped hcount
      · have hne : item ≠ item' := fun hsame => heq hsame.symm
        simpa [hne, latestIngest] using h.latest item' detail hdetail
    · intro ingest hingest
      rcases List.mem_cons.mp hingest with rfl | hold
      · exact le_rfl
      · exact h.past ingest hold
  | @platforms item hconcerns hdetail platforms =>
    exact h.congr (replacePlatforms_details ..) (replacePlatforms_ingests ..)
      (replacePlatforms_clock ..).ge

lemma RefreshInvariant.writes {request : Upsert} (hshaped : request.payload.isProxyShaped = true)
    (h : RefreshInvariant s) (hwrites : Writes config request s s') : RefreshInvariant s' := by
  induction hwrites with
  | refl => exact h
  | tail _ hwrite ih => exact ih.write hshaped hwrite

lemma RefreshInvariant.step {a : StoreAction} (hshaped : a.isProxyShaped = true)
    (hI : StoreInvariant s) (h : RefreshInvariant s) (hstep : s.step config a = some s') :
    RefreshInvariant s' := by
  cases a with
  | tick seconds =>
    cases hstep
    exact h.congr rfl rfl (Nat.le_add_right ..)
  | getOrCreate key =>
    cases hstep
    have hwrite : Write config ⟨0, .tvShow {}, none, none⟩ s (s.getOrCreate key).2 := .item s key
    exact h.write rfl hwrite
  | upsert request => exact h.writes hshaped (upsertDetail_writes hI hstep)
  | serve items =>
    cases hstep
    exact h.congr rfl rfl le_rfl

lemma mem_serveFresh {items : List ItemId} {read : FreshRead}
    (h : read ∈ s.serveFresh config items) :
    s.details.get? read.item = some read.detail ∧ read.readAt = s.clock ∧
      detailIsFresh config.policy s.clock read.detail = true := by
  obtain ⟨item, -, hread⟩ := List.mem_filterMap.mp h
  obtain ⟨detail, hdetail, hfresh⟩ := Option.bind_eq_some_iff.mp hread
  split_ifs at hfresh with hclass
  cases hfresh
  refine ⟨hdetail, rfl, ?_⟩
  simp only [classify, hdetail] at hclass
  split_ifs at hclass with hforce hcomplete hfresh
  exact hfresh

/-- What is read as fresh from a row that its own payload wrote last is earned. -/
lemma RefreshInvariant.earned (h : RefreshInvariant s) {read : FreshRead}
    (hdetail : s.details.get? read.item = some read.detail) (hnow : read.readAt = s.clock)
    (hfresh : detailIsFresh config.policy s.clock read.detail = true)
    (hown : (s.latestIngest read.item).any (·.kind = .own) = true)
    (hcount : 0 < read.detail.row.declaredEpisodes) : Earned config s read := by
  obtain ⟨kind, hlatest, hepisodes⟩ := h.latest read.item read.detail hdetail
  rw [hlatest, Option.any_some, decide_eq_true_eq] at hown
  subst hown
  have hmem := List.mem_of_find?_eq_some hlatest
  refine ⟨⟨_, hmem, rfl, rfl, hnow ▸ h.past _ hmem, ?_⟩, hepisodes rfl hcount⟩
  simp only [detailIsFresh, decide_eq_true_eq] at hfresh
  rw [hnow]
  exact hfresh

lemma Earned.mono {read : FreshRead} (h : Earned config s read)
    (hsub : ∀ ingest ∈ s.ingests, ingest ∈ s'.ingests) : Earned config s' read where
  ingest := by
    obtain ⟨ingest, hingest, hearned⟩ := h.ingest
    exact ⟨ingest, hsub ingest hingest, hearned⟩
  episodes := h.episodes

lemma Write.ingests_subset {request : Upsert} (h : Write config request s s') :
    s'.served = s.served ∧ ∀ ingest ∈ s.ingests, ingest ∈ s'.ingests := by
  cases h with
  | item key =>
    have hsame := itemsOnly_getOrCreate s key
    exact ⟨hsame.served, fun _ hmem => hsame.ingests.symm ▸ hmem⟩
  | hash item hash =>
    have hsame := itemsOnly_setHash s item hash
    exact ⟨hsame.served, fun _ hmem => hsame.ingests.symm ▸ hmem⟩
  | detail hitem hwritten htype releaseDate status =>
    exact ⟨rfl, fun _ hmem => List.mem_cons_of_mem _ hmem⟩
  | @platforms item hconcerns hdetail platforms => simp

lemma Writes.ingests_subset {request : Upsert} (h : Writes config request s s') :
    s'.served = s.served ∧ ∀ ingest ∈ s.ingests, ingest ∈ s'.ingests := by
  induction h with
  | refl => exact ⟨rfl, fun _ hmem => hmem⟩
  | tail _ hwrite ih =>
    obtain ⟨hserved, hingests⟩ := hwrite.ingests_subset
    exact ⟨hserved.trans ih.1, fun ingest hmem => hingests ingest (ih.2 ingest hmem)⟩

lemma refreshInvariant_of_reachableUnder {ok : LocalStore → StoreAction → Prop}
    (hok : ∀ s a, ok s a → a.isProxyShaped = true)
    (h : (localStoreSystem config).ReachableUnder ok s) : RefreshInvariant s :=
  h.invariant_of (fun _ => storeInvariant_of_reachable) (fun _ hinit => hinit ▸ .empty)
    fun _ _ _ hI hrefresh hshaped hstep => hrefresh.step (hok _ _ hshaped) hI hstep

/-- A season that is served as fresh is within its lifetime since its own payload and has its
    episodes, in a run that serves seasons after their own payload only. -/
theorem earned_of_reachableUnder
    (h : (localStoreSystem config).ReachableUnder
      (fun s a => a.isProxyShaped = true ∧ s.servesOwn config a = true) s)
    {read : FreshRead} (hread : read ∈ s.served) (hcount : 0 < read.detail.row.declaredEpisodes) :
    Earned config s read := by
  induction h with
  | initial hinit =>
    rw [show _ = LocalStore.empty from hinit] at hread
    simp [LocalStore.empty] at hread
  | @step s s' a hs hok hstep ih =>
    have hI := storeInvariant_of_reachable hs.reachable
    have hrefresh := refreshInvariant_of_reachableUnder (fun _ _ hok => hok.1) hs
    cases a with
    | tick seconds =>
      cases hstep
      exact (ih hread).mono fun _ hmem => hmem
    | getOrCreate key =>
      cases hstep
      have hwrite : Write config ⟨0, .tvShow {}, none, none⟩ s (s.getOrCreate key).2 := .item s key
      obtain ⟨hserved, hingests⟩ := Writes.ingests_subset (.single hwrite)
      exact (ih (hserved ▸ hread)).mono hingests
    | upsert request =>
      obtain ⟨hserved, hingests⟩ := (upsertDetail_writes hI hstep).ingests_subset
      exact (ih (hserved ▸ hread)).mono hingests
    | serve items =>
      cases hstep
      rcases List.mem_append.mp hread with hnew | hold
      · obtain ⟨hdetail, hnow, hfresh⟩ := mem_serveFresh hnew
        have hown := List.all_eq_true.mp hok.2 read hnew
        simp only [hcount.ne', decide_false, Bool.false_or] at hown
        exact (hrefresh.earned hdetail hnow hfresh hown hcount).mono fun _ hmem => hmem
      · exact (ih hold).mono fun _ hmem => hmem

/-- A season that has got its own payload is served a minute later. -/
theorem earned_own_season : ∃ s read, read ∈ s.served ∧ 0 < read.detail.row.declaredEpisodes ∧
    Earned (.standard detailSemantics) s read := by
  let payload : SeasonPayload :=
    { id := some "42:1", seasonNumber := some 1, numberOfEpisodes := some 1,
      episodes := some [{ externalId := some "e1", episodeNumber := some 1 }] }
  obtain ⟨s, hs, hserved⟩ := exists_storeRun
    (fun config s a => a.isProxyShaped && s.servesOwn config a)
    (fun _ s => s.served.any fun read => 0 < read.detail.row.declaredEpisodes)
    [ .getOrCreate (.tmdb, "42:1", .season), .upsert { item := 0, payload := .season payload },
      .tick 60, .serve [0] ] (by decide +kernel)
  simp only [Bool.and_eq_true] at hs
  simp only [List.any_eq_true, decide_eq_true_eq] at hserved
  obtain ⟨read, hread, hcount⟩ := hserved
  exact ⟨s, read, hread, hcount, earned_of_reachableUnder hs hread hcount⟩

/-- A season that has got a nested entry only is served as fresh, without its episodes. -/
theorem nested_season_is_served_fresh :
    ¬ ∀ s, (localStoreSystem (.standard detailSemantics)).ReachableUnder
      (fun _ a => a.isProxyShaped = true) s → ∀ read ∈ s.served,
        0 < read.detail.row.declaredEpisodes → Earned (.standard detailSemantics) s read := by
  intro hall
  let payload : TvShowPayload :=
    { id := some "42", title := some "A",
      seasons := some [{ seasonNumber := some 1, numberOfEpisodes := some 10 }] }
  obtain ⟨s, hs, hserved⟩ := exists_storeRun (fun _ _ a => a.isProxyShaped)
    (fun _ s => s.served.any fun read => 0 < read.detail.row.declaredEpisodes
      && read.detail.children.episodes.isEmpty)
    [ .getOrCreate (.tmdb, "42", .tvShow), .upsert { item := 0, payload := .tvShow payload },
      .serve [1] ] (by decide +kernel)
  simp only [List.any_eq_true, Bool.and_eq_true, decide_eq_true_eq, List.isEmpty_iff] at hserved
  obtain ⟨read, hread, hcount, hempty⟩ := hserved
  exact (hall s hs read hread hcount).episodes hempty

end LocalStore

end Denn
