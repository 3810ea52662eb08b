import Denn.Progress.Backfill

/-!
# The progress backfill is a one-shot migration

One run covers every active rating and every item of a personal list, and a second run changes
nothing.
-/

namespace Denn.Backfill

open Core Lists

/-! ### Bulk creation -/

lemma get?_bulkCreate {κ ρ : Type} [DecidableEq κ] (row : ρ) (keys : List κ) (table : Table κ ρ)
    (key : κ) :
    (bulkCreate row keys table).get? key
      = (table.get? key).or (if key ∈ keys then some row else none) := by
  induction keys generalizing table with
  | nil => simp [bulkCreate]
  | cons k keys ih =>
    rw [bulkCreate, List.foldl_cons, ← bulkCreate, ih]
    by_cases hk : key = k
    · subst hk
      cases h : table.get? key with
      | none => simp
      | some r => simp [h]
    · have hget : (if (table.get? k).isSome then table else table.set k row).get? key
          = table.get? key := by
        split_ifs
        · rfl
        · exact Table.get?_set_ne _ _ hk
      simp only [hget, List.mem_cons, hk, false_or]

/-! ### Seeding one pair -/

/-- The pair has a completion no later than the evidence, and the status that it asks for. -/
def Covered (tracking : TrackingTable) (evidence : Evidence) : Prop :=
  ∃ row completedAt, tracking.get? evidence.pair = some row ∧
    row.lastCompletedAt = some completedAt ∧ completedAt ≤ evidence.completedAt ∧
    (evidence.normalizeStatus = true → row.status = .completed)

lemma Covered.isSome {tracking : TrackingTable} {evidence : Evidence}
    (h : Covered tracking evidence) : (tracking.get? evidence.pair).isSome := by
  obtain ⟨row, -, hrow, -⟩ := h
  simp [hrow]

lemma Evidence.save_status {evidence : Evidence} {now : Time} {existing : Tracking} :
    (evidence.save now existing).status = .completed ∨
      evidence.normalizeStatus = false ∧ (evidence.save now existing).status = existing.status := by
  cases h : evidence.normalizeStatus <;> simp [save, statusChanged, h]

lemma Evidence.of_not_changes {evidence : Evidence} {existing : Tracking}
    (h : evidence.changes existing = false) :
    (evidence.normalizeStatus = true → existing.status = .completed) ∧
      ∃ completedAt, existing.lastCompletedAt = some completedAt ∧
        completedAt ≤ evidence.completedAt := by
  simp only [changes, statusChanged, Bool.or_eq_false_iff, Bool.and_eq_false_iff,
    decide_eq_false_iff_not, not_not] at h
  obtain ⟨hstatus, hcompleted⟩ := h
  refine ⟨fun hn => hstatus.resolve_left (by simp [hn]), ?_⟩
  cases hlast : existing.lastCompletedAt with
  | none => simp [hlast] at hcompleted
  | some completedAt => exact ⟨completedAt, rfl, by simpa [hlast] using hcompleted⟩

variable {now : Time} {state : Seeding}

lemma get?_ensure_of_ne (evidence : Evidence) {key : Pair} (h : key ≠ evidence.pair) :
    (ensureCompletedTracking now state evidence).tracking.get? key = state.tracking.get? key := by
  unfold ensureCompletedTracking
  split
  · dsimp only
    split_ifs
    · exact Table.get?_set_ne _ _ h
    · rfl
  · exact Table.get?_set_ne _ _ h

/-- The row that the evidence leaves for the one that it finds. -/
def Evidence.ensured (evidence : Evidence) (now : Time) : Option Tracking → Tracking
  | some existing => if evidence.changes existing then evidence.save now existing else existing
  | none => evidence.create now

variable (now state) in
lemma get?_ensure_self (evidence : Evidence) :
    (ensureCompletedTracking now state evidence).tracking.get? evidence.pair
      = some (evidence.ensured now (state.tracking.get? evidence.pair)) := by
  unfold ensureCompletedTracking Evidence.ensured
  cases h : state.tracking.get? evidence.pair with
  | some existing =>
    dsimp only
    split_ifs
    · exact Table.get?_set_self ..
    · exact h
  | none => exact Table.get?_set_self ..

theorem covered_ensure (evidence : Evidence) :
    Covered (ensureCompletedTracking now state evidence).tracking evidence := by
  have hself := get?_ensure_self now state evidence
  cases h : state.tracking.get? evidence.pair with
  | none =>
    rw [h] at hself
    exact ⟨_, _, hself, rfl, le_rfl, fun _ => rfl⟩
  | some existing =>
    rw [h] at hself
    simp only [Evidence.ensured] at hself
    split_ifs at hself with hchanges
    · refine ⟨_, _, hself, rfl, le_rfl, fun hn => ?_⟩
      rcases @Evidence.save_status evidence now existing with hs | ⟨hs, -⟩
      · exact hs
      · simp [hn] at hs
    · obtain ⟨hstatus, completedAt, hlast, hle⟩ :=
        Evidence.of_not_changes (Bool.not_eq_true _ ▸ hchanges)
      exact ⟨existing, completedAt, hself, hlast, hle, hstatus⟩

/-- Evidence for another pair, or evidence that only moves a completion to an earlier time, leaves a
    covered pair covered. -/
theorem Covered.ensure {evidence evidence' : Evidence} (h : Covered state.tracking evidence)
    (hother : evidence.pair ≠ evidence'.pair ∨ evidence'.normalizeStatus = false) :
    Covered (ensureCompletedTracking now state evidence').tracking evidence := by
  obtain ⟨row, completedAt, hrow, hlast, hle, hstatus⟩ := h
  by_cases hpair : evidence.pair = evidence'.pair
  · have hkeep := hother.resolve_left (not_not.mpr hpair)
    have hself := get?_ensure_self now state evidence'
    rw [← hpair, hrow] at hself
    simp only [Evidence.ensured] at hself
    split_ifs at hself with hchanges
    · have hearlier : evidence'.completedAt < completedAt := by
        simpa [Evidence.changes, Evidence.statusChanged, hkeep, hlast] using hchanges
      refine ⟨_, _, hself, rfl, (hearlier.trans_le hle).le, fun hn => ?_⟩
      simp [Evidence.save, Evidence.statusChanged, hkeep, hstatus hn]
    · exact ⟨row, completedAt, hself, hlast, hle, hstatus⟩
  · exact ⟨row, completedAt, (get?_ensure_of_ne evidence' hpair).trans hrow, hlast, hle, hstatus⟩

/-- A covered pair is left as it is. -/
theorem Covered.ensure_eq {evidence : Evidence} (h : Covered state.tracking evidence) :
    ensureCompletedTracking now state evidence = state := by
  obtain ⟨row, completedAt, hrow, hlast, hle, hstatus⟩ := h
  have hsame : evidence.statusChanged row = false := by
    cases hn : evidence.normalizeStatus <;> simp [Evidence.statusChanged, hn, hstatus]
  have hchanges : evidence.changes row = false := by
    simpa [Evidence.changes, hsame, hlast] using hle
  simp [ensureCompletedTracking, hrow, hsame, hchanges]

/-! ### Seeding from all evidence -/

theorem Covered.foldl {evidence : Evidence} (evidences : List Evidence)
    (h : Covered state.tracking evidence) (hother : ∀ evidence' ∈ evidences,
      evidence.pair ≠ evidence'.pair ∨ evidence'.normalizeStatus = false) :
    Covered (evidences.foldl (ensureCompletedTracking now) state).tracking evidence := by
  induction evidences generalizing state with
  | nil => exact h
  | cons evidence' evidences ih =>
    obtain ⟨hhead, htail⟩ := List.forall_mem_cons.mp hother
    exact ih (h.ensure hhead) htail

/-- Every item of evidence is covered, if none undoes another. -/
theorem covered_foldl (evidences : List Evidence) (h : evidences.Pairwise fun evidence evidence' =>
      evidence.pair ≠ evidence'.pair ∨ evidence'.normalizeStatus = false) :
    ∀ evidence ∈ evidences,
      Covered (evidences.foldl (ensureCompletedTracking now) state).tracking evidence := by
  induction evidences generalizing state with
  | nil => simp
  | cons evidence evidences ih =>
    obtain ⟨hhead, htail⟩ := List.pairwise_cons.mp h
    intro evidence' hmem
    rcases List.mem_cons.mp hmem with rfl | hmem
    · exact (covered_ensure evidence').foldl evidences hhead
    · exact ih htail evidence' hmem

/-- Evidence that is covered already changes and counts nothing. -/
theorem foldl_ensure_eq (evidences : List Evidence)
    (h : ∀ evidence ∈ evidences, Covered state.tracking evidence) :
    evidences.foldl (ensureCompletedTracking now) state = state := by
  induction evidences with
  | nil => rfl
  | cons evidence evidences ih =>
    obtain ⟨hhead, htail⟩ := List.forall_mem_cons.mp h
    rw [List.foldl_cons, hhead.ensure_eq]
    exact ih htail

/-- Every row stays, with its status or, where `normalized`, completed; a new row is one of
    those `admitted`. -/
structure Extends (normalized admitted : Pair → Prop) (tracking tracking' : TrackingTable) :
    Prop where
  kept : ∀ {pair old}, tracking.get? pair = some old → ∃ new, tracking'.get? pair = some new ∧
    (new.status = old.status ∨ new.status = .completed ∧ normalized pair)
  added : ∀ {pair new}, tracking.get? pair = none → tracking'.get? pair = some new → admitted pair

section

variable {normalized admitted : Pair → Prop} {tracking tracking' tracking'' : TrackingTable}

lemma Extends.rfl : Extends normalized admitted tracking tracking where
  kept h := ⟨_, h, .inl (Eq.refl _)⟩
  added h h' := by simp [h] at h'

lemma Extends.trans (h : Extends normalized admitted tracking tracking')
    (h' : Extends normalized admitted tracking' tracking'') :
    Extends normalized admitted tracking tracking'' where
  kept hold := by
    obtain ⟨mid, hmid, hstatus⟩ := h.kept hold
    obtain ⟨new, hnew, hstatus'⟩ := h'.kept hmid
    refine ⟨new, hnew, ?_⟩
    rcases hstatus' with heq | hcompleted
    · rwa [heq]
    · exact .inr hcompleted
  added {pair new} hnone hnew := by
    cases hmid : tracking'.get? pair with
    | none => exact h'.added hmid hnew
    | some mid => exact h.added hnone hmid

lemma Extends.isSome (h : Extends normalized admitted tracking tracking') {pair : Pair}
    (hsome : (tracking.get? pair).isSome) : (tracking'.get? pair).isSome := by
  obtain ⟨old, hold⟩ := Option.isSome_iff_exists.mp hsome
  obtain ⟨new, hnew, -⟩ := h.kept hold
  simp [hnew]

lemma extends_ensure {evidence : Evidence} (hadmitted : admitted evidence.pair)
    (hnormalized : evidence.normalizeStatus = true → normalized evidence.pair) :
    Extends normalized admitted state.tracking
      (ensureCompletedTracking now state evidence).tracking where
  kept {pair old} hold := by
    by_cases hpair : pair = evidence.pair
    · subst hpair
      have hself := get?_ensure_self now state evidence
      rw [hold] at hself
      simp only [Evidence.ensured] at hself
      refine ⟨_, hself, ?_⟩
      split_ifs
      · cases hn : evidence.normalizeStatus with
        | false => exact .inl (by simp [Evidence.save, Evidence.statusChanged, hn])
        | true =>
          refine .inr ⟨?_, hnormalized hn⟩
          exact (evidence.save_status).resolve_right (by simp [hn])
      · exact .inl (Eq.refl _)
    · exact ⟨old, (get?_ensure_of_ne evidence hpair).trans hold, .inl (Eq.refl _)⟩
  added {pair new} hnone hnew := by
    by_cases hpair : pair = evidence.pair
    · rwa [hpair]
    · rw [get?_ensure_of_ne evidence hpair, hnone] at hnew
      cases hnew

theorem extends_foldl (evidences : List Evidence)
    (h : ∀ evidence ∈ evidences, admitted evidence.pair ∧
      (evidence.normalizeStatus = true → normalized evidence.pair)) :
    Extends normalized admitted state.tracking
      (evidences.foldl (ensureCompletedTracking now) state).tracking := by
  induction evidences generalizing state with
  | nil => exact .rfl
  | cons evidence evidences ih =>
    obtain ⟨hhead, htail⟩ := List.forall_mem_cons.mp h
    exact (extends_ensure hhead.1 hhead.2).trans (ih htail)

lemma extends_bulkCreate {row : Tracking} {pairs : List Pair} (h : ∀ pair ∈ pairs, admitted pair) :
    Extends normalized admitted tracking (bulkCreate row pairs tracking) where
  kept {pair old} hold := ⟨old, by rw [get?_bulkCreate, hold]; rfl, .inl (Eq.refl _)⟩
  added {pair new} hnone hnew := by
    rw [get?_bulkCreate, hnone, Option.none_or] at hnew
    split_ifs at hnew with hmem
    exact h pair hmem

end

/-! ### The evidence -/

lemma mem_ratingEvidence {ratings : Table Pair Rating} {evidence : Evidence} :
    evidence ∈ ratingEvidence ratings ↔ ∃ pair rating, ratings.get? pair = some rating ∧
      evidence = ⟨pair, rating.createdAt, rating.isActive⟩ := by
  simp only [ratingEvidence, List.mem_map, List.mem_insertionSort, Prod.exists, Table.mem_rows_iff,
    eq_comm]

/-- Every pair has one rating at most. -/
lemma pairwise_ratingEvidence (ratings : Table Pair Rating) :
    (ratingEvidence ratings).Pairwise fun evidence evidence' =>
      evidence.pair ≠ evidence'.pair ∨ evidence'.normalizeStatus = false := by
  have hnodup : ((ratingEvidence ratings).map (·.pair)).Nodup := by
    rw [ratingEvidence, List.map_map]
    exact ((List.perm_insertionSort ..).map _).nodup_iff.mpr ratings.nodup_keys
  exact (List.pairwise_map.mp hnodup).imp fun hne => .inl hne

/-- The pair belongs to a list item with `p` of a personal list. -/
def HasItem (db : Database) (p : ListItem → Bool) (pair : Pair) : Prop :=
  ∃ id item, db.listItems.get? id = some item ∧ personalPair db item = some pair ∧ p item = true

def isCompleted (item : ListItem) : Bool := item.contextStatus = some .completed

lemma mem_personalPairs {db : Database} {p : ListItem → Bool} {pair : Pair} :
    pair ∈ personalPairs db p ↔ HasItem db p pair := by
  simp only [personalPairs, List.mem_filterMap, List.mem_filter, Prod.exists, Table.mem_rows_iff,
    HasItem]
  constructor
  · rintro ⟨id, item, ⟨hitem, hp⟩, hpair⟩
    exact ⟨id, item, hitem, hpair, hp⟩
  · rintro ⟨id, item, hitem, hpair, hp⟩
    exact ⟨id, item, ⟨hitem, hp⟩, hpair⟩

lemma isSome_keepEarliest (earliest : Table Pair Time) (pair pair' : Pair) (evidenceAt : Time) :
    ((keepEarliest earliest pair evidenceAt).get? pair').isSome ↔
      (earliest.get? pair').isSome ∨ pair' = pair := by
  unfold keepEarliest
  by_cases h : pair' = pair
  · subst h
    cases hprevious : earliest.get? pair' with
    | none => simp
    | some previous => split_ifs <;> simp [hprevious]
  · split_ifs <;> simp [h, Table.get?_set_ne _ _ h]

lemma isSome_earliestCompletions {db : Database} {pair : Pair} :
    ((earliestCompletions db).get? pair).isSome ↔ HasItem db isCompleted pair := by
  have hfold : ∀ (rows : List (ListItemId × ListItem)) (earliest : Table Pair Time),
      ((rows.foldl (collectEarliest db) earliest).get? pair).isSome ↔
        (earliest.get? pair).isSome ∨
          ∃ row ∈ rows, personalPair db row.2 = some pair ∧ isCompleted row.2 = true := by
    intro rows
    induction rows with
    | nil => simp
    | cons row rows ih =>
      intro earliest
      rw [List.foldl_cons, ih, List.exists_mem_cons_iff, ← or_assoc]
      apply or_congr_left
      cases hpair : personalPair db row.2 with
      | none => simp [collectEarliest, hpair]
      | some pair' =>
        by_cases hcompleted : row.2.contextStatus = some .completed
        · simp [collectEarliest, hpair, hcompleted, isSome_keepEarliest, isCompleted,
            @eq_comm _ pair pair']
        · simp [collectEarliest, hpair, hcompleted, isCompleted]
  rw [earliestCompletions, hfold]
  simp [HasItem, Table.mem_rows_iff]

lemma mem_personalEvidence {db : Database} {evidence : Evidence}
    (h : evidence ∈ personalEvidence db) :
    HasItem db isCompleted evidence.pair ∧ evidence.normalizeStatus = false := by
  simp only [personalEvidence, List.mem_map, List.mem_insertionSort, Prod.exists,
    Table.mem_rows_iff] at h
  obtain ⟨user, item, completedAt, hrow, rfl⟩ := h
  exact ⟨isSome_earliestCompletions.mp (by simp [hrow]), rfl⟩

lemma exists_personalEvidence {db : Database} {pair : Pair} (h : HasItem db isCompleted pair) :
    ∃ evidence ∈ personalEvidence db, evidence.pair = pair := by
  obtain ⟨completedAt, hrow⟩ := Option.isSome_iff_exists.mp (isSome_earliestCompletions.mpr h)
  refine ⟨⟨pair, completedAt, false⟩, List.mem_map.mpr ⟨(pair, completedAt), ?_, rfl⟩, rfl⟩
  rw [List.mem_insertionSort, Table.mem_rows_iff]
  exact hrow

/-! ### The backlog -/

lemma mem_missingPairs {db : Database} {candidates : List Pair} {pair : Pair} :
    pair ∈ missingPairs db candidates ↔ pair ∈ candidates ∧ db.tracking.get? pair = none ∧
      db.ratings.get? pair = none ∧ ¬ HasItem db isCompleted pair := by
  have hamong : pair ∈ candidates → pair.1 ∈ candidates.map Prod.fst ∧
      pair.2 ∈ candidates.map Prod.snd := fun h =>
    ⟨List.mem_map_of_mem h, List.mem_map_of_mem h⟩
  have hkeys : ∀ {ρ : Type} (table : Table Pair ρ), pair ∈ candidates →
      (pair ∉ (table.keysWhere fun pair _ => decide (pair.1 ∈ candidates.map Prod.fst)
        && decide (pair.2 ∈ candidates.map Prod.snd)) ↔ table.get? pair = none) := by
    intro ρ table hmem
    rw [Table.mem_keysWhere, Option.eq_none_iff_forall_ne_some]
    simp only [(hamong hmem).1, (hamong hmem).2, decide_true, Bool.and_self, and_true, not_exists,
      ne_eq]
  have hlists : pair ∈ candidates →
      (pair ∉ ((personalPairs db fun item => item.contextStatus = some .completed).filter
        fun pair => decide (pair.1 ∈ candidates.map Prod.fst)
          && decide (pair.2 ∈ candidates.map Prod.snd)) ↔ ¬ HasItem db isCompleted pair) := by
    intro hmem
    rw [List.mem_filter, mem_personalPairs]
    simp only [(hamong hmem).1, (hamong hmem).2, decide_true, Bool.and_self, and_true]
    rfl
  rw [missingPairs, List.mem_insertionSort, List.mem_filter]
  refine and_congr_right fun hmem => ?_
  simp only [Bool.and_eq_true, decide_eq_true_eq, hkeys _ hmem, hlists hmem, and_assoc]

/-- Every item of a personal list is tracked after the last seeding. -/
theorem isSome_seedMissing {db : Database} {pair : Pair} (h : HasItem db (fun _ => true) pair)
    (hrated : (db.ratings.get? pair).isSome → (db.tracking.get? pair).isSome)
    (hcompleted : HasItem db isCompleted pair → (db.tracking.get? pair).isSome) :
    ((seedMissingPersonalListBacklog now db).1.get? pair).isSome := by
  unfold seedMissingPersonalListBacklog
  dsimp only
  cases htracked : db.tracking.get? pair with
  | some row => split_ifs <;> simp [get?_bulkCreate, htracked]
  | none =>
    have hopen : ¬ HasItem db isCompleted pair := fun hitem => by
      simpa [htracked] using hcompleted hitem
    have hunrated : db.ratings.get? pair = none := by
      cases hrating : db.ratings.get? pair with
      | none => rfl
      | some rating => simp [hrating, htracked] at hrated
    have hcandidate : pair ∈ (personalPairs db
        fun item => item.contextStatus ≠ some .completed).dedup := by
      rw [List.mem_dedup, mem_personalPairs]
      obtain ⟨id, item, hitem, hpair, -⟩ := h
      refine ⟨id, item, hitem, hpair, ?_⟩
      by_contra hdone
      exact hopen ⟨id, item, hitem, hpair, by simpa [isCompleted] using hdone⟩
    have hmissing := mem_missingPairs.mpr ⟨hcandidate, htracked, hunrated, hopen⟩
    rw [if_neg (List.ne_nil_of_mem hcandidate)]
    dsimp only
    rw [get?_bulkCreate, if_pos hmissing]
    simp

lemma extends_seedMissing {db : Database} {normalized admitted : Pair → Prop}
    (h : ∀ pair, HasItem db (fun _ => true) pair → admitted pair) :
    Extends normalized admitted db.tracking (seedMissingPersonalListBacklog now db).1 := by
  unfold seedMissingPersonalListBacklog
  dsimp only
  split_ifs
  · exact .rfl
  · refine extends_bulkCreate fun pair hmem => ?_
    have hcandidate := (mem_missingPairs.mp hmem).1
    rw [List.mem_dedup, mem_personalPairs] at hcandidate
    obtain ⟨id, item, hitem, hpair, -⟩ := hcandidate
    exact h pair ⟨id, item, hitem, hpair, rfl⟩

lemma get?_seedMissing {db : Database} {pair : Pair} {row : Tracking}
    (h : db.tracking.get? pair = some row) :
    (seedMissingPersonalListBacklog now db).1.get? pair = some row := by
  unfold seedMissingPersonalListBacklog
  dsimp only
  split_ifs
  · exact h
  · exact (get?_bulkCreate ..).trans (by rw [h]; rfl)

/-- Where all items of personal lists are tracked, the last seeding does nothing. -/
lemma seedMissing_eq {db : Database}
    (h : ∀ pair, HasItem db (fun _ => true) pair → (db.tracking.get? pair).isSome) :
    seedMissingPersonalListBacklog now db = (db.tracking, 0) := by
  unfold seedMissingPersonalListBacklog
  dsimp only
  split_ifs
  · rfl
  · have hnone : missingPairs db (personalPairs db
        fun item => item.contextStatus ≠ some .completed).dedup = [] := by
      apply List.eq_nil_iff_forall_not_mem.mpr
      intro pair hmem
      obtain ⟨hcandidate, htracked, -⟩ := mem_missingPairs.mp hmem
      rw [List.mem_dedup, mem_personalPairs] at hcandidate
      obtain ⟨id, item, hitem, hpair, -⟩ := hcandidate
      simpa [htracked] using h pair ⟨id, item, hitem, hpair, rfl⟩
    rw [hnone]
    rfl

/-! ### The other passes -/

lemma backfillProfiles_again {db : Database}
    (h : ∀ user ∈ db.users, (db.profiles.get? user).isSome) :
    backfillProfiles now db = (db, 0) := by
  have hnone : (db.users.filter fun user => (db.profiles.get? user).isNone) = ∅ := by
    apply Finset.filter_eq_empty_iff.mpr
    intro user huser
    simpa [Option.isSome_iff_ne_none] using h user huser
  rw [backfillProfiles, hnone, Finset.sort_empty]
  rfl

lemma isSome_backfillProfiles {db : Database} {user : UserId} (h : user ∈ db.users) :
    ((backfillProfiles now db).1.profiles.get? user).isSome := by
  rw [backfillProfiles, get?_bulkCreate]
  cases hprofile : db.profiles.get? user with
  | some profile => rfl
  | none => simp [h, hprofile]

lemma backfillSeasonParents_again {db : Database} (h : ∀ pk detail,
      db.seasonDetails.get? pk = some detail → detail.tvShow = none →
      detail.linked db.contentItems = none) :
    backfillSeasonParents db = (db, 0) := by
  have hnone : ∀ pk ∈ db.seasonDetails.keysWhere fun _ detail => detail.tvShow = none,
      (db.seasonDetails.get? pk).bind (·.linked db.contentItems) = none := by
    intro pk hmem
    obtain ⟨detail, hdetail, hparent⟩ := Table.mem_keysWhere.mp hmem
    rw [hdetail]
    exact h pk detail hdetail (by simpa using hparent)
  have hassign : db.seasonDetails.assign (fun pk =>
      (db.seasonDetails.get? pk).bind (·.linked db.contentItems))
      (db.seasonDetails.keysWhere fun _ detail => detail.tvShow = none) = db.seasonDetails :=
    Table.assign_of_none hnone
  have hcount : (db.seasonDetails.keysWhere fun _ detail => detail.tvShow = none).countP
      (fun pk => ((db.seasonDetails.get? pk).bind (·.linked db.contentItems)).isSome) = 0 :=
    List.countP_eq_zero.mpr fun pk hmem => by simp [hnone pk hmem]
  unfold backfillSeasonParents
  dsimp only
  rw [hassign, hcount]

/-- A season that is left without a parent has none to be found. -/
lemma linked_backfillSeasonParents {db : Database} {pk : ℕ} {detail : SeasonDetail}
    (h : (backfillSeasonParents db).1.seasonDetails.get? pk = some detail)
    (hparent : detail.tvShow = none) : detail.linked db.contentItems = none := by
  rw [backfillSeasonParents, Table.get?_assign] at h
  split_ifs at h with hmem
  · obtain ⟨old, hold, -⟩ := Table.mem_keysWhere.mp hmem
    rw [hold, Option.bind_some] at h
    cases hlinked : old.linked db.contentItems with
    | none =>
      rw [hlinked, Option.none_or, Option.some.injEq] at h
      rwa [← h]
    | some new =>
      rw [hlinked, Option.some_or, Option.some.injEq] at h
      obtain ⟨parent, -, hnew⟩ := Option.map_eq_some_iff.mp hlinked
      rw [← h, ← hnew] at hparent
      cases hparent
  · exact absurd (Table.mem_keysWhere.mpr ⟨detail, h, by simpa using hparent⟩) hmem

lemma hasPersonalContext_clear {db : Database} {id : ListItemId} {item : ListItem}
    (h : (clearPersonalContext db).1.listItems.get? id = some item) :
    hasPersonalContext db item = false := by
  rw [clearPersonalContext, Table.get?_updateWhere] at h
  obtain ⟨old, -, hitem⟩ := Option.map_eq_some_iff.mp h
  split_ifs at hitem with hcontext
  · rw [← hitem]
    simp [hasPersonalContext]
  · rw [← hitem]
    simpa using hcontext

lemma clearPersonalContext_again {db : Database}
    (h : ∀ id item, db.listItems.get? id = some item → hasPersonalContext db item = false) :
    clearPersonalContext db = (db, 0) := by
  have hupdate := Table.updateWhere_eq_self
    (p := fun _ item => hasPersonalContext db item)
    (f := fun _ item => { item with contextStatus := none, contextCompletedAt := none }) h
  have hcount : db.listItems.count (fun _ item => hasPersonalContext db item) = 0 :=
    Table.count_eq_zero h
  rw [clearPersonalContext, hupdate, hcount]

/-! ### A run -/

/-- An active rating of the pair. -/
def ActivelyRated (db : Database) (pair : Pair) : Prop :=
  ∃ rating, db.ratings.get? pair = some rating ∧ rating.isActive = true

/-- What one run is for. -/
structure Migrated (db db' : Database) : Prop where
  ratings : ∀ pair rating, db.ratings.get? pair = some rating → rating.isActive = true →
    ∃ row completedAt, db'.tracking.get? pair = some row ∧ row.status = .completed ∧
      row.lastCompletedAt = some completedAt ∧ completedAt ≤ rating.createdAt
  personalItems : ∀ id item list, db.listItems.get? id = some item →
    db.lists.get? item.userList = some list → list.listType = .personal →
    (db'.tracking.get? (list.owner, item.contentItem)).isSome
  statuses : ∀ pair old, db.tracking.get? pair = some old →
    ∃ new, db'.tracking.get? pair = some new ∧
      (new.status = old.status ∨ new.status = .completed ∧ ActivelyRated db pair)
  created : ∀ pair new, db.tracking.get? pair = none → db'.tracking.get? pair = some new →
    (db.ratings.get? pair).isSome ∨ ∃ id item list, db.listItems.get? id = some item ∧
      db.lists.get? item.userList = some list ∧ list.listType = .personal ∧
      pair = (list.owner, item.contentItem)

lemma personalPair_eq_some {db : Database} {item : ListItem} {pair : Pair} :
    personalPair db item = some pair ↔ ∃ list, db.lists.get? item.userList = some list ∧
      list.listType = .personal ∧ pair = (list.owner, item.contentItem) := by
  simp only [personalPair, Option.map_eq_some_iff, Option.filter_eq_some_iff, decide_eq_true_eq,
    and_assoc, @eq_comm _ pair]

section

variable (now) (db : Database)

/-- The tracking rows after the ratings. -/
def ratingTracking : TrackingTable := (seedFromRatings now db).tracking

/-- The tracking rows after the completed items of personal lists. -/
def completedTracking : TrackingTable :=
  (seedFromPersonalLists now { db with tracking := ratingTracking now db }).tracking

/-- The tracking rows after all seedings. -/
def seededTracking : TrackingTable :=
  (seedMissingPersonalListBacklog now { db with tracking := completedTracking now db }).1

lemma run_tracking : (run now db).1.tracking = seededTracking now db := rfl

lemma run_ratings : (run now db).1.ratings = db.ratings := rfl

lemma run_listItems : (run now db).1.listItems = (clearPersonalContext db).1.listItems := rfl

variable {db}

lemma covered_completedTracking {evidence : Evidence} (h : evidence ∈ ratingEvidence db.ratings) :
    Covered (completedTracking now db) evidence := by
  have hratings : Covered (ratingTracking now db) evidence :=
    covered_foldl _ (pairwise_ratingEvidence db.ratings) evidence h
  exact @Covered.foldl now { tracking := ratingTracking now db } evidence _ hratings
    fun evidence' hmem => .inr (mem_personalEvidence hmem).2

/-- After a run the pair of every rating is covered. -/
theorem covered_run {evidence : Evidence} (h : evidence ∈ ratingEvidence db.ratings) :
    Covered (run now db).1.tracking evidence := by
  obtain ⟨row, completedAt, hrow, hrest⟩ := covered_completedTracking now h
  exact ⟨row, completedAt, get?_seedMissing hrow, hrest⟩

/-- After a run every item of a personal list is tracked. -/
theorem isSome_run {pair : Pair} (h : HasItem db (fun _ => true) pair) :
    ((run now db).1.tracking.get? pair).isSome := by
  refine @isSome_seedMissing now { db with tracking := completedTracking now db } pair h ?_ ?_
  · intro hrated
    obtain ⟨rating, hrating⟩ := Option.isSome_iff_exists.mp hrated
    have hmem : ⟨pair, rating.createdAt, rating.isActive⟩ ∈ ratingEvidence db.ratings :=
      mem_ratingEvidence.mpr ⟨pair, rating, hrating, rfl⟩
    exact (covered_completedTracking now hmem).isSome
  · intro hcompleted
    obtain ⟨evidence, hmem, rfl⟩ := exists_personalEvidence hcompleted
    refine (covered_foldl (personalEvidence { db with tracking := ratingTracking now db }) ?_
      evidence hmem).isSome
    exact List.pairwise_of_forall_mem_list fun _ _ evidence' hmem' =>
      .inr (mem_personalEvidence hmem').2

theorem extends_run : Extends (ActivelyRated db)
    (fun pair => (db.ratings.get? pair).isSome ∨ HasItem db (fun _ => true) pair)
    db.tracking (run now db).1.tracking := by
  have hratings : Extends (ActivelyRated db)
      (fun pair => (db.ratings.get? pair).isSome ∨ HasItem db (fun _ => true) pair)
      db.tracking (ratingTracking now db) := by
    refine @extends_foldl now { tracking := db.tracking } _ _ _ fun evidence hmem => ?_
    obtain ⟨pair, rating, hrating, rfl⟩ := mem_ratingEvidence.mp hmem
    exact ⟨.inl (by simp [hrating]), fun hactive => ⟨rating, hrating, hactive⟩⟩
  have hcompleted : Extends (ActivelyRated db)
      (fun pair => (db.ratings.get? pair).isSome ∨ HasItem db (fun _ => true) pair)
      (ratingTracking now db) (completedTracking now db) := by
    refine @extends_foldl now { tracking := ratingTracking now db } _ _ _ fun evidence hmem => ?_
    obtain ⟨⟨id, item, hitem, hpair, -⟩, hkeep⟩ := mem_personalEvidence hmem
    exact ⟨.inr ⟨id, item, hitem, hpair, rfl⟩, by simp [hkeep]⟩
  exact (hratings.trans hcompleted).trans
    (@extends_seedMissing now { db with tracking := completedTracking now db } _ _
      fun pair hitem => .inr hitem)

theorem migrated_run : Migrated db (run now db).1 where
  ratings pair rating hrating hactive := by
    obtain ⟨row, completedAt, hrow, hlast, hle, hstatus⟩ := covered_run now
      (mem_ratingEvidence.mpr ⟨pair, rating, hrating, rfl⟩)
    exact ⟨row, completedAt, hrow, hstatus hactive, hlast, hle⟩
  personalItems id item list hitem hlist hpersonal :=
    isSome_run now ⟨id, item, hitem, personalPair_eq_some.mpr ⟨list, hlist, hpersonal, rfl⟩, rfl⟩
  statuses _ _ hold := (extends_run now).kept hold
  created pair new hnone hnew := by
    rcases (extends_run now).added hnone hnew with hrated | ⟨id, item, hitem, hpair, -⟩
    · exact .inl hrated
    · obtain ⟨list, hlist, hpersonal, heq⟩ := personalPair_eq_some.mp hpair
      exact .inr ⟨id, item, list, hitem, hlist, hpersonal, heq⟩

/-- A run keeps the pairs of the personal list items. -/
lemma hasItem_of_run {pair : Pair} (h : HasItem (run now db).1 (fun _ => true) pair) :
    HasItem db (fun _ => true) pair := by
  obtain ⟨id, item, hitem, hpair, -⟩ := h
  rw [run_listItems, clearPersonalContext, Table.get?_updateWhere] at hitem
  obtain ⟨old, hold, hnew⟩ := Option.map_eq_some_iff.mp hitem
  refine ⟨id, old, hold, ?_, rfl⟩
  rw [← hpair, ← hnew]
  split_ifs <;> rfl

/-- A run leaves no context to the items of personal lists. -/
lemma not_hasPersonalContext_run (id : ListItemId) (item : ListItem)
    (h : (run now db).1.listItems.get? id = some item) :
    hasPersonalContext (run now db).1 item = false :=
  @hasPersonalContext_clear db id item h

lemma personalEvidence_run : personalEvidence (run now db).1 = [] := by
  apply List.eq_nil_iff_forall_not_mem.mpr
  intro evidence hmem
  obtain ⟨⟨id, item, hitem, hpair, hcompleted⟩, -⟩ := mem_personalEvidence hmem
  have hcontext := not_hasPersonalContext_run now id item hitem
  rw [isCompleted, decide_eq_true_eq] at hcompleted
  simp [hasPersonalContext, hpair, hcompleted] at hcontext

/-- A second run changes no row and has nothing to report. -/
theorem run_again (later : Time) : run later (run now db).1 = ((run now db).1, {}) := by
  have hprofiles : backfillProfiles later (run now db).1 = ((run now db).1, 0) :=
    backfillProfiles_again fun user huser => isSome_backfillProfiles huser
  have hparents : backfillSeasonParents (run now db).1 = ((run now db).1, 0) :=
    backfillSeasonParents_again fun pk detail hdetail hparent =>
      @linked_backfillSeasonParents db pk detail hdetail hparent
  have hratings : seedFromRatings later (run now db).1 = { tracking := (run now db).1.tracking } :=
    foldl_ensure_eq _ fun evidence hmem => covered_run now hmem
  have hcompleted : seedFromPersonalLists later (run now db).1
      = { tracking := (run now db).1.tracking } := by
    rw [seedFromPersonalLists, personalEvidence_run]
    rfl
  have hbacklog : seedMissingPersonalListBacklog later (run now db).1
      = ((run now db).1.tracking, 0) :=
    seedMissing_eq fun pair hitem => isSome_run now (hasItem_of_run now hitem)
  have hclear : clearPersonalContext (run now db).1 = ((run now db).1, 0) :=
    clearPersonalContext_again (not_hasPersonalContext_run now)
  generalize (run now db).1 = db' at hprofiles hparents hratings hcompleted hbacklog hclear ⊢
  simp only [run, hprofiles, hparents, hratings, hcompleted, hbacklog, hclear]

/-- One run completes the migration, and a second one finds nothing to do. -/
theorem backfill_is_one_shot (db : Database) (now later : Time) :
    Migrated db (run now db).1 ∧ run later (run now db).1 = ((run now db).1, {}) :=
  ⟨migrated_run now, run_again now later⟩

end

end Denn.Backfill
