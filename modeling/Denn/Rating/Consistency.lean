import Denn.Rating.Cache

/-!
# When the cached statistics are right

An `UPDATE` that waits for another one writes statistics that it computed before the other one
committed, so it can overwrite them with a count in which the other rating is missing. Where every
`UPDATE` of an item row starts after the previous one has ended, the cache is right in every state:
each pending statistics are those of the ratings as they will be after the commit.
-/

namespace Denn

open Core

variable {s s' : RatingStore} {user : UserId} {item : ItemId} {txn : RatingTransaction}

/-! ### What a step does -/

lemma RatingStore.step_write {write : RatingWrite} (h : s.step (.write user item write) = some s') :
    s.transactions.get? user = none ∧
    ∃ row, s' = { s with transactions := s.transactions.set user ⟨item, row, .wrote⟩ } := by
  simp only [RatingStore.step] at h
  split_ifs at h with hguard
  obtain ⟨row, -, rfl⟩ := Option.map_eq_some_iff.mp h
  exact ⟨by simpa using hguard.1, row, rfl⟩

lemma RatingStore.step_startUpdate (h : s.step (.startUpdate user) = some s') :
    ∃ txn, s.transactions.get? user = some txn ∧ txn.pending = none ∧
      s' = { s with
        transactions := s.transactions.set user
          { txn with phase := .waiting (ratingStatistics txn.item (txn.view user s.ratings)) } } := by
  simp only [RatingStore.step] at h
  cases hget : s.transactions.get? user with
  | none => simp [hget] at h
  | some txn =>
    cases hphase : txn.phase <;> simp only [hget, hphase, reduceCtorEq, Option.some.injEq] at h
    exact ⟨txn, rfl, by rw [RatingTransaction.pending, hphase], h.symm⟩

lemma RatingStore.step_lockItem (h : s.step (.lockItem user) = some s') :
    ∃ txn cache, s.transactions.get? user = some txn ∧ txn.pending = some cache ∧
      s' = { s with transactions := s.transactions.set user { txn with phase := .updated cache } } := by
  simp only [RatingStore.step] at h
  cases hget : s.transactions.get? user with
  | none => simp [hget] at h
  | some txn =>
    cases hphase : txn.phase with
    | wrote => simp [hget, hphase] at h
    | updated cache => simp [hget, hphase] at h
    | waiting cache =>
      simp only [hget, hphase] at h
      split_ifs at h
      exact ⟨txn, cache, rfl, by rw [RatingTransaction.pending, hphase], (Option.some.inj h).symm⟩

lemma RatingStore.step_commit (h : s.step (.commit user) = some s') :
    ∃ txn cache, s.transactions.get? user = some txn ∧ txn.pending = some cache ∧
      s' =
        { ratings := txn.view user s.ratings
          items := s.items.set txn.item cache
          transactions := s.transactions.delete user } := by
  simp only [RatingStore.step] at h
  cases hget : s.transactions.get? user with
  | none => simp [hget] at h
  | some txn =>
    cases hphase : txn.phase <;> simp only [hget, hphase, reduceCtorEq, Option.some.injEq] at h
    exact ⟨txn, _, rfl, by rw [RatingTransaction.pending, hphase], h.symm⟩

lemma RatingStore.step_rollback (h : s.step (.rollback user) = some s') :
    s' = { s with transactions := s.transactions.delete user } := by
  obtain ⟨txn, -, rfl⟩ := Option.map_eq_some_iff.mp h
  rfl

/-! ### The invariant -/

/-- No other transaction has an `UPDATE` of the same item row under way when one starts. -/
def RatingStore.updatesAlone (s : RatingStore) : RatingEvent → Bool
  | .startUpdate user =>
    match s.transactions.get? user with
    | some txn =>
      !s.transactions.any fun _ other => other.item = txn.item && other.pending.isSome
    | none => true
  | _ => true

/-- What holds in every state while updates of one item row do not overlap. -/
structure CacheInvariant (s : RatingStore) : Prop where
  cache : s.CacheCorrect
  pending : ∀ user txn cache, s.transactions.get? user = some txn → txn.pending = some cache →
    cache = ratingStatistics txn.item (txn.view user s.ratings)
  alone : ∀ user user' txn txn', s.transactions.get? user = some txn →
    s.transactions.get? user' = some txn' → txn.pending.isSome → txn'.pending.isSome →
    txn.item = txn'.item → user = user'

/-- The row of another item is seen as it is committed. -/
lemma RatingTransaction.get?_view_ne (txn : RatingTransaction) (user : UserId) (ratings : Ratings)
    {j : ItemId} (hj : j ≠ txn.item) (rater : UserId) :
    (txn.view user ratings).get? (rater, j) = ratings.get? (rater, j) := by
  have hkey : (rater, j) ≠ (user, txn.item) := fun h => hj (congrArg Prod.snd h)
  unfold RatingTransaction.view
  cases txn.row with
  | none => exact Table.get?_delete_ne _ hkey
  | some rating => exact Table.get?_set_ne _ _ hkey

/-- A transaction's view of its item follows the committed ratings of that item. -/
lemma RatingTransaction.ratingStatistics_view_congr (txn : RatingTransaction) (user : UserId)
    {ratings ratings' : Ratings}
    (h : ∀ rater, ratings.get? (rater, txn.item) = ratings'.get? (rater, txn.item)) :
    ratingStatistics txn.item (txn.view user ratings)
      = ratingStatistics txn.item (txn.view user ratings') := by
  apply ratingStatistics_congr
  intro rater
  unfold RatingTransaction.view
  cases txn.row with
  | none =>
    rw [Table.get?_delete, Table.get?_delete, h]
  | some rating =>
    rw [Table.get?_set, Table.get?_set, h]

/-- Replacing the transaction of one user keeps the invariant if its statistics are those of its
    view and no other `UPDATE` of the item is under way with it. -/
lemma CacheInvariant.set_transaction (h : CacheInvariant s)
    (hpending : ∀ cache, txn.pending = some cache →
      cache = ratingStatistics txn.item (txn.view user s.ratings))
    (halone : txn.pending.isSome → ∀ other txn', other ≠ user →
      s.transactions.get? other = some txn' → txn'.pending.isSome → txn'.item ≠ txn.item) :
    CacheInvariant { s with transactions := s.transactions.set user txn } where
  cache := h.cache
  pending other txn' cache hget hcache := by
    rcases Table.get?_set_cases hget with ⟨rfl, rfl⟩ | hget
    · exact hpending cache hcache
    · exact h.pending other txn' cache hget hcache
  alone other other' txn₁ txn₂ hget hget' hsome hsome' hitem := by
    simp only [Table.get?_set] at hget hget'
    split_ifs at hget hget' with hother hother'
    · rw [hother, hother']
    · cases hget
      exact absurd hitem.symm (halone hsome other' txn₂ hother' hget' hsome')
    · cases hget'
      exact absurd hitem (halone hsome' other txn₁ hother hget hsome)
    · exact h.alone other other' txn₁ txn₂ hget hget' hsome hsome' hitem

lemma CacheInvariant.write (h : CacheInvariant s) {write : RatingWrite}
    (hstep : s.step (.write user item write) = some s') : CacheInvariant s' := by
  obtain ⟨-, row, rfl⟩ := RatingStore.step_write hstep
  exact h.set_transaction (fun cache hcache => by cases hcache) (fun hsome => by cases hsome)

lemma CacheInvariant.startUpdate (h : CacheInvariant s)
    (hok : s.updatesAlone (.startUpdate user) = true)
    (hstep : s.step (.startUpdate user) = some s') : CacheInvariant s' := by
  obtain ⟨txn, hget, -, rfl⟩ := RatingStore.step_startUpdate hstep
  refine h.set_transaction (fun cache hcache => ?_)
    (fun _ other txn' _ hget' hsome' hitem => ?_)
  · cases hcache
    rfl
  · simp only [RatingStore.updatesAlone, hget, Bool.not_eq_true'] at hok
    have hany : (s.transactions.any fun _ other => other.item = txn.item && other.pending.isSome)
        = true :=
      (Table.any_eq_true_iff _ _).mpr ⟨other, txn', hget', by simpa [hsome'] using hitem⟩
    rw [hok] at hany
    cases hany

lemma CacheInvariant.lockItem (h : CacheInvariant s)
    (hstep : s.step (.lockItem user) = some s') : CacheInvariant s' := by
  obtain ⟨txn, cache, hget, hcache, rfl⟩ := RatingStore.step_lockItem hstep
  refine h.set_transaction (fun cache' hcache' => ?_)
    (fun _ other txn' hother hget' hsome' hitem => ?_)
  · cases hcache'
    exact h.pending user txn cache hget hcache
  · exact hother (h.alone other user txn' txn hget' hget hsome' (by simp [hcache]) hitem)

lemma CacheInvariant.commit (h : CacheInvariant s)
    (hstep : s.step (.commit user) = some s') : CacheInvariant s' := by
  obtain ⟨txn, cache, hget, hcache, rfl⟩ := RatingStore.step_commit hstep
  constructor
  · intro item c hitem
    simp only [Table.get?_set] at hitem
    split_ifs at hitem with hsame
    · cases hitem
      rw [hsame]
      exact h.pending user txn cache hget hcache
    · rw [h.cache item c hitem]
      exact ratingStatistics_congr fun rater => (txn.get?_view_ne user s.ratings hsame rater).symm
  · intro other txn' c hget' hc
    obtain ⟨hother, hget'⟩ := Table.get?_of_delete hget'
    have hitem : txn'.item ≠ txn.item := fun hitem =>
      hother (h.alone other user txn' txn hget' hget (by simp [hc]) (by simp [hcache]) hitem)
    rw [h.pending other txn' c hget' hc]
    exact txn'.ratingStatistics_view_congr other
      fun rater => (txn.get?_view_ne user s.ratings hitem rater).symm
  · intro other other' txn₁ txn₂ hget₁ hget₂
    exact h.alone other other' txn₁ txn₂ (Table.get?_of_delete hget₁).2
      (Table.get?_of_delete hget₂).2

lemma CacheInvariant.rollback (h : CacheInvariant s)
    (hstep : s.step (.rollback user) = some s') : CacheInvariant s' := by
  rw [RatingStore.step_rollback hstep]
  constructor
  · exact h.cache
  · intro other txn' c hget hc
    exact h.pending other txn' c (Table.get?_of_delete hget).2 hc
  · intro other other' txn₁ txn₂ hget₁ hget₂
    exact h.alone other other' txn₁ txn₂ (Table.get?_of_delete hget₁).2
      (Table.get?_of_delete hget₂).2

lemma CacheInvariant.step (h : CacheInvariant s) {a : RatingEvent}
    (hok : s.updatesAlone a = true) (hstep : s.step a = some s') : CacheInvariant s' := by
  cases a with
  | write user item write => exact h.write hstep
  | startUpdate user => exact h.startUpdate hok hstep
  | lockItem user => exact h.lockItem hstep
  | commit user => exact h.commit hstep
  | rollback user => exact h.rollback hstep

lemma CacheInvariant.initial (h : s.isInitial) : CacheInvariant s where
  cache item cache hitem := by
    have hscores : activeScores item s.ratings = [] := by
      have hrows : s.ratings.rows = [] := by
        rw [List.eq_nil_iff_forall_not_mem]
        rintro ⟨key, rating⟩ hmem
        rw [Table.mem_rows_iff, h.1 key] at hmem
        cases hmem
      simp [activeScores, hrows]
    rw [h.2.1 item cache hitem, ratingStatistics]
    simp [hscores]
  pending user txn cache hget := by simp [h.2.2 user] at hget
  alone user user' txn txn' hget := by simp [h.2.2 user] at hget

/-- While no `UPDATE` of an item row starts during another one, the cached statistics are those of
    the committed ratings in every state. -/
theorem cacheCorrect_of_updatesAlone {s : RatingStore}
    (h : ratingSystem.ReachableUnder (fun s a => s.updatesAlone a = true) s) : s.CacheCorrect :=
  (h.invariant (fun _ => CacheInvariant.initial)
    (fun _ _ _ hI hok hstep => CacheInvariant.step hI hok hstep)).cache

/-! ### Two raters of one item -/

/-- One item without ratings. -/
def unratedStore : RatingStore where
  ratings := .empty
  items := Table.empty.set 0 {}
  transactions := .empty

lemma unratedStore_isInitial : unratedStore.isInitial := by
  refine ⟨fun key => Table.get?_empty key, fun item cache h => ?_, fun user => Table.get?_empty user⟩
  simp only [unratedStore, Table.get?_set, Table.get?_empty] at h
  split_ifs at h
  cases h
  rfl

/-- The item is rated by two users, no transaction is open, and the cached count is the given
    one. -/
def RatingStore.twoRatingsCounted (count : ℕ) (s : RatingStore) : Bool :=
  (activeScores 0 s.ratings).length = 2 && s.transactions.rows.isEmpty
    && (s.items.get? 0).any fun cache => cache.ratingCount = count

theorem cacheCorrect_of_updatesAlone_inTurn :
    ∃ s : RatingStore, s.twoRatingsCounted 2 = true ∧ s.CacheCorrect := by
  obtain ⟨s, hs, hcounted⟩ := ratingSystem.exists_reachableUnder_of_replay
    (fun s a => s.updatesAlone a = true) (RatingStore.twoRatingsCounted 2)
    [ .write 1 0 (.save 8 none false), .startUpdate 1, .lockItem 1, .commit 1,
      .write 2 0 (.save 6 none false), .startUpdate 2, .lockItem 2, .commit 2 ]
    (.initial unratedStore_isInitial) (by decide)
  exact ⟨s, hcounted, cacheCorrect_of_updatesAlone hs⟩

/-- Both updates start before one of them commits: the second one overwrites the statistics with a
    count in which the first rating is missing. -/
theorem cache_loses_overlapping_update :
    ¬ ∀ s, ratingSystem.Reachable s → (∀ user, s.transactions.get? user = none) →
      s.CacheCorrect := by
  intro hclaim
  obtain ⟨s, hs, hcounted⟩ := ratingSystem.exists_reachableUnder_of_replay
    (fun _ _ => True) (RatingStore.twoRatingsCounted 1)
    [ .write 1 0 (.save 8 none false), .write 2 0 (.save 6 none false),
      .startUpdate 1, .startUpdate 2, .lockItem 1, .commit 1, .lockItem 2, .commit 2 ]
    (.initial unratedStore_isInitial) (by decide)
  simp only [RatingStore.twoRatingsCounted, Bool.and_eq_true, decide_eq_true_eq,
    List.isEmpty_iff] at hcounted
  obtain ⟨⟨hscores, hclosed⟩, hcache⟩ := hcounted
  have hnone : ∀ user, s.transactions.get? user = none := by
    intro user
    rw [Option.eq_none_iff_forall_ne_some]
    intro txn hget
    rw [← Table.mem_rows_iff, hclosed] at hget
    cases hget
  cases hget : s.items.get? 0 with
  | none => simp [hget] at hcache
  | some cache =>
    have hcount : cache.ratingCount = (activeScores 0 s.ratings).length := by
      rw [hclaim s hs hnone 0 cache hget]
      rfl
    simp only [hget, Option.any_some, decide_eq_true_eq] at hcache
    omega

end Denn
