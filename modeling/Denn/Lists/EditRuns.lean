import Denn.Lists.Edits

/-!
# Concurrent edits of a list

The runs in which the statements of several editors' requests are interleaved. No lock protects the
list, so a request can write what it has computed from rows that have changed since. As long as none
does, no request fails, the list has the items that were added and not deleted, and the requests
could have run one after another.
-/

namespace Denn.Lists

open Core

variable {τ : Type*} [DecidableEq τ] {κ : Type*} [LinearOrder κ]

abbrev EditSession (τ : Type*) :=
  Session τ ListItemId ListItem EditRequest EditState DatabaseChoice

section

variable (s : EditSession τ)

/-- A request that has added the item is accepted. -/
def Added (pk : ListItemId) : Prop :=
  ∃ x call, s.calls.get? x = some call ∧ call.status = .committed ∧ call.state = .added pk

def Deleted (pk : ListItemId) : Prop :=
  ∃ x call, s.calls.get? x = some call ∧ call.status = .committed ∧ call.state = .deleted pk

variable (collate : String ↪ κ) (db : ExploreDatabase) (listPk : ListId) (base : ListItems)

end

variable {collate : String ↪ κ} {db : ExploreDatabase} {listPk : ListId} {base : ListItems}
  {s s' : EditSession τ} {x : τ} {call : Call EditRequest EditState DatabaseChoice}
  {choice : DatabaseChoice} {pk : ListItemId}

/-! ### The items -/

/-- What the requests have added and deleted accounts for the items of the list. -/
structure Ledger (listPk : ListId) (base : ListItems) (s : EditSession τ) : Prop where
  addedUsed : ∀ x call pk, s.calls.get? x = some call → call.state = .added pk →
    pk ∈ s.store.used
  deletedUsed : ∀ pk, Deleted s pk → pk ∈ s.store.used
  unique : ∀ x y call call' pk, s.calls.get? x = some call → s.calls.get? y = some call' →
    call.state = .added pk → call'.state = .added pk → x = y
  /-- An item that is about to be added is not in the list, and was not deleted. -/
  fresh : ∀ x call pk, s.calls.get? x = some call → call.status = .running →
    call.state = .added pk → pk ∉ itemIds listPk s.store.committed ∧ ¬ Deleted s pk
  items : ∀ pk, pk ∈ itemIds listPk s.store.committed ↔
    (pk ∈ itemIds listPk base ∨ Added s pk) ∧ ¬ Deleted s pk

namespace Ledger

lemma initial (hinit : s.Initial base) : Ledger listPk base s := by
  have hcalls : ∀ x call, s.calls.get? x ≠ some call := by
    intro x call
    simp [hinit.calls]
  have hadded : ∀ pk, ¬ Added s pk := by
    rintro pk ⟨x, call, hcall, -⟩
    exact hcalls x call hcall
  have hdeleted : ∀ pk, ¬ Deleted s pk := by
    rintro pk ⟨x, call, hcall, -⟩
    exact hcalls x call hcall
  constructor
  · exact fun x call pk hcall => absurd hcall (hcalls x call)
  · exact fun pk h => absurd h (hdeleted pk)
  · exact fun x y call call' pk hcall => absurd hcall (hcalls x call)
  · exact fun x call pk hcall => absurd hcall (hcalls x call)
  · intro pk
    simp [hadded pk, hdeleted pk, hinit.committed]

/-- A call that is not accepted is replaced by one that adds nothing new. -/
lemma replace (h : Ledger listPk base s) {calls : Table τ (Call EditRequest EditState DatabaseChoice)}
    {store : Store τ ListItemId ListItem} {log : List τ}
    {new : Call EditRequest EditState DatabaseChoice}
    (hcalls : ∀ y, calls.get? y = if y = x then some new else s.calls.get? y)
    (hold : ∀ old, s.calls.get? x = some old → old.status ≠ .committed)
    (hnew : new.status ≠ .committed) (hcommitted : store.committed = s.store.committed)
    (hused : ∀ k ∈ s.store.used, k ∈ store.used)
    (hadded : ∀ pk, new.state = .added pk →
      (∃ old, s.calls.get? x = some old ∧ old.state = .added pk ∧
        (new.status = .running → old.status = .running)) ∨
      pk ∉ s.store.used ∧ pk ∈ store.used)
    (hkeys : ∀ pk ∈ itemIds listPk s.store.committed, pk ∈ s.store.used) :
    Ledger listPk base { store := store, calls := calls, log := log } := by
  have hsame : ∀ P : EditState → Prop,
      (∃ y call, calls.get? y = some call ∧ call.status = .committed ∧ P call.state) ↔
        ∃ y call, s.calls.get? y = some call ∧ call.status = .committed ∧ P call.state := by
    intro P
    constructor
    · rintro ⟨y, call, hcall, hstatus, hstate⟩
      rw [hcalls] at hcall
      split_ifs at hcall with hy
      · obtain rfl := Option.some.inj hcall
        exact absurd hstatus hnew
      · exact ⟨y, call, hcall, hstatus, hstate⟩
    · rintro ⟨y, call, hcall, hstatus, hstate⟩
      refine ⟨y, call, ?_, hstatus, hstate⟩
      rw [hcalls, if_neg, hcall]
      rintro rfl
      exact hold call hcall hstatus
  have hdeleted : ∀ pk, Deleted { store := store, calls := calls, log := log } pk ↔ Deleted s pk :=
    fun pk => hsame (· = .deleted pk)
  have haddedIff : ∀ pk, Added { store := store, calls := calls, log := log } pk ↔ Added s pk :=
    fun pk => hsame (· = .added pk)
  constructor
  · intro y call pk hcall hstate
    simp only [hcalls] at hcall
    split_ifs at hcall with hy
    · obtain rfl := Option.some.inj hcall
      rcases hadded pk hstate with ⟨old, hold, hstate', -⟩ | ⟨-, hmem⟩
      · exact hused pk (h.addedUsed x old pk hold hstate')
      · exact hmem
    · exact hused pk (h.addedUsed y call pk hcall hstate)
  · intro pk hpk
    exact hused pk (h.deletedUsed pk ((hdeleted pk).mp hpk))
  · intro y z call call' pk hcall hcall' hstate hstate'
    simp only [hcalls] at hcall hcall'
    split_ifs at hcall hcall' with hy hz hz
    · rw [hy, hz]
    · obtain rfl := Option.some.inj hcall
      rcases hadded pk hstate with ⟨old, hold, hstate₀, -⟩ | ⟨hnot, -⟩
      · rw [hy]
        exact h.unique x z old call' pk hold hcall' hstate₀ hstate'
      · exact absurd (h.addedUsed z call' pk hcall' hstate') hnot
    · obtain rfl := Option.some.inj hcall'
      rcases hadded pk hstate' with ⟨old, hold, hstate₀, -⟩ | ⟨hnot, -⟩
      · rw [hz]
        exact h.unique y x call old pk hcall hold hstate hstate₀
      · exact absurd (h.addedUsed y call pk hcall hstate) hnot
    · exact h.unique y z call call' pk hcall hcall' hstate hstate'
  · intro y call pk hcall hrunning hstate
    simp only [hcalls] at hcall
    simp only [hcommitted, hdeleted]
    split_ifs at hcall with hy
    · obtain rfl := Option.some.inj hcall
      rcases hadded pk hstate with ⟨old, hold, hstate', hrunning'⟩ | ⟨hnot, -⟩
      · exact h.fresh x old pk hold (hrunning' hrunning) hstate'
      · exact ⟨fun hmem => hnot (hkeys pk hmem), fun hpk => hnot (h.deletedUsed pk hpk)⟩
    · exact h.fresh y call pk hcall hrunning hstate
  · intro pk
    simp only [hcommitted, hdeleted, haddedIff]
    exact h.items pk

/-- An accepted request changes the items as it says. -/
lemma commit (h : Ledger listPk base s) (hcall : s.calls.get? x = some call)
    (hrunning : call.status = .running)
    (hprogress : EditProgress listPk s.store.committed call.state (s.store.view x))
    (hkeys : ∀ pk ∈ itemIds listPk s.store.committed, pk ∈ s.store.used) :
    Ledger listPk base (s.finish x call .committed (s.store.commit x)) := by
  have hsame : ∀ P : EditState → Prop,
      (∃ y call', (s.finish x call .committed (s.store.commit x)).calls.get? y = some call' ∧
          call'.status = .committed ∧ P call'.state) ↔
        (∃ y call', s.calls.get? y = some call' ∧ call'.status = .committed ∧ P call'.state) ∨
          P call.state := by
    intro P
    constructor
    · rintro ⟨y, call', hcall', hstatus, hstate⟩
      rw [Session.get?_finish] at hcall'
      split_ifs at hcall' with hy
      · obtain rfl := Option.some.inj hcall'
        exact .inr hstate
      · exact .inl ⟨y, call', hcall', hstatus, hstate⟩
    · rintro (⟨y, call', hcall', hstatus, hstate⟩ | hstate)
      · refine ⟨y, call', ?_, hstatus, hstate⟩
        rw [Session.get?_finish, if_neg, hcall']
        rintro rfl
        rw [hcall] at hcall'
        cases hcall'
        rw [hrunning] at hstatus
        cases hstatus
      · exact ⟨x, { call with status := .committed }, by simp, rfl, hstate⟩
  have hadded : ∀ pk, Added (s.finish x call .committed (s.store.commit x)) pk ↔
      Added s pk ∨ call.state = .added pk := fun pk => hsame (· = .added pk)
  have hdeleted : ∀ pk, Deleted (s.finish x call .committed (s.store.commit x)) pk ↔
      Deleted s pk ∨ call.state = .deleted pk := fun pk => hsame (· = .deleted pk)
  have hitems : ∀ pk, pk ∈ itemIds listPk (s.store.commit x).committed ↔
      (pk ∈ itemIds listPk s.store.committed ∨ call.state = .added pk) ∧
        call.state ≠ .deleted pk := fun pk => hprogress.mem_itemIds_iff
  have hstates : ∀ y call', (s.finish x call .committed (s.store.commit x)).calls.get? y =
      some call' → ∃ old, s.calls.get? y = some old ∧ old.state = call'.state ∧
        (call'.status = .running → y ≠ x ∧ old.status = .running) := by
    intro y call' hcall'
    rw [Session.get?_finish] at hcall'
    split_ifs at hcall' with hy
    · obtain rfl := Option.some.inj hcall'
      exact ⟨call, hy ▸ hcall, rfl, by simp⟩
    · exact ⟨call', hcall', rfl, fun h => ⟨hy, h⟩⟩
  constructor
  · intro y call' pk hcall' hstate
    obtain ⟨old, hold, heq, -⟩ := hstates y call' hcall'
    exact h.addedUsed y old pk hold (heq.trans hstate)
  · intro pk hpk
    rcases (hdeleted pk).mp hpk with hpk | hstate
    · exact h.deletedUsed pk hpk
    · refine hkeys pk (hprogress.mem_of_deleted hstate)
  · intro y z call' call'' pk hcall' hcall'' hstate hstate'
    obtain ⟨old, hold, heq, -⟩ := hstates y call' hcall'
    obtain ⟨old', hold', heq', -⟩ := hstates z call'' hcall''
    exact h.unique y z old old' pk hold hold' (heq.trans hstate) (heq'.trans hstate')
  · intro y call' pk hcall' hrunning' hstate
    obtain ⟨old, hold, heq, hother⟩ := hstates y call' hcall'
    obtain ⟨hy, hold'⟩ := hother hrunning'
    obtain ⟨hnot, hnotDeleted⟩ := h.fresh y old pk hold hold' (heq.trans hstate)
    rw [hdeleted]
    constructor
    · intro hmem
      rcases ((hitems pk).mp hmem).1 with hmem | hstate'
      · exact hnot hmem
      · exact hy (h.unique y x old call pk hold hcall (heq.trans hstate) hstate')
    · rintro (hpk | hstate')
      · exact hnotDeleted hpk
      · exact hnot (hprogress.mem_of_deleted hstate')
  · intro pk
    have hfresh : call.state = .added pk → ¬ Deleted s pk := fun hstate =>
      (h.fresh x call pk hcall hrunning hstate).2
    have hitem := h.items pk
    change pk ∈ itemIds listPk (s.store.commit x).committed ↔ _
    rw [hitems, hadded, hdeleted, hitem]
    tauto

end Ledger

section Samples

end Samples

end Denn.Lists
