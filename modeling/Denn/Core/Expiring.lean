import Denn.Core.Table

/-!
# Caches whose entries expire

A key-value store with a lifetime for each entry, as `SET key value EX ttl` and `GET key` see it.
-/

namespace Denn.Core

variable {κ ρ : Type*}

/-- A value with the time from which it is gone. -/
structure Expiring (ρ : Type*) where
  value : ρ
  expiresAt : ℕ

/-- A cache under the key `κ`. -/
structure ExpiringCache (κ ρ : Type*) where
  entries : Table κ (Expiring ρ)

namespace ExpiringCache

def empty : ExpiringCache κ ρ := ⟨.empty⟩

variable [DecidableEq κ]

/-- The value of an entry that is not yet gone. -/
def get (cache : ExpiringCache κ ρ) (now : ℕ) (key : κ) : Option ρ :=
  ((cache.entries.get? key).filter (now < ·.expiresAt)).map (·.value)

def set (cache : ExpiringCache κ ρ) (now : ℕ) (key : κ) (value : ρ) (ttl : ℕ) :
    ExpiringCache κ ρ :=
  ⟨cache.entries.set key ⟨value, now + ttl⟩⟩

variable {cache : ExpiringCache κ ρ} {now : ℕ} {key : κ} {value : ρ}

lemma get_eq_some : cache.get now key = some value ↔
    ∃ entry, cache.entries.get? key = some entry ∧ now < entry.expiresAt ∧ entry.value = value := by
  simp [get, Option.filter_eq_some_iff, and_assoc]

lemma get_set_ne {other : κ} (h : other ≠ key) (ttl : ℕ) :
    (cache.set now key value ttl).get now other = cache.get now other := by
  rw [get, set, Table.get?_set_ne _ _ h, get]

/-- An entry found after a write is the new one, or it was there before. -/
lemma entries_set_cases {other : κ} {ttl : ℕ} {entry : Expiring ρ}
    (h : (cache.set now key value ttl).entries.get? other = some entry) :
    other = key ∧ entry = ⟨value, now + ttl⟩ ∨
      other ≠ key ∧ cache.entries.get? other = some entry := by
  by_cases hkey : other = key
  · subst hkey
    rw [set, Table.get?_set_self, Option.some.injEq] at h
    exact .inl ⟨rfl, h.symm⟩
  · rw [set, Table.get?_set_ne _ _ hkey] at h
    exact .inr ⟨hkey, h⟩

end ExpiringCache

end Denn.Core
