import Mathlib.Data.List.Basic

/-!
# Chunks of a list

`List.toChunks n` cuts a list into pieces of at most `n` elements: none is empty, and together they
are the list.
-/

namespace Denn.Core

variable {α : Type*} {n : ℕ} {xs : List α}

/-- The pieces of a list. -/
structure IsChunking (n : ℕ) (xs : List α) (chunks : List (List α)) : Prop where
  flatten_eq : chunks.flatten = xs
  ne_nil : ∀ chunk ∈ chunks, chunk ≠ []
  length_le : ∀ chunk ∈ chunks, chunk.length ≤ n

lemma IsChunking.push {chunks : List (List α)} {chunk : List α} (h : IsChunking n xs chunks)
    (hne : chunk ≠ []) (hle : chunk.length ≤ n) : IsChunking n (xs ++ chunk) (chunks ++ [chunk]) where
  flatten_eq := by rw [List.flatten_append, h.flatten_eq, List.flatten_singleton]
  ne_nil := by
    intro other hother
    rcases List.mem_append.mp hother with hother | hother
    · exact h.ne_nil other hother
    · exact List.mem_singleton.mp hother ▸ hne
  length_le := by
    intro other hother
    rcases List.mem_append.mp hother with hother | hother
    · exact h.length_le other hother
    · exact List.mem_singleton.mp hother ▸ hle

/-- The loop has cut off the chunks in `done`, and is filling `chunk`. -/
lemma isChunking_go (hn : 0 < n) (rest done : List α) (chunk : Array α) (chunks : Array (List α))
    (hne : chunk.toList ≠ []) (hle : chunk.size ≤ n) (h : IsChunking n done chunks.toList) :
    IsChunking n (done ++ chunk.toList ++ rest) (List.toChunks.go n rest chunk chunks) := by
  induction rest generalizing done chunk chunks with
  | nil =>
    rw [List.append_nil, List.toChunks.go, Array.toList_push]
    exact h.push hne hle
  | cons x rest ih =>
    rw [List.toChunks.go]
    split_ifs with hfull
    · have hcut := ih (done ++ chunk.toList) #[x] (chunks.push chunk.toList) (by simp) hn
        (by rw [Array.toList_push]; exact h.push hne hle)
      simpa using hcut
    · have hlt : chunk.size < n := Nat.lt_of_le_of_ne hle fun heq => hfull (beq_iff_eq.mpr heq)
      have hfill := ih done (chunk.push x) chunks (by simp) (by rw [Array.size_push]; exact hlt) h
      simpa using hfill

lemma isChunking_toChunks (hn : 0 < n) (xs : List α) : IsChunking n xs (xs.toChunks n) := by
  cases xs with
  | nil => exact ⟨by cases n <;> rfl, by cases n <;> exact nofun, by cases n <;> exact nofun⟩
  | cons x xs =>
    obtain ⟨n, rfl⟩ := Nat.exists_eq_succ_of_ne_zero (Nat.ne_of_gt hn)
    exact isChunking_go hn xs [] #[x] #[] (by simp) hn ⟨rfl, nofun, nofun⟩

lemma subset_of_mem_toChunks (hn : 0 < n) {chunk : List α} (h : chunk ∈ xs.toChunks n) :
    chunk ⊆ xs := by
  intro x hx
  rw [← (isChunking_toChunks hn xs).flatten_eq]
  exact List.mem_flatten.mpr ⟨chunk, h, hx⟩

lemma exists_mem_toChunks (hn : 0 < n) {x : α} (hx : x ∈ xs) : ∃ chunk ∈ xs.toChunks n, x ∈ chunk := by
  rw [← (isChunking_toChunks hn xs).flatten_eq] at hx
  exact List.mem_flatten.mp hx

end Denn.Core
