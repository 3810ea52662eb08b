import Denn.Core.Heap
import Mathlib.Data.Set.Insert

/-!
# Dictionaries laid over a heap

New dictionaries that lead to chosen values of an older heap, each under the path at which the old heap
has it. Assigning another value to its path either reaches a new dictionary, or goes into an old value,
where the assignment finds what it assigns, unless it meets a list.
-/

namespace Denn.Core.Heap

open Denn.Core

variable {α : Type*} {h h' base : Heap α} {root data v w : Val α} {q r : List String} {key : String}

/-! ### Assignments to one key -/

lemma set_eq_self {addr : ℕ} {cell : Cell α} (hcell : h[addr]? = some cell) : h.set addr cell = h := by
  refine List.ext_getElem? fun i => ?_
  rw [List.getElem?_set]
  split_ifs with hi hlength
  · rw [← hi, hcell]
  · exact absurd (List.getElem?_eq_some_iff.mp hcell).1 hlength
  · rfl

/-- The heaps differ in what the key of a dictionary leads to. -/
def Assigned (h h' : Heap α) (addr : ℕ) (key : String) (w : Val α) : Prop :=
  (∀ part, h'.child? (.ref addr) part = if part = key then some w else h.child? (.ref addr) part) ∧
    ∀ v part, v ≠ .ref addr → h'.child? v part = h.child? v part

lemma Assigned.child?_of_ne {addr : ℕ} (h1 : Assigned h h' addr key w) {part : String}
    (hne : ¬ (v = .ref addr ∧ part = key)) : h'.child? v part = h.child? v part := by
  by_cases hv : v = .ref addr
  · subst hv
    rw [h1.1, if_neg fun hpart => hne ⟨rfl, hpart⟩]
  · exact h1.2 v part hv

lemma assigned_set {addr : ℕ} {entries : OrderedMap String (Val α)}
    (hcell : h[addr]? = some (.dict entries)) (key : String) (w : Val α) :
    Assigned h (h.set addr (.dict (entries.set key w))) addr key w := by
  have hlength : addr < h.length := (List.getElem?_eq_some_iff.mp hcell).1
  constructor
  · intro part
    have hnew : (h.set addr (.dict (entries.set key w)))[addr]? = some (.dict (entries.set key w)) :=
      List.getElem?_set_self hlength
    rw [child?_dict hnew, child?_dict hcell, OrderedMap.get?_set]
  · intro v part hv
    cases v with
    | atom a => rfl
    | ref b =>
      have hsame : (h.set addr (.dict (entries.set key w)))[b]? = h[b]? :=
        List.getElem?_set_ne fun heq => hv (congrArg Val.ref heq.symm)
      rw [child?, child?, cell?, cell?, hsame]

/-- A new dictionary has no entries, as the address had none. -/
lemma child?_append_empty (h : Heap α) (v : Val α) (part : String) :
    child? (h ++ [.dict .empty]) v part = child? h v part := by
  cases v with
  | atom a => rfl
  | ref b =>
    rcases lt_trichotomy b h.length with hlt | rfl | hgt
    · rw [child?, child?, cell?, cell?, List.getElem?_append_left hlt]
    · have hnew : (h ++ [Cell.dict .empty])[h.length]? = some (.dict .empty) := by simp
      rw [child?_dict hnew, child?, cell?, List.getElem?_eq_none le_rfl]
      rfl
    · have hold : h[b]? = none := List.getElem?_eq_none hgt.le
      have hnew : (h ++ [Cell.dict .empty])[b]? = none := 
        List.getElem?_eq_none (by rw [List.length_append]; exact hgt)
      rw [child?, child?, cell?, cell?, hold, hnew]

section Write

variable {addr : ℕ}

/-- Walks that do not go through the key are as before. -/
lemma walk_off_path
    (hassigned : Assigned h h' addr key w)
    (hunique : ∀ r, h.walk root r = some (.ref addr) → r = q) (hr : ¬ (q ++ [key]) <+: r) :
    h'.walk root r = h.walk root r := by
  induction r using List.reverseRecOn with
  | nil => rfl
  | append_singleton r part ih =>
    have hshort : ¬ (q ++ [key]) <+: r := fun hpre => hr (hpre.trans (List.prefix_append ..))
    rw [walk_concat, walk_concat, ih hshort]
    cases hwalk : h.walk root r with
    | none => rfl
    | some u =>
      refine hassigned.child?_of_ne ?_
      rintro ⟨rfl, rfl⟩
      exact hr (hunique r hwalk ▸ List.prefix_rfl)

/-- Walks through the key go on from the assigned value. -/
lemma walk_through
    (hassigned : Assigned h h' addr key w)
    (hunique : ∀ r, h.walk root r = some (.ref addr) → r = q)
    (hwalk : h.walk root q = some (.ref addr)) (rest : List String) :
    h'.walk root (q ++ key :: rest) = h'.walk w rest := by
  have hq : ¬ (q ++ [key]) <+: q := fun hpre => by
    have hlength := hpre.length_le
    rw [List.length_append, List.length_singleton] at hlength
    omega
  rw [walk_append, walk_off_path hassigned hunique hq, hwalk, Option.bind_some, walk_cons,
    hassigned.1, if_pos rfl, Option.bind_some]

end Write

/-! ### Assignments into old values -/

/-- No list on the way to the last key of a path. -/
def Direct (h : Heap α) (v : Val α) (path : List String) : Prop :=
  ∀ r u, r <+: path → r ≠ path → h.walk v r = some u → ¬ h.IsList u

lemma direct_cons {key : String} {rest : List String} :
    h.Direct v (key :: rest) ↔
      ¬ h.IsList v ∧ ∀ u, h.child? v key = some u → h.Direct u rest := by
  constructor
  · intro hdirect
    refine ⟨hdirect [] v (List.nil_prefix) (List.cons_ne_nil _ _).symm rfl, fun u hu r u' hr hne hwalk => ?_⟩
    refine hdirect (key :: r) u' ((List.prefix_cons_inj key).mpr hr) (by simpa using hne) ?_
    rw [walk_cons, hu]
    exact hwalk
  · rintro ⟨hlist, hrest⟩ r u hr hne hwalk
    rcases List.prefix_cons_iff.mp hr with rfl | ⟨r', rfl, hr'⟩
    · obtain rfl := Option.some.inj hwalk
      exact hlist
    · rw [walk_cons] at hwalk
      obtain ⟨child, hchild, hwalk⟩ := Option.bind_eq_some_iff.mp hwalk
      exact hrest child hchild r' u hr' (by simpa using hne) hwalk

/-- What has a child is a dictionary or a list. -/
lemma dict_or_isList (hchild : h.child? v key = some w) :
    (∃ addr entries, h.dict? v = some (addr, entries) ∧ entries.get? key = some w ∧ ¬ h.IsList v) ∨
      h.dict? v = none ∧ h.IsList v := by
  cases v with
  | atom a => cases hchild
  | ref addr =>
    rw [child?, cell?] at hchild
    cases hcell : h[addr]? with
    | none => rw [hcell] at hchild; cases hchild
    | some cell =>
      rw [hcell] at hchild
      cases cell with
      | dict entries =>
        refine .inl ⟨addr, entries, dict?_eq_some.mpr ⟨rfl, hcell⟩, hchild, ?_⟩
        rintro ⟨items, hitems⟩
        rw [cell?, hcell] at hitems
        cases hitems
      | list items => exact .inr ⟨by rw [dict?, hcell], items, hcell⟩

/-- An assignment of what is there already changes nothing, or fails at a list. -/
lemma place_found {path : List String} (hpath : path ≠ []) (hwalk : h.walk v path = some w) :
    (h.Direct v path → place path h v w = .ok h) ∧
      (¬ h.Direct v path → place path h v w = .error .typeError) := by
  induction path generalizing v with
  | nil => exact absurd rfl hpath
  | cons key rest ih =>
    rw [walk_cons] at hwalk
    obtain ⟨child, hchild, hwalk⟩ := Option.bind_eq_some_iff.mp hwalk
    have hdirect : h.Direct v (key :: rest) ↔ ¬ h.IsList v ∧ h.Direct child rest := by
      rw [direct_cons, hchild]
      simp
    rw [hdirect, place]
    rcases dict_or_isList hchild with ⟨addr, entries, hdict, hentry, hlist⟩ | ⟨hdict, hlist⟩
    · by_cases hrest : rest = []
      · subst hrest
        obtain rfl := Option.some.inj hwalk
        obtain ⟨rfl, hcell⟩ := dict?_eq_some.mp hdict
        have hlast : h.Direct child [] := fun r u hr hne _ => absurd (List.prefix_nil.mp hr) hne
        have hsame : setItem h (.ref addr) key child = .ok h := by
          rw [setItem_of_dict hdict, OrderedMap.set_eq_self hentry, set_eq_self hcell]
        exact ⟨fun _ => hsame, fun hnot => absurd ⟨hlist, hlast⟩ hnot⟩
      · have henter : h.enter v key = .ok (h, child) := enter_of_get hdict hentry
        rw [if_neg hrest, henter]
        refine ⟨fun hgo => (ih hrest hwalk).1 hgo.2, fun hnot => (ih hrest hwalk).2 fun hgo => ?_⟩
        exact hnot ⟨hlist, hgo⟩
    · have hset : h.setItem v key w = .error .typeError := by rw [setItem, hdict]
      have henter : h.enter v key = .error .typeError := by rw [enter, hdict]
      refine ⟨fun hgo => absurd hlist hgo.1, fun _ => ?_⟩
      split_ifs
      · exact hset
      · rw [henter]
        rfl

/-! ### Overlays -/

/-- The paths that lead through one of the given ones. -/
def covered (paths : Set (List String)) : Set (List String) := {q | ∃ p ∈ paths, p <+: q}

/-- The paths on the way to one of the given ones, or to the current place. -/
def opened (paths : Set (List String)) (current : List String) : Set (List String) :=
  {q | q <+: current ∨ ∃ p ∈ paths, q <+: p}

/-- New dictionaries lead to the old values of the given paths, and to the current place. -/
structure Overlay (base : Heap α) (data : Val α) (paths : Set (List String)) (current : List String)
    (h : Heap α) (root : Val α) : Prop where
  grown : base <+: h
  leads : ∀ q ∈ covered paths, h.walk root q = base.walk data q
  dict : ∀ q ∉ covered paths, q ∈ opened paths current → ∃ addr entries, base.length ≤ addr ∧
    h.walk root q = some (.ref addr) ∧ h[addr]? = some (.dict entries)
  missing : ∀ q ∉ covered paths, q ∉ opened paths current → h.walk root q = none
  injective : ∀ q ∉ covered paths, ∀ r ∉ covered paths, (h.walk root q).isSome = true →
    h.walk root q = h.walk root r → q = r

variable {paths : Set (List String)} {current : List String}

lemma mem_covered : q ∈ covered paths ↔ ∃ p ∈ paths, p <+: q := Iff.rfl

lemma mem_opened : q ∈ opened paths current ↔ q <+: current ∨ ∃ p ∈ paths, q <+: p := Iff.rfl

lemma mem_covered_insert {p : List String} :
    q ∈ covered (insert p paths) ↔ p <+: q ∨ q ∈ covered paths := by
  simp only [mem_covered, Set.mem_insert_iff, exists_eq_or_imp]

lemma mem_covered_concat : q ++ [key] ∈ covered paths ↔ q ++ [key] ∈ paths ∨ q ∈ covered paths := by
  constructor
  · rintro ⟨p, hp, hpre⟩
    rcases List.prefix_concat_iff.mp hpre with rfl | hpre
    · exact .inl hp
    · exact .inr ⟨p, hp, hpre⟩
  · rintro (hmem | ⟨p, hp, hpre⟩)
    · exact ⟨_, hmem, List.prefix_rfl⟩
    · exact ⟨p, hp, hpre.trans (List.prefix_append ..)⟩

/-- An assignment to the current place opens no other path. -/
lemma mem_opened_insert (hq : q ∉ covered (insert (current ++ [key]) paths)) :
    q ∈ opened (insert (current ++ [key]) paths) [] ↔ q ∈ opened paths current := by
  have hne : q ≠ current ++ [key] := fun heq => hq ⟨_, Set.mem_insert .., heq ▸ List.prefix_rfl⟩
  simp only [mem_opened, Set.mem_insert_iff, exists_eq_or_imp, List.prefix_nil,
    List.prefix_concat_iff]
  constructor
  · rintro (rfl | (heq | hpre) | hother)
    · exact .inl List.nil_prefix
    · exact absurd heq hne
    · exact .inl hpre
    · exact .inr hother
  · rintro (hpre | hother)
    · exact .inr (.inl (.inr hpre))
    · exact .inr (.inr hother)

/-- Only the paths outside of the covered ones need to be opened alike. -/
lemma Overlay.congr {paths' : Set (List String)} {current' : List String}
    (ho : Overlay base data paths current h root) (hcovered : covered paths' = covered paths)
    (hopened : ∀ q ∉ covered paths, q ∈ opened paths' current' ↔ q ∈ opened paths current) :
    Overlay base data paths' current' h root where
  grown := ho.grown
  leads := hcovered ▸ ho.leads
  dict q hq hopen := ho.dict q (hcovered ▸ hq) ((hopened q (hcovered ▸ hq)).mp hopen)
  missing q hq hopen := ho.missing q (hcovered ▸ hq) fun h => hopen ((hopened q (hcovered ▸ hq)).mpr h)
  injective := hcovered ▸ ho.injective

section

variable (hclosed : base.Closed) (hdata : data.Below base.length)

include hclosed hdata

/-- A new dictionary is reached by one path only. -/
lemma Overlay.eq_of_walk {addr : ℕ} (ho : Overlay base data paths current h root)
    (hq : q ∉ covered paths) (haddr : base.length ≤ addr) (hwalk : h.walk root q = some (.ref addr))
    (hr : h.walk root r = some (.ref addr)) : r = q := by
  have hcovered : r ∉ covered paths := by
    intro hmem
    rw [ho.leads r hmem] at hr
    have hbelow : addr < base.length := hclosed.below_walk hdata hr
    omega
  exact ho.injective r hcovered q hq (by rw [hr]; rfl) (hr.trans hwalk.symm)

/-- Assigning an old value to its path, from the new dictionary that it belongs into. -/
lemma Overlay.setItem {cur : Val α} (ho : Overlay base data paths current h root)
    (hcurrent : current ∉ covered paths) (hcur : h.walk root current = some cur)
    (hwalk : base.walk data (current ++ [key]) = some w) :
    ∃ h', h.setItem cur key w = .ok h' ∧
      Overlay base data (insert (current ++ [key]) paths) [] h' root := by
  obtain ⟨addr, entries, haddr, hfound, hcell⟩ := ho.dict current hcurrent (.inl List.prefix_rfl)
  rw [hfound] at hcur
  obtain rfl := Option.some.inj hcur
  have hassigned := assigned_set hcell key w
  have hunique : ∀ r, h.walk root r = some (.ref addr) → r = current := fun r hr =>
    ho.eq_of_walk hclosed hdata hcurrent haddr hfound hr
  have hbase : base <+: h.set addr (.dict (entries.set key w)) := by
    obtain ⟨new, rfl⟩ := ho.grown
    rw [List.set_append_right _ _ haddr]
    exact List.prefix_append ..
  have hsame : ∀ q ∉ covered (insert (current ++ [key]) paths),
      walk (h.set addr (.dict (entries.set key w))) root q = h.walk root q ∧ q ∉ covered paths := by
    intro q hq
    rw [mem_covered_insert, not_or] at hq
    exact ⟨walk_off_path hassigned hunique hq.1, hq.2⟩
  refine ⟨_, setItem_of_dict (dict?_eq_some.mpr ⟨rfl, hcell⟩) key w, hbase, ?_, ?_, ?_, ?_⟩
  · intro q hq
    by_cases hpre : (current ++ [key]) <+: q
    · obtain ⟨rest, rfl⟩ := hpre
      rw [walk_append base, hwalk, Option.bind_some,
        ← hclosed.walk_of_grown hbase (hclosed.below_walk hdata hwalk), List.append_assoc]
      exact walk_through hassigned hunique hfound rest
    · rw [walk_off_path hassigned hunique hpre]
      exact ho.leads q ((mem_covered_insert.mp hq).resolve_left hpre)
  · intro q hq hopen
    obtain ⟨hwalks, hold⟩ := hsame q hq
    obtain ⟨addr', entries', haddr', hfound', hcell'⟩ :=
      ho.dict q hold ((mem_opened_insert hq).mp hopen)
    rw [hwalks]
    by_cases heq : addr = addr'
    · subst heq
      exact ⟨addr, _, haddr', hfound', List.getElem?_set_self (List.getElem?_eq_some_iff.mp hcell).1⟩
    · exact ⟨addr', entries', haddr', hfound', (List.getElem?_set_ne heq).trans hcell'⟩
  · intro q hq hopen
    obtain ⟨hwalks, hold⟩ := hsame q hq
    rw [hwalks]
    exact ho.missing q hold fun h => hopen ((mem_opened_insert hq).mpr h)
  · intro q hq r hr hsome heq
    rw [(hsame q hq).1] at hsome heq
    rw [(hsame r hr).1] at heq
    exact ho.injective q (hsame q hq).2 r (hsame r hr).2 hsome heq

/-- A new dictionary at a key that leads nowhere yet. -/
lemma Overlay.enter_new {addr : ℕ} {entries : OrderedMap String (Val α)}
    (ho : Overlay base data paths current h root) (hnext : current ++ [key] ∉ covered paths)
    (hopen : current ++ [key] ∉ opened paths current) (haddr : base.length ≤ addr)
    (hfound : h.walk root current = some (.ref addr)) (hcell : h[addr]? = some (.dict entries))
    (hh' : (h ++ [Cell.dict .empty]).set addr (.dict (entries.set key (.ref h.length))) = h') :
    Overlay base data paths (current ++ [key]) h' root ∧
      h'.walk root (current ++ [key]) = some (.ref h.length) := by
  have hcurrent : current ∉ covered paths := fun h => hnext (mem_covered_concat.mpr (.inr h))
  have hlength : addr < h.length := (List.getElem?_eq_some_iff.mp hcell).1
  have hcell' : (h ++ [Cell.dict .empty])[addr]? = some (.dict entries) :=
    (List.getElem?_append_left hlength).trans hcell
  have hassigned : Assigned h h' addr key (.ref h.length) := by
    have hset := assigned_set hcell' key (.ref h.length)
    rw [hh'] at hset
    exact ⟨fun part => by rw [hset.1, child?_append_empty],
      fun v part hv => by rw [hset.2 v part hv, child?_append_empty]⟩
  have hnew : h'[h.length]? = some (.dict .empty) := by
    rw [← hh', List.getElem?_set_ne hlength.ne, List.getElem?_concat_length]
  have hold : ∀ i < h.length, i ≠ addr → h'[i]? = h[i]? := fun i hi hne => by
    rw [← hh', List.getElem?_set_ne hne.symm, List.getElem?_append_left hi]
  have hunique : ∀ r, h.walk root r = some (.ref addr) → r = current := fun r hr =>
    ho.eq_of_walk hclosed hdata hcurrent haddr hfound hr
  have hwalk : h'.walk root (current ++ [key]) = some (.ref h.length) :=
    walk_through hassigned hunique hfound []
  have hbeyond : ∀ q, current ++ [key] <+: q → q ≠ current ++ [key] → h'.walk root q = none := by
    rintro q ⟨rest, rfl⟩ hne
    cases rest with
    | nil => exact absurd (List.append_nil _) hne
    | cons part rest =>
      rw [walk_append, hwalk, Option.bind_some, walk_cons, child?_dict hnew]
      rfl
  have hopened : ∀ q, q ∈ opened paths (current ++ [key]) ↔
      q = current ++ [key] ∨ q ∈ opened paths current := by
    intro q
    rw [mem_opened, mem_opened, List.prefix_concat_iff, or_assoc]
  have hnotOpened : ∀ q, current ++ [key] <+: q → q ∉ opened paths current := by
    rintro q hpre (hq | ⟨p, hp, hq⟩)
    · exact hopen (.inl (hpre.trans hq))
    · exact hopen (.inr ⟨p, hp, hpre.trans hq⟩)
  refine ⟨⟨?_, ?_, ?_, ?_, ?_⟩, hwalk⟩
  · obtain ⟨new, rfl⟩ := ho.grown
    rw [← hh', List.append_assoc, List.set_append_right _ _ haddr]
    exact List.prefix_append ..
  · intro q hq
    rw [walk_off_path hassigned hunique, ho.leads q hq]
    obtain ⟨p, hp, hpre⟩ := hq
    intro hbelow
    rcases List.prefix_or_prefix_of_prefix hpre hbelow with hle | hle
    · exact hnext ⟨p, hp, hle⟩
    · exact hopen (.inr ⟨p, hp, hle⟩)
  · intro q hq hmem
    rcases (hopened q).mp hmem with rfl | hmem
    · exact ⟨h.length, .empty, ho.grown.length_le, hwalk, hnew⟩
    · obtain ⟨addr', entries', haddr', hfound', hcell''⟩ := ho.dict q hq hmem
      rw [walk_off_path hassigned hunique fun hpre => hnotOpened q hpre hmem]
      by_cases heq : addr' = addr
      · subst heq
        exact ⟨addr', _, haddr', hfound', hh' ▸ List.getElem?_set_self
          (List.getElem?_eq_some_iff.mp hcell').1⟩
      · have hlt : addr' < h.length := (List.getElem?_eq_some_iff.mp hcell'').1
        exact ⟨addr', entries', haddr', hfound', (hold addr' hlt heq).trans hcell''⟩
  · intro q hq hmem
    rw [hopened, not_or] at hmem
    by_cases hpre : current ++ [key] <+: q
    · exact hbeyond q hpre hmem.1
    · rw [walk_off_path hassigned hunique hpre]
      exact ho.missing q hq hmem.2
  · have hother : ∀ q ∉ covered paths, h.walk root q ≠ some (.ref h.length) := by
      intro q hq heq
      by_cases hmem : q ∈ opened paths current
      · obtain ⟨addr', entries', -, hfound', hcell''⟩ := ho.dict q hq hmem
        obtain rfl := Val.ref.inj (Option.some.inj (heq.symm.trans hfound'))
        exact absurd (List.getElem?_eq_some_iff.mp hcell'').1 (lt_irrefl _)
      · rw [ho.missing q hq hmem] at heq
        cases heq
    have hold : ∀ q, q ≠ current ++ [key] → (h'.walk root q).isSome = true →
        h'.walk root q = h.walk root q := by
      intro q hne hsome
      refine walk_off_path hassigned hunique fun hpre => ?_
      rw [hbeyond q hpre hne] at hsome
      cases hsome
    intro q hq r hr hsome heq
    by_cases hqnext : q = current ++ [key]
    · by_cases hrnext : r = current ++ [key]
      · rw [hqnext, hrnext]
      · rw [heq] at hsome
        rw [hold r hrnext hsome, hqnext, hwalk] at heq
        exact absurd heq.symm (hother r hr)
    · by_cases hrnext : r = current ++ [key]
      · rw [hold q hqnext hsome, hrnext, hwalk] at heq
        exact absurd heq (hother q hq)
      · have hqold := hold q hqnext hsome
        have hrold := hold r hrnext (heq ▸ hsome)
        rw [hqold] at hsome heq
        exact ho.injective q hq r hr hsome (heq.trans hrold)

/-- Going on to a key that is no old value, through a dictionary that is there or a new one. -/
lemma Overlay.enter {cur : Val α} (ho : Overlay base data paths current h root)
    (hcur : h.walk root current = some cur) (hnext : current ++ [key] ∉ covered paths) :
    ∃ h' child, h.enter cur key = .ok (h', child) ∧
      Overlay base data paths (current ++ [key]) h' root ∧
      h'.walk root (current ++ [key]) = some child := by
  have hcurrent : current ∉ covered paths := fun h => hnext (mem_covered_concat.mpr (.inr h))
  obtain ⟨addr, entries, haddr, hfound, hcell⟩ := ho.dict current hcurrent (.inl List.prefix_rfl)
  rw [hfound] at hcur
  obtain rfl := Option.some.inj hcur
  have hdict : h.dict? (.ref addr) = some (addr, entries) := dict?_eq_some.mpr ⟨rfl, hcell⟩
  have hkey : h.walk root (current ++ [key]) = entries.get? key := by
    rw [walk_concat, hfound, Option.bind_some, child?_dict hcell]
  by_cases hopen : current ++ [key] ∈ opened paths current
  · obtain ⟨addr', entries', -, hfound', -⟩ := ho.dict _ hnext hopen
    refine ⟨h, _, enter_of_get hdict (hkey.symm.trans hfound'), ho.congr rfl fun q _ => ?_, hfound'⟩
    rw [mem_opened, List.prefix_concat_iff, or_assoc, ← mem_opened]
    exact or_iff_right_of_imp fun heq => heq ▸ hopen
  · have hentry : entries.get? key = none := hkey.symm.trans (ho.missing _ hnext hopen)
    exact ⟨_, _, enter_of_missing hdict hentry,
      ho.enter_new hclosed hdata hnext hopen haddr hfound hcell rfl⟩

/-- A list lies on the way from one path to the end of another. -/
def ThroughList (base : Heap α) (data : Val α) (p q : List String) : Prop :=
  ∃ r u, p <+: r ∧ r <+: q ∧ r ≠ q ∧ base.walk data r = some u ∧ base.IsList u

omit hclosed hdata in
lemma Overlay.enter_covered {cur u : Val α} (ho : Overlay base data paths current h root)
    (hcurrent : current ∉ covered paths) (hcur : h.walk root current = some cur)
    (hnext : current ++ [key] ∈ covered paths) (hvalue : base.walk data (current ++ [key]) = some u) :
    h.enter cur key = .ok (h, u) := by
  obtain ⟨addr, entries, -, hfound, hcell⟩ := ho.dict current hcurrent (.inl List.prefix_rfl)
  rw [hfound] at hcur
  obtain rfl := Option.some.inj hcur
  refine enter_of_get (dict?_eq_some.mpr ⟨rfl, hcell⟩) ?_
  rw [← child?_dict hcell, ← hvalue, ← ho.leads _ hnext, walk_concat, hfound, Option.bind_some]

omit hclosed hdata in
/-- A path through a covered one adds nothing. -/
lemma Overlay.insert_covered {rest : List String} (ho : Overlay base data paths current h root)
    (hnext : current ++ [key] ∈ paths) :
    Overlay base data (insert (current ++ [key] ++ rest) paths) [] h root := by
  refine ho.congr (Set.ext fun q => ?_) fun q hq => ?_
  · rw [mem_covered_insert]
    exact or_iff_right_of_imp fun hpre => ⟨_, hnext, (List.prefix_append ..).trans hpre⟩
  · have hshort : q <+: current ++ [key] ++ rest → q <+: current := by
      intro hpre
      rcases List.prefix_or_prefix_of_prefix hpre (List.prefix_append (current ++ [key]) rest)
        with hle | hle
      · refine (List.prefix_concat_iff.mp hle).resolve_left fun heq => hq ⟨_, hnext, ?_⟩
        exact heq ▸ List.prefix_rfl
      · exact absurd ⟨_, hnext, hle⟩ hq
    simp only [mem_opened, Set.mem_insert_iff, exists_eq_or_imp, List.prefix_nil]
    constructor
    · rintro (rfl | hpre | hother)
      · exact .inl List.nil_prefix
      · exact .inl (hshort hpre)
      · exact .inr hother
    · rintro (hpre | hother)
      · exact .inr (.inl ((hpre.trans (List.prefix_append ..)).trans (List.prefix_append ..)))
      · exact .inr (.inr hother)

/-- Behind a value that is laid over, the way is direct if no earlier path brings a list in. -/
lemma Overlay.direct_iff {rest : List String} (ho : Overlay base data paths current h root)
    (hcurrent : current ∉ covered paths) (hnext : current ++ [key] ∈ paths)
    (hvalue : base.walk data (current ++ [key]) = some v) :
    h.Direct v rest ↔ ∀ p ∈ paths, ¬ base.ThroughList data p (current ++ [key] ++ rest) := by
  have hbelow := hclosed.below_walk hdata hvalue
  have hwalk : ∀ r, base.walk data (current ++ [key] ++ r) = h.walk v r := fun r => by
    rw [walk_append, hvalue, Option.bind_some, hclosed.walk_of_grown ho.grown hbelow]
  have hlist : ∀ r u, h.walk v r = some u → (h.IsList u ↔ base.IsList u) := fun r u hu => by
    rw [hclosed.walk_of_grown ho.grown hbelow] at hu
    rw [IsList, IsList, cell?_of_grown ho.grown (hclosed.below_walk hbelow hu)]
  constructor
  · rintro hdirect p hp ⟨r, u, hpr, hr, hne, hu, hul⟩
    have hlong : current ++ [key] <+: r := by
      rcases List.prefix_or_prefix_of_prefix hr (List.prefix_append (current ++ [key]) rest)
        with hle | hle
      · rcases List.prefix_concat_iff.mp hle with rfl | hle
        · exact List.prefix_rfl
        · exact absurd ⟨p, hp, hpr.trans hle⟩ hcurrent
      · exact hle
    obtain ⟨r', rfl⟩ := hlong
    rw [hwalk] at hu
    refine hdirect r' u ((List.prefix_append_right_inj _).mp hr) ?_ hu ((hlist r' u hu).mpr hul)
    rintro rfl
    exact hne rfl
  · intro hnone r u hr hne hu hul
    refine hnone _ hnext ⟨current ++ [key] ++ r, u, List.prefix_append .., ?_, ?_, ?_, ?_⟩
    · exact (List.prefix_append_right_inj _).mpr hr
    · exact fun heq => hne (List.append_cancel_left heq)
    · rw [hwalk, hu]
    · exact (hlist r u hu).mp hul

/-- Assigning an old value to its path, making the dictionaries on the way, fails at a list that an
    earlier path has brought in, and otherwise adds the path. -/
lemma Overlay.place {rest : List String} {cur : Val α} (hrest : rest ≠ [])
    (ho : Overlay base data paths current h root) (hcurrent : current ∉ covered paths)
    (hcur : h.walk root current = some cur) (hwalk : base.walk data (current ++ rest) = some w) :
    ((∀ p ∈ paths, ¬ base.ThroughList data p (current ++ rest)) →
      ∃ h', place rest h cur w = .ok h' ∧
        Overlay base data (insert (current ++ rest) paths) [] h' root) ∧
    ((∃ p ∈ paths, base.ThroughList data p (current ++ rest)) →
      place rest h cur w = .error .typeError) := by
  induction rest generalizing current h cur with
  | nil => exact absurd rfl hrest
  | cons key rest ih =>
    rw [List.append_cons] at hwalk ⊢
    by_cases hlast : rest = []
    · subst hlast
      rw [List.append_nil] at hwalk ⊢
      obtain ⟨h', hset, ho'⟩ := ho.setItem hclosed hdata hcurrent hcur hwalk
      refine ⟨fun _ => ⟨h', (if_pos rfl).trans hset, ho'⟩, ?_⟩
      rintro ⟨p, hp, r, u, hpr, hr, hne, -, -⟩
      have hshort := (List.prefix_concat_iff.mp hr).resolve_left hne
      exact absurd ⟨p, hp, hpr.trans hshort⟩ hcurrent
    · rw [Heap.place, if_neg hlast]
      by_cases hnext : current ++ [key] ∈ covered paths
      · have hmem := (mem_covered_concat.mp hnext).resolve_right hcurrent
        have hvalue := hwalk
        rw [walk_append] at hvalue
        obtain ⟨u, hu, hvalue⟩ := Option.bind_eq_some_iff.mp hvalue
        have henter : h.enter cur key = .ok (h, u) := ho.enter_covered hcurrent hcur hnext hu
        have hfound : h.walk u rest = some w := by
          rw [hclosed.walk_of_grown ho.grown (hclosed.below_walk hdata hu), hvalue]
        have hdirect : h.Direct u rest ↔
            ∀ p ∈ paths, ¬ base.ThroughList data p (current ++ [key] ++ rest) :=
          ho.direct_iff hclosed hdata hcurrent hmem hu
        have hplace := place_found hlast hfound
        rw [henter]
        constructor
        · intro hnone
          exact ⟨h, hplace.1 (hdirect.mpr hnone), ho.insert_covered hmem⟩
        · rintro ⟨p, hp, hthrough⟩
          exact hplace.2 fun hgo => hdirect.mp hgo p hp hthrough
      · obtain ⟨h', child, henter, ho', hchild⟩ := ho.enter hclosed hdata hcur hnext
        rw [henter]
        exact ih hlast ho' hnext hchild hwalk

/-- The paths of an overlay and their values are determined by the paths that it is for. -/
lemma Overlay.pairs_eq {root' : Val α} (ho : Overlay base data paths current h root)
    (ho' : Overlay base data paths current h' root') : h.pairs root = h'.pairs root' := by
  refine Set.ext fun pair => ?_
  rw [mem_pairs, mem_pairs]
  by_cases hcovered : pair.1 ∈ covered paths
  · rw [ho.leads _ hcovered, ho'.leads _ hcovered]
    cases hwalk : base.walk data pair.1 with
    | none => rfl
    | some u =>
      have hbelow := hclosed.below_walk hdata hwalk
      rw [Option.bind_some, Option.bind_some, shape?_of_grown ho.grown hbelow,
        shape?_of_grown ho'.grown hbelow]
  · by_cases hopen : pair.1 ∈ opened paths current
    · obtain ⟨addr, entries, -, hfound, hcell⟩ := ho.dict _ hcovered hopen
      obtain ⟨addr', entries', -, hfound', hcell'⟩ := ho'.dict _ hcovered hopen
      rw [hfound, hfound', Option.bind_some, Option.bind_some, shape?_dict hcell, shape?_dict hcell']
    · rw [ho.missing _ hcovered hopen, ho'.missing _ hcovered hopen]
      rfl

end

/-- An empty dictionary leads nowhere. -/
lemma overlay_empty (base : Heap α) (data : Val α) :
    Overlay base data ∅ [] (base ++ [Cell.dict .empty]) (.ref base.length) := by
  have hcell : (base ++ [Cell.dict .empty])[base.length]? = some (.dict .empty) :=
    List.getElem?_concat_length
  have hcovered : ∀ q, q ∉ covered (∅ : Set (List String)) := by
    rintro q ⟨p, hp, -⟩
    exact hp
  have hopened : ∀ q, q ∈ opened ∅ [] ↔ q = [] := by
    intro q
    rw [mem_opened, List.prefix_nil]
    refine or_iff_left ?_
    rintro ⟨p, hp, -⟩
    exact hp
  have hnone : ∀ q, q ≠ [] →
      walk (base ++ [Cell.dict .empty]) (.ref base.length) q = none := by
    intro q hq
    obtain ⟨key, rest, rfl⟩ := List.exists_cons_of_ne_nil hq
    rw [walk_cons, child?_dict hcell]
    rfl
  refine ⟨List.prefix_append .., fun q hq => absurd hq (hcovered q), fun q _ hq => ?_,
    fun q _ hq => hnone q fun heq => hq ((hopened q).mpr heq), fun q _ r _ hsome heq => ?_⟩
  · rw [(hopened q).mp hq]
    exact ⟨base.length, .empty, le_rfl, rfl, hcell⟩
  · by_cases hq : q = []
    · by_cases hr : r = []
      · rw [hq, hr]
      · rw [heq, hnone r hr] at hsome
        cases hsome
    · rw [hnone q hq] at hsome
      cases hsome

end Denn.Core.Heap
