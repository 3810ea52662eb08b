import Denn.Core.OrderBy

/-!
# Clusters of entries that share a label

Entries with a name and perhaps an id are put into clusters one by one: into the cluster that has the
id, else into the one that was founded under the name, else into a new one. A cluster learns the ids
of its entries but keeps the name it was founded under, so the clusters can depend on the order.
-/

namespace Denn.Core

variable {ε ι ν κ β : Type*} {idOf : ε → Option ι} {nameOf : ε → ν} {blockOf : ε → β}
  {placed : List (ε × κ)} {e e' f : ε} {k k' : κ} {x : ι} {n : ν}

lemma mem_concat {α : Type*} {a b : α} {l : List α} : a ∈ l ++ [b] ↔ a ∈ l ∨ a = b := by
  rw [List.mem_append, List.mem_singleton]

/-- Entries that share their name are together. -/
def NamesTogether (nameOf : ε → ν) (placed : List (ε × κ)) : Prop :=
  ∀ e k e' k', (e, k) ∈ placed → (e', k') ∈ placed → nameOf e = nameOf e' → k = k'

lemma NamesTogether.concat (h : NamesTogether nameOf placed)
    (hf : ∀ e k', (e, k') ∈ placed → nameOf e = nameOf f → k' = k) :
    NamesTogether nameOf (placed ++ [(f, k)]) := by
  intro a l b l' ha hb hname
  rcases mem_concat.mp ha with hold | heq <;> rcases mem_concat.mp hb with hold' | heq'
  · exact h a l b l' hold hold' hname
  · cases heq'
    exact hf a l hold hname
  · cases heq
    exact (hf b l' hold' hname.symm).symm
  · cases heq
    cases heq'
    rfl

variable [DecidableEq ι] [DecidableEq ν]

/-- The id, if there is one, belongs to the cluster. -/
def register (ids : ι → Option κ) (id : Option ι) (k : κ) : ι → Option κ :=
  match id with
  | none => ids
  | some x => Function.update ids x (some k)

/-- Entries with their clusters, the clusters of the ids, and those of the names. -/
inductive Clustered (idOf : ε → Option ι) (nameOf : ε → ν) :
    List (ε × κ) → (ι → Option κ) → (ν → Option κ) → Prop where
  | nil : Clustered idOf nameOf [] (fun _ => none) fun _ => none
  | byId {placed ids names e k} (h : Clustered idOf nameOf placed ids names)
      (hid : (idOf e).bind ids = some k) : Clustered idOf nameOf (placed ++ [(e, k)]) ids names
  | byName {placed ids names e k} (h : Clustered idOf nameOf placed ids names)
      (hid : (idOf e).bind ids = none) (hname : names (nameOf e) = some k) :
      Clustered idOf nameOf (placed ++ [(e, k)]) (register ids (idOf e) k) names
  | new {placed ids names e k} (h : Clustered idOf nameOf placed ids names)
      (hid : (idOf e).bind ids = none) (hname : names (nameOf e) = none)
      (hfresh : k ∉ placed.map Prod.snd) :
      Clustered idOf nameOf (placed ++ [(e, k)]) (register ids (idOf e) k)
        (Function.update names (nameOf e) (some k))

section Register

variable {ids : ι → Option κ} {id : Option ι} {k : κ} {x : ι}

lemma register_self (h : id = some x) : register ids id k x = some k := by
  rw [h]
  exact Function.update_self x (some k) ids

lemma register_ne (h : id ≠ some x) : register ids id k x = ids x := by
  cases id with
  | none => rfl
  | some y => exact Function.update_of_ne (fun heq => h (congrArg some heq.symm)) _ _

end Register

variable {ids : ι → Option κ} {names : ν → Option κ}

namespace Clustered

lemma id_of_mem (h : Clustered idOf nameOf placed ids names) (hmem : (e, k) ∈ placed)
    (hid : idOf e = some x) : ids x = some k := by
  induction h with
  | nil => cases hmem
  | @byId placed ids names f l h hfound ih =>
    rcases mem_concat.mp hmem with hmem | heq
    · exact ih hmem
    · cases heq
      rwa [hid] at hfound
  | @byName placed ids names f l h hmissing hname ih =>
    rcases mem_concat.mp hmem with hmem | heq
    · rw [register_ne, ih hmem]
      intro hf
      rw [hf, Option.bind_some, ih hmem] at hmissing
      cases hmissing
    · cases heq
      exact register_self hid
  | @new placed ids names f l h hmissing hname hfresh ih =>
    rcases mem_concat.mp hmem with hmem | heq
    · rw [register_ne, ih hmem]
      intro hf
      rw [hf, Option.bind_some, ih hmem] at hmissing
      cases hmissing
    · cases heq
      exact register_self hid

lemma exists_of_id (h : Clustered idOf nameOf placed ids names) (hid : ids x = some k) :
    ∃ e, (e, k) ∈ placed ∧ idOf e = some x := by
  have hregister : ∀ {placed : List (ε × κ)} {ids : ι → Option κ} {f l},
      (ids x = some k → ∃ e, (e, k) ∈ placed ∧ idOf e = some x) →
        register ids (idOf f) l x = some k →
          ∃ e, (e, k) ∈ placed ++ [(f, l)] ∧ idOf e = some x := by
    intro placed ids f l ih hid
    by_cases hf : idOf f = some x
    · cases (register_self hf).symm.trans hid
      exact ⟨f, mem_concat.mpr (.inr rfl), hf⟩
    · rw [register_ne hf] at hid
      obtain ⟨e, hmem, he⟩ := ih hid
      exact ⟨e, mem_concat.mpr (.inl hmem), he⟩
  induction h with
  | nil => cases hid
  | byId h hfound ih =>
    obtain ⟨e, hmem, he⟩ := ih hid
    exact ⟨e, mem_concat.mpr (.inl hmem), he⟩
  | byName h hmissing hname ih => exact hregister ih hid
  | new h hmissing hname hfresh ih => exact hregister ih hid

lemma exists_of_name (h : Clustered idOf nameOf placed ids names) (hname : names n = some k) :
    ∃ e, (e, k) ∈ placed ∧ nameOf e = n := by
  induction h with
  | nil => cases hname
  | byId h hfound ih =>
    obtain ⟨e, hmem, he⟩ := ih hname
    exact ⟨e, mem_concat.mpr (.inl hmem), he⟩
  | byName h hmissing hfound ih =>
    obtain ⟨e, hmem, he⟩ := ih hname
    exact ⟨e, mem_concat.mpr (.inl hmem), he⟩
  | @new placed ids names f l h hmissing hfree hfresh ih =>
    by_cases hn : n = nameOf f
    · subst hn
      cases (Function.update_self (nameOf f) (some l) names).symm.trans hname
      exact ⟨f, mem_concat.mpr (.inr rfl), rfl⟩
    · rw [Function.update_of_ne hn] at hname
      obtain ⟨e, hmem, he⟩ := ih hname
      exact ⟨e, mem_concat.mpr (.inl hmem), he⟩

/-- An entry whose name no cluster has was placed by its id, and the first entry with that id has
    another name. -/
lemma exists_of_unnamed (h : Clustered idOf nameOf placed ids names) (hmem : (e, k) ∈ placed)
    (hname : names (nameOf e) = none) :
    ∃ x e', idOf e = some x ∧ (e', k) ∈ placed ∧ idOf e' = some x ∧ nameOf e' ≠ nameOf e := by
  induction h generalizing e with
  | nil => cases hmem
  | @byId placed ids names f l h hfound ih =>
    rcases mem_concat.mp hmem with hmem | heq
    · obtain ⟨x, e', hx, hmem', he', hne⟩ := ih hmem hname
      exact ⟨x, e', hx, mem_concat.mpr (.inl hmem'), he', hne⟩
    · cases heq
      obtain ⟨x, hx, hids⟩ := Option.bind_eq_some_iff.mp hfound
      obtain ⟨e', hmem', he'⟩ := h.exists_of_id hids
      by_cases heq : nameOf e' = nameOf f
      · rw [← heq] at hname
        obtain ⟨y, e'', hy, hmem'', he'', hne⟩ := ih hmem' hname
        cases hy.symm.trans he'
        exact ⟨x, e'', hx, mem_concat.mpr (.inl hmem''), he'', heq ▸ hne⟩
      · exact ⟨x, e', hx, mem_concat.mpr (.inl hmem'), he', heq⟩
  | @byName placed ids names f l h hmissing hfound ih =>
    rcases mem_concat.mp hmem with hmem | heq
    · obtain ⟨x, e', hx, hmem', he', hne⟩ := ih hmem hname
      exact ⟨x, e', hx, mem_concat.mpr (.inl hmem'), he', hne⟩
    · cases heq
      cases hname.symm.trans hfound
  | @new placed ids names f l h hmissing hfree hfresh ih =>
    have hne : nameOf e ≠ nameOf f := by
      intro heq
      rw [heq, Function.update_self] at hname
      cases hname
    rw [Function.update_of_ne hne] at hname
    rcases mem_concat.mp hmem with hmem | heq
    · obtain ⟨x, e', hx, hmem', he', hne⟩ := ih hmem hname
      exact ⟨x, e', hx, mem_concat.mpr (.inl hmem'), he', hne⟩
    · cases heq
      exact absurd rfl hne

lemma name_of_anonymous (h : Clustered idOf nameOf placed ids names) (hmem : (e, k) ∈ placed)
    (hid : idOf e = none) : names (nameOf e) = some k := by
  induction h with
  | nil => cases hmem
  | byId h hfound ih =>
    rcases mem_concat.mp hmem with hmem | heq
    · exact ih hmem
    · cases heq
      rw [hid] at hfound
      cases hfound
  | byName h hmissing hfound ih =>
    rcases mem_concat.mp hmem with hmem | heq
    · exact ih hmem
    · cases heq
      exact hfound
  | @new placed ids names f l h hmissing hfree hfresh ih =>
    rcases mem_concat.mp hmem with hmem | heq
    · have hne : nameOf e ≠ nameOf f := by
        intro heq
        cases (ih hmem).symm.trans (heq ▸ hfree)
      rw [Function.update_of_ne hne, ih hmem]
    · cases heq
      exact Function.update_self _ _ _

/-- Entries that share their id are together. -/
lemma eq_of_id (h : Clustered idOf nameOf placed ids names) (hmem : (e, k) ∈ placed)
    (hmem' : (e', k') ∈ placed) (hid : idOf e = some x) (hid' : idOf e' = some x) : k = k' :=
  Option.some_injective _ ((h.id_of_mem hmem hid).symm.trans (h.id_of_mem hmem' hid'))

/-- Entries that share both labels are together. -/
lemma eq_of_labels (h : Clustered idOf nameOf placed ids names) (hmem : (e, k) ∈ placed)
    (hmem' : (e', k') ∈ placed) (hid : idOf e = idOf e') (hname : nameOf e = nameOf e') : k = k' := by
  cases hx : idOf e with
  | none =>
    have hk := h.name_of_anonymous hmem hx
    have hk' := h.name_of_anonymous hmem' (hid ▸ hx)
    rw [hname, hk'] at hk
    exact (Option.some_injective _ hk).symm
  | some x => exact h.eq_of_id hmem hmem' hx (hid ▸ hx)

/-- What has been placed earlier was clustered alike. -/
lemma earlier {p : List (ε × κ)} (h : Clustered idOf nameOf placed ids names) (hp : p <+: placed) :
    ∃ ids names, Clustered idOf nameOf p ids names := by
  induction h with
  | nil =>
    rw [List.prefix_nil.mp hp]
    exact ⟨_, _, .nil⟩
  | byId h hfound ih =>
    rcases List.prefix_concat_iff.mp hp with rfl | hp
    · exact ⟨_, _, .byId h hfound⟩
    · exact ih hp
  | byName h hmissing hfound ih =>
    rcases List.prefix_concat_iff.mp hp with rfl | hp
    · exact ⟨_, _, .byName h hmissing hfound⟩
    · exact ih hp
  | new h hmissing hfree hfresh ih =>
    rcases List.prefix_concat_iff.mp hp with rfl | hp
    · exact ⟨_, _, .new h hmissing hfree hfresh⟩
    · exact ih hp

/-- Entries are together only if a chain of shared labels joins them. -/
lemma related {R : ε → ε → Prop} {es : List ε} (h : Clustered idOf nameOf placed ids names)
    (hsymm : ∀ a b, R a b → R b a) (htrans : ∀ a b c, R a b → R b c → R a c)
    (hid : ∀ a ∈ es, ∀ b ∈ es, ∀ x, idOf a = some x → idOf b = some x → R a b)
    (hname : ∀ a ∈ es, ∀ b ∈ es, nameOf a = nameOf b → R a b)
    (hes : ∀ entry ∈ placed, entry.1 ∈ es) (hmem : (e, k) ∈ placed) (hmem' : (e', k) ∈ placed) :
    R e e' := by
  have hconcat : ∀ {placed : List (ε × κ)} {f l},
      (∀ entry ∈ placed ++ [(f, l)], entry.1 ∈ es) →
      ((∀ entry ∈ placed, entry.1 ∈ es) →
        ∀ {e e'}, (e, k) ∈ placed → (e', k) ∈ placed → R e e') →
      (l = k → ∀ e, (e, k) ∈ placed → R f e) →
        ∀ {e e'}, (e, k) ∈ placed ++ [(f, l)] → (e', k) ∈ placed ++ [(f, l)] → R e e' := by
    intro placed f l hes ih hf e e' hmem hmem'
    have hself : R f f := by
      have hf := hes (f, l) (mem_concat.mpr (.inr rfl))
      exact hname f hf f hf rfl
    have hes : ∀ entry ∈ placed, entry.1 ∈ es := fun entry hentry =>
      hes entry (mem_concat.mpr (.inl hentry))
    rcases mem_concat.mp hmem with hold | heq <;> rcases mem_concat.mp hmem' with hold' | heq'
    · exact ih hes hold hold'
    · cases heq'
      exact hsymm _ _ (hf rfl e hold)
    · cases heq
      exact hf rfl e' hold'
    · cases heq
      cases heq'
      exact hself
  induction h generalizing e e' with
  | nil => cases hmem
  | @byId placed ids names f l h hfound ih =>
    refine hconcat hes (fun hes {e e'} => ih hes) (fun hl e hmem => ?_) hmem hmem'
    subst hl
    obtain ⟨x, hx, hids⟩ := Option.bind_eq_some_iff.mp hfound
    obtain ⟨a, ha, hax⟩ := h.exists_of_id hids
    have hesf := hes (f, l) (mem_concat.mpr (.inr rfl))
    have hes := fun entry hentry => hes entry (mem_concat.mpr (.inl hentry))
    exact htrans f a e (hid f hesf a (hes _ ha) x hx hax) (ih hes ha hmem)
  | @byName placed ids names f l h hmissing hfound ih =>
    refine hconcat hes (fun hes {e e'} => ih hes) (fun hl e hmem => ?_) hmem hmem'
    subst hl
    obtain ⟨a, ha, haname⟩ := h.exists_of_name hfound
    have hesf := hes (f, l) (mem_concat.mpr (.inr rfl))
    have hes := fun entry hentry => hes entry (mem_concat.mpr (.inl hentry))
    exact htrans f a e (hname f hesf a (hes _ ha) haname.symm) (ih hes ha hmem)
  | @new placed ids names f l h hmissing hfree hfresh ih =>
    refine hconcat hes (fun hes {e e'} => ih hes) (fun hl e hmem => ?_) hmem hmem'
    exact absurd (List.mem_map_of_mem hmem) (hl ▸ hfresh)

/-- A cluster keeps the name of its first entry: another entry is there for the name or for an id
    that an entry of that name has. -/
lemma of_founder (h : Clustered idOf nameOf placed ids names) (hhead : placed.head? = some (f, k)) :
    (∀ n, names n = some k → n = nameOf f) ∧
      ∀ e, (e, k) ∈ placed → nameOf e = nameOf f ∨
        ∃ x, idOf e = some x ∧ ∃ entry ∈ placed, idOf entry.1 = some x ∧ nameOf entry.1 = nameOf f := by
  induction h with
  | nil => cases hhead
  | @byId placed ids names e l h hfound ih =>
    obtain ⟨x, hx, hids⟩ := Option.bind_eq_some_iff.mp hfound
    obtain ⟨a, ha, hax⟩ := h.exists_of_id hids
    rw [List.head?_append_of_ne_nil _ (List.ne_nil_of_mem ha)] at hhead
    obtain ⟨hnames, hplaced⟩ := ih hhead
    refine ⟨hnames, fun b hb => ?_⟩
    rcases mem_concat.mp hb with hb | heq
    · exact (hplaced b hb).imp_right fun ⟨y, hy, entry, hentry, h⟩ =>
        ⟨y, hy, entry, mem_concat.mpr (.inl hentry), h⟩
    · cases heq
      rcases hplaced a ha with ha' | ⟨y, hy, entry, hentry, h⟩
      · exact .inr ⟨x, hx, (a, k), mem_concat.mpr (.inl ha), hax, ha'⟩
      · exact .inr ⟨x, hx, entry, mem_concat.mpr (.inl hentry), hax.symm.trans hy ▸ h⟩
  | @byName placed ids names e l h hmissing hfound ih =>
    obtain ⟨a, ha, haname⟩ := h.exists_of_name hfound
    rw [List.head?_append_of_ne_nil _ (List.ne_nil_of_mem ha)] at hhead
    obtain ⟨hnames, hplaced⟩ := ih hhead
    refine ⟨hnames, fun b hb => ?_⟩
    rcases mem_concat.mp hb with hb | heq
    · exact (hplaced b hb).imp_right fun ⟨y, hy, entry, hentry, h⟩ =>
        ⟨y, hy, entry, mem_concat.mpr (.inl hentry), h⟩
    · cases heq
      exact .inl (hnames _ hfound)
  | @new placed ids names e l h hmissing hfree hfresh ih =>
    rcases placed.eq_nil_or_concat with rfl | ⟨rest, entry, hplaced⟩
    · cases hhead
      refine ⟨fun n hn => ?_, fun b hb => .inl ?_⟩
      · by_contra hne
        rw [Function.update_of_ne hne] at hn
        obtain ⟨a, ha, -⟩ := h.exists_of_name hn
        cases ha
      · cases List.mem_singleton.mp hb
        rfl
    · have hne : placed ≠ [] := by simp [hplaced]
      rw [List.head?_append_of_ne_nil _ hne] at hhead
      have hold : k ≠ l := fun hkl =>
        hfresh (hkl ▸ List.mem_map_of_mem (List.mem_of_mem_head? hhead))
      obtain ⟨hnames, hplaced⟩ := ih hhead
      refine ⟨fun n hn => hnames n ?_, fun b hb => ?_⟩
      · by_cases hn' : n = nameOf e
        · rw [hn', Function.update_self] at hn
          exact absurd (Option.some_injective _ hn).symm hold
        · rwa [Function.update_of_ne hn'] at hn
      · rcases mem_concat.mp hb with hb | heq
        · exact (hplaced b hb).imp_right fun ⟨y, hy, entry, hentry, h⟩ =>
            ⟨y, hy, entry, mem_concat.mpr (.inl hentry), h⟩
        · cases heq
          exact absurd rfl hold

/-- An entry of another name is in the first cluster only if an entry before it has its id and the
    name of the first. -/
lemma exists_of_mem_founder {before after : List ε} {g : ε}
    (h : Clustered idOf nameOf placed ids names) (hhead : placed.head? = some (f, k))
    (hplaced : placed.map Prod.fst = before ++ g :: after) (hname : nameOf g ≠ nameOf f)
    (hmem : (g, k) ∈ placed) :
    ∃ a ∈ before, ∃ x, idOf g = some x ∧ idOf a = some x ∧ nameOf a = nameOf f := by
  obtain ⟨first, rest, rfl, rfl, hrest⟩ := List.map_eq_append_iff.mp hplaced
  obtain ⟨entry, rest, rfl, rfl, -⟩ := List.map_eq_cons_iff.mp hrest
  have hfirst : first ≠ [] := by
    rintro rfl
    rw [List.nil_append, List.head?_cons, Option.some_inj] at hhead
    exact hname (congrArg (fun entry => nameOf entry.1) hhead)
  have hprefix : first ++ [entry] <+: first ++ entry :: rest := by simp
  obtain ⟨_, _, hearlier⟩ := h.earlier hprefix
  rw [List.head?_append_of_ne_nil _ hfirst] at hhead
  have hfounder := (hearlier.of_founder (by rwa [List.head?_append_of_ne_nil _ hfirst])).2
  have hkey : entry.2 = k := h.eq_of_labels (by simp) hmem rfl rfl
  rcases hfounder entry.1 (mem_concat.mpr (.inr (by rw [← hkey]))) with heq | ⟨x, hx, a, ha, hax, haname⟩
  · exact absurd heq hname
  · rcases mem_concat.mp ha with ha | rfl
    · exact ⟨a.1, List.mem_map_of_mem ha, x, hx, hax, haname⟩
    · exact absurd haname hname

/-- Two orders have the same clusters if entries of one name are together in both. -/
lemma together_of_together {placed' : List (ε × κ)} {ids' : ι → Option κ} {names' : ν → Option κ}
    (h : Clustered idOf nameOf placed ids names) (h' : Clustered idOf nameOf placed' ids' names')
    (hnames : NamesTogether nameOf placed')
    (hentries : ∀ entry ∈ placed, entry.1 ∈ placed'.map Prod.fst)
    (htogether : ∃ k, (e, k) ∈ placed ∧ (e', k) ∈ placed) :
    ∃ k, (e, k) ∈ placed' ∧ (e', k) ∈ placed' := by
  obtain ⟨k, hmem, hmem'⟩ := htogether
  have hplaced : ∀ a ∈ placed'.map Prod.fst, ∃ k, (a, k) ∈ placed' := by
    intro a ha
    obtain ⟨entry, hentry, rfl⟩ := List.mem_map.mp ha
    exact ⟨entry.2, hentry⟩
  refine h.related (R := fun a b => ∃ k, (a, k) ∈ placed' ∧ (b, k) ∈ placed')
    (fun a b ⟨k, ha, hb⟩ => ⟨k, hb, ha⟩) (fun a b c ⟨k, ha, hb⟩ ⟨l, hb', hc⟩ => ?_)
    (fun a ha b hb x hax hbx => ?_) (fun a ha b hb hab => ?_) hentries hmem hmem'
  · exact ⟨k, ha, hnames b l b k hb' hb rfl ▸ hc⟩
  · obtain ⟨k, hk⟩ := hplaced a ha
    obtain ⟨l, hl⟩ := hplaced b hb
    exact ⟨k, hk, h'.eq_of_id hl hk hbx hax ▸ hl⟩
  · obtain ⟨k, hk⟩ := hplaced a ha
    obtain ⟨l, hl⟩ := hplaced b hb
    exact ⟨k, hk, hnames b l a k hl hk hab.symm ▸ hl⟩

end Clustered

/-! ### Independence of the order -/

/-- Where an id stands under two names, an entry under one of them that has not this id stands in
    another block than the id under the other name; its own id stands there under that name too, and
    the first id stands under the first name in its block. -/
def Reconciled (idOf : ε → Option ι) (nameOf : ε → ν) (blockOf : ε → β) (es : List ε) : Prop :=
  ∀ e ∈ es, ∀ e' ∈ es, ∀ f ∈ es, ∀ x, idOf e = some x → idOf e' = some x → nameOf f = nameOf e' →
    nameOf e ≠ nameOf e' → idOf f ≠ some x → idOf f ≠ none ∧ blockOf e ≠ blockOf f ∧
      (∃ g ∈ es, blockOf g = blockOf e ∧ idOf g = idOf f ∧ nameOf g = nameOf e) ∧
      ∃ g ∈ es, blockOf g = blockOf f ∧ idOf g = some x ∧ nameOf g = nameOf f

/-- A block that another one follows is over. -/
lemma mem_of_contiguous {es before after : List ε} {a b : ε} (h : Contiguous blockOf es)
    (hes : es = before ++ f :: after) (ha : a ∈ before) (hne : blockOf a ≠ blockOf f) (hb : b ∈ es)
    (hblock : blockOf b = blockOf a) : b ∈ before := by
  subst hes
  rcases List.mem_append.mp hb with hb | hb
  · exact hb
  rcases List.mem_cons.mp hb with rfl | hb
  · exact absurd hblock.symm hne
  · have hsublist : [a, f, b].Sublist (before ++ f :: after) :=
      (List.singleton_sublist.mpr ha).append ((List.singleton_sublist.mpr hb).cons_cons f)
    exact absurd (h a f b hsublist hblock.symm).symm hne

/-- Names are together in every order in which the blocks stand together. -/
theorem Reconciled.namesTogether {es : List ε} (h : Reconciled idOf nameOf blockOf es)
    (hblocks : Contiguous blockOf es) (hplaced : Clustered idOf nameOf placed ids names)
    (hes : placed.map Prod.fst <+: es) : NamesTogether nameOf placed := by
  have hsplit : ∀ {placed : List (ε × κ)} {f k}, (placed ++ [(f, k)]).map Prod.fst <+: es →
      placed.map Prod.fst <+: es ∧ f ∈ es ∧ ∀ a ∈ placed, a.1 ∈ es ∧ (blockOf a.1 ≠ blockOf f →
        ∀ b ∈ es, blockOf b = blockOf a.1 → ∃ l, (b, l) ∈ placed) := by
    rintro placed f k ⟨after, rfl⟩
    rw [List.map_append, List.map_singleton, List.append_assoc] at *
    refine ⟨List.prefix_append _ _, by simp, fun a ha => ⟨?_, fun hne b hb hblock => ?_⟩⟩
    · exact List.mem_append_left _ (List.mem_map_of_mem ha)
    · have hmem := mem_of_contiguous hblocks rfl (List.mem_map_of_mem ha) hne hb hblock
      obtain ⟨entry, hentry, rfl⟩ := List.mem_map.mp hmem
      exact ⟨entry.2, hentry⟩
  induction hplaced with
  | nil =>
    intro a k b k' ha
    cases ha
  | @byId placed ids names f k hplaced hid ih =>
    obtain ⟨hes, hf, hdone⟩ := hsplit hes
    refine (ih hes).concat fun e k' he hname => ?_
    obtain ⟨z, hz, hids⟩ := Option.bind_eq_some_iff.mp hid
    by_cases hknown : ∃ g l, (g, l) ∈ placed ∧ idOf g = some z ∧ nameOf g = nameOf f
    · obtain ⟨g, l, hg, hgz, hgname⟩ := hknown
      rw [ih hes e k' g l he hg (hname.trans hgname.symm)]
      exact Option.some_injective _ ((hplaced.id_of_mem hg hgz).symm.trans hids)
    · obtain ⟨g, hg, hgz⟩ := hplaced.exists_of_id hids
      have hgname : nameOf g ≠ nameOf f := fun heq => hknown ⟨g, k, hg, hgz, heq⟩
      have hez : idOf e ≠ some z := fun heq => hknown ⟨e, k', he, heq, hname⟩
      obtain ⟨hid, hblock, ⟨g', hg'es, hg'block, hg'id, hg'name⟩, h', hh'es, hh'block, hh'z, hh'name⟩ :=
        h g (hdone _ hg).1 f hf e (hdone _ he).1 z hgz hz hname hgname hez
      have hcurrent : blockOf e = blockOf f := by
        by_contra hne
        obtain ⟨l, hl⟩ := (hdone _ he).2 hne h' hh'es hh'block
        exact hknown ⟨h', l, hl, hh'z, hh'name.trans hname⟩
      obtain ⟨l, hl⟩ := (hdone _ hg).2 (hcurrent ▸ hblock) g' hg'es hg'block
      obtain ⟨y, hy⟩ := Option.ne_none_iff_exists'.mp hid
      rw [hplaced.eq_of_id he hl hy (hg'id.trans hy)]
      exact ih hes g' l g k hl hg hg'name
  | byName hplaced hid hfound ih =>
    obtain ⟨hes, hf, hdone⟩ := hsplit hes
    obtain ⟨a, ha, haname⟩ := hplaced.exists_of_name hfound
    exact (ih hes).concat fun e k' he hname => ih hes e k' a _ he ha (hname.trans haname.symm)
  | @new placed ids names f k hplaced hid hfree hfresh ih =>
    obtain ⟨hes, hf, hdone⟩ := hsplit hes
    refine (ih hes).concat fun e k' he hname => ?_
    obtain ⟨x, g, hx, hg, hgx, hgname⟩ := hplaced.exists_of_unnamed he (hname ▸ hfree)
    have hfx : idOf f ≠ some x := by
      intro heq
      rw [heq, Option.bind_some, hplaced.id_of_mem he hx] at hid
      cases hid
    obtain ⟨hfid, hblock, ⟨g', hg'es, hg'block, hg'id, -⟩, -⟩ :=
      h g (hdone _ hg).1 e (hdone _ he).1 f hf x hgx hx hname.symm hgname hfx
    obtain ⟨l, hl⟩ := (hdone _ hg).2 hblock g' hg'es hg'block
    obtain ⟨z, hz⟩ := Option.ne_none_iff_exists'.mp hfid
    rw [hz, Option.bind_some, hplaced.id_of_mem hl (hg'id.trans hz)] at hid
    cases hid

/-- Names are together only then: the orders that begin with an entry and go on, within its block,
    to an entry of another name tell it. -/
theorem reconciled_of_namesTogether {es : List ε}
    (h : ∀ e ∈ es, ∀ f ∈ es, nameOf e ≠ nameOf f →
      ∃ before after, ∃ (placed : List (ε × κ)) (ids : ι → Option κ) (names : ν → Option κ),
        Clustered idOf nameOf placed ids names ∧ NamesTogether nameOf placed ∧
          placed.map Prod.fst = (e :: before) ++ f :: after ∧
            (∀ a ∈ es, a ∈ placed.map Prod.fst) ∧
              ∀ a ∈ before, a ∈ es ∧ blockOf a = blockOf e ∧ blockOf e ≠ blockOf f) :
    Reconciled idOf nameOf blockOf es := by
  have hfirst : ∀ e ∈ es, ∀ f ∈ es, nameOf e ≠ nameOf f → idOf e ≠ idOf f →
      (∀ {placed : List (ε × κ)} {ids names k}, Clustered idOf nameOf placed ids names →
        NamesTogether nameOf placed → (∀ a ∈ es, ∃ l, (a, l) ∈ placed) →
          (e, k) ∈ placed → (f, k) ∈ placed) →
        idOf f ≠ none ∧ blockOf e ≠ blockOf f ∧
          ∃ g ∈ es, blockOf g = blockOf e ∧ idOf g = idOf f ∧ nameOf g = nameOf e := by
    intro e he f hf hname hid hjoined
    obtain ⟨before, after, placed, ids, names, hplaced, htogether, hes, hall, hbefore⟩ :=
      h e he f hf hname
    have hkeys : ∀ a ∈ es, ∃ l, (a, l) ∈ placed := by
      intro a ha
      obtain ⟨entry, hentry, rfl⟩ := List.mem_map.mp (hall a ha)
      exact ⟨entry.2, hentry⟩
    obtain ⟨entry, rest, rfl, rfl, -⟩ := List.map_eq_cons_iff.mp hes
    have hmem := hjoined hplaced htogether hkeys (k := entry.2) List.mem_cons_self
    obtain ⟨a, ha, x, hfx, hax, haname⟩ :=
      hplaced.exists_of_mem_founder rfl hes hname.symm hmem
    rcases List.mem_cons.mp ha with rfl | ha
    · exact absurd (hax.trans hfx.symm) hid
    · obtain ⟨haes, hablock, hne⟩ := hbefore a ha
      exact ⟨by simp [hfx], hne, a, haes, hablock, hax.trans hfx.symm, haname⟩
  intro e he e' he' f hf x hex he'x hname hne hfx
  have hne' : nameOf e ≠ nameOf f := hname ▸ hne
  have hid : idOf e ≠ idOf f := fun heq => hfx (heq ▸ hex)
  have hforward := hfirst e he f hf hne' hid fun {placed ids names k} hplaced htogether hall hmem => by
    obtain ⟨l, hl⟩ := hall e' he'
    obtain ⟨m, hm⟩ := hall f hf
    rw [hplaced.eq_of_id hmem hl hex he'x, ← htogether f m e' l hm hl hname]
    exact hm
  have hback := hfirst f hf e he hne'.symm hid.symm
    fun {placed ids names k} hplaced htogether hall hmem => by
      obtain ⟨l, hl⟩ := hall e' he'
      obtain ⟨m, hm⟩ := hall e he
      rw [htogether f k e' l hmem hl hname, hplaced.eq_of_id hl hm he'x hex]
      exact hm
  obtain ⟨hfid, hblock, hg⟩ := hforward
  exact ⟨hfid, hblock, hg, hex ▸ hback.2.2⟩

end Denn.Core
