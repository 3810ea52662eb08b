import Denn.Store.System

/-!
# The tables of the store

What the constraints of the tables say in every state, and what the writes of an upsert leave as it
is.
-/

namespace Denn

open Core

variable {s s' : LocalStore}

namespace LocalStore

/-- Items have ids that have been given out and unique keys, and details are of the type of the item. -/
structure StoreInvariant (s : LocalStore) : Prop where
  bounded : ∀ item row, s.items.get? item = some row → item < s.nextId
  unique : ∀ item item' row row', s.items.get? item = some row → s.items.get? item' = some row' →
    row.key = row'.key → item = item'
  typed : ∀ item detail, s.details.get? item = some detail →
    ∃ row, s.items.get? item = some row ∧ row.contentType = detail.row.contentType

lemma StoreInvariant.empty : StoreInvariant .empty := by
  constructor <;> simp [LocalStore.empty]

/-- Items keep their keys and stay, and so do details. -/
structure Extends (s s' : LocalStore) : Prop where
  key : ∀ item row, s.items.get? item = some row →
    ∃ row', s'.items.get? item = some row' ∧ row'.key = row.key
  detail : ∀ item, (s.details.get? item).isSome → (s'.details.get? item).isSome

lemma Extends.rfl (s : LocalStore) : Extends s s where
  key _ row hrow := ⟨row, hrow, Eq.refl _⟩
  detail _ h := h

lemma Extends.trans {s'' : LocalStore} (h : Extends s s') (h' : Extends s' s'') :
    Extends s s'' where
  key item row hrow := by
    obtain ⟨row', hrow', hkey⟩ := h.key item row hrow
    obtain ⟨row'', hrow'', hkey'⟩ := h'.key item row' hrow'
    exact ⟨row'', hrow'', hkey'.trans hkey⟩
  detail item hdetail := h'.detail item (h.detail item hdetail)

lemma lookup_eq_some {key : ContentKey} {item : ItemId} (h : s.lookup key = some item) :
    ∃ row, s.items.get? item = some row ∧ row.key = key := by
  obtain ⟨row, hrow, hkey⟩ := Table.first_eq_some h
  exact ⟨row, hrow, by simpa using hkey⟩

/-- `get_or_create` finds the item of the key, or adds it under a new id. -/
lemma getOrCreate_cases (s : LocalStore) (key : ContentKey) :
    (∃ item, s.lookup key = some item ∧ s.getOrCreate key = (item, s)) ∨
    s.lookup key = none ∧ s.getOrCreate key = (s.nextId, { s with
      items := s.items.set s.nextId
        { sourceApi := key.1, externalId := key.2.1, contentType := key.2.2 }
      nextId := s.nextId + 1 }) := by
  unfold getOrCreate
  cases hlookup : s.lookup key with
  | some item => exact .inl ⟨item, Eq.refl _, Eq.refl _⟩
  | none => exact .inr ⟨Eq.refl _, Eq.refl _⟩

/-- Nothing but the items differs. -/
structure ItemsOnly (s s' : LocalStore) : Prop where
  clock : s'.clock = s.clock
  details : s'.details = s.details
  platforms : s'.platforms = s.platforms
  ingests : s'.ingests = s.ingests
  served : s'.served = s.served

lemma itemsOnly_getOrCreate (s : LocalStore) (key : ContentKey) :
    ItemsOnly s (s.getOrCreate key).2 := by
  rcases getOrCreate_cases s key with ⟨item, -, heq⟩ | ⟨-, heq⟩
  · rw [heq]
    exact ⟨Eq.refl _, Eq.refl _, Eq.refl _, Eq.refl _, Eq.refl _⟩
  · rw [heq]
    exact ⟨Eq.refl _, Eq.refl _, Eq.refl _, Eq.refl _, Eq.refl _⟩

lemma itemsOnly_setHash (s : LocalStore) (item : ItemId) (hash : Option SourceHash) :
    ItemsOnly s (s.setHash item hash) := by
  unfold setHash
  split <;> exact ⟨Eq.refl _, Eq.refl _, Eq.refl _, Eq.refl _, Eq.refl _⟩

structure GetOrCreate (s : LocalStore) (key : ContentKey) (item : ItemId) (s' : LocalStore) :
    Prop where
  invariant : StoreInvariant s'
  row : ∃ row, s'.items.get? item = some row ∧ row.key = key
  found : ∀ item' row, s.items.get? item' = some row → s'.items.get? item' = some row
  details : s'.details = s.details

lemma getOrCreate_spec (h : StoreInvariant s) (key : ContentKey) :
    GetOrCreate s key (s.getOrCreate key).1 (s.getOrCreate key).2 := by
  rcases getOrCreate_cases s key with ⟨item, hlookup, heq⟩ | ⟨hlookup, heq⟩
  · rw [heq]
    exact ⟨h, lookup_eq_some hlookup, fun _ _ hrow => hrow, Eq.refl _⟩
  · rw [heq]
    have hne : ∀ item row, s.items.get? item = some row → item ≠ s.nextId :=
      fun item row hrow => (h.bounded item row hrow).ne
    have hkey : ∀ item row, s.items.get? item = some row → row.key ≠ key := by
      intro item row hrow
      simpa using Table.first_eq_none hlookup hrow
    refine ⟨⟨?_, ?_, ?_⟩, ⟨_, Table.get?_set_self .., Eq.refl _⟩, ?_, Eq.refl _⟩
    · intro item row hrow
      rcases Table.get?_set_cases hrow with ⟨rfl, -⟩ | hrow
      · exact Nat.lt_succ_self _
      · exact (h.bounded item row hrow).trans (Nat.lt_succ_self _)
    · intro item item' row row' hrow hrow' hsame
      simp only [Table.get?_set] at hrow hrow'
      split_ifs at hrow hrow' with hitem hitem' hitem'
      · exact hitem.trans hitem'.symm
      · cases hrow
        exact absurd hsame.symm (hkey item' row' hrow')
      · cases hrow'
        exact absurd hsame (hkey item row hrow)
      · exact h.unique item item' row row' hrow hrow' hsame
    · intro item detail hdetail
      obtain ⟨row, hrow, htype⟩ := h.typed item detail hdetail
      refine ⟨row, ?_, htype⟩
      simp only [Table.get?_set_ne _ _ (hne item row hrow)]
      exact hrow
    · intro item row hrow
      simp only [Table.get?_set_ne _ _ (hne item row hrow)]
      exact hrow

lemma GetOrCreate.extends {key : ContentKey} {item : ItemId} (h : GetOrCreate s key item s') :
    Extends s s' where
  key item' row hrow := ⟨row, h.found item' row hrow, Eq.refl _⟩
  detail item' hdetail := by rwa [h.details]

lemma setHash_details (s : LocalStore) (item : ItemId) (hash : Option SourceHash) :
    (s.setHash item hash).details = s.details :=
  (itemsOnly_setHash s item hash).details

/-- A hash that is set leaves the rest of the item as it is. -/
lemma get?_setHash (s : LocalStore) (item : ItemId) (hash : Option SourceHash) (item' : ItemId) :
    (s.setHash item hash).items.get? item' = (s.items.get? item').map fun row =>
      if item' = item then { row with currentModerationSourceHash := hash } else row := by
  unfold setHash
  cases hrow : s.items.get? item with
  | none =>
    by_cases hitem : item' = item
    · subst hitem
      simp [hrow]
    · simp [hitem]
  | some row =>
    simp only [Table.get?_set]
    by_cases hitem : item' = item
    · subst hitem
      simp [hrow]
    · simp [hitem]

lemma key_setHash (s : LocalStore) (item : ItemId) (hash : Option SourceHash) (item' : ItemId) :
    ((s.setHash item hash).items.get? item').map ContentItem.key
      = (s.items.get? item').map ContentItem.key := by
  rw [get?_setHash, Option.map_map]
  congr 1
  funext row
  simp only [Function.comp_apply]
  split_ifs <;> rfl

lemma setHash_nextId (s : LocalStore) (item : ItemId) (hash : Option SourceHash) :
    (s.setHash item hash).nextId = s.nextId := by
  unfold setHash
  split <;> rfl

/-- Writes that keep the keys of the items keep what holds of them. -/
lemma StoreInvariant.of_keys (h : StoreInvariant s)
    (hkeys : ∀ item, (s'.items.get? item).map ContentItem.key
      = (s.items.get? item).map ContentItem.key)
    (hnext : s'.nextId = s.nextId)
    (hdetails : ∀ item detail, s'.details.get? item = some detail →
      ∃ row, s.items.get? item = some row ∧ row.contentType = detail.row.contentType) :
    StoreInvariant s' := by
  have hback : ∀ item row', s'.items.get? item = some row' →
      ∃ row, s.items.get? item = some row ∧ row.key = row'.key := by
    intro item row' hrow'
    have hmap := hkeys item
    rw [hrow', Option.map_some] at hmap
    obtain ⟨row, hrow, hkey⟩ := Option.map_eq_some_iff.mp hmap.symm
    exact ⟨row, hrow, hkey⟩
  constructor
  · intro item row' hrow'
    obtain ⟨row, hrow, -⟩ := hback item row' hrow'
    exact hnext ▸ h.bounded item row hrow
  · intro item item' row row' hrow hrow' hsame
    obtain ⟨row₀, hrow₀, hkey₀⟩ := hback item row hrow
    obtain ⟨row₁, hrow₁, hkey₁⟩ := hback item' row' hrow'
    exact h.unique item item' row₀ row₁ hrow₀ hrow₁ ((hkey₀.trans hsame).trans hkey₁.symm)
  · intro item detail hdetail
    obtain ⟨row, hrow, htype⟩ := hdetails item detail hdetail
    have hmap := hkeys item
    rw [hrow, Option.map_some] at hmap
    obtain ⟨row', hrow', hkey⟩ := Option.map_eq_some_iff.mp hmap
    have hsame : row'.contentType = row.contentType := congrArg (fun key => key.2.2) hkey
    exact ⟨row', hrow', hsame.trans htype⟩

lemma StoreInvariant.setHash (h : StoreInvariant s) (item : ItemId) (hash : Option SourceHash) :
    StoreInvariant (s.setHash item hash) := by
  refine h.of_keys (key_setHash s item hash) (setHash_nextId ..) fun item' detail hdetail => ?_
  rw [setHash_details] at hdetail
  exact h.typed item' detail hdetail

lemma StoreInvariant.writeDetail (h : StoreInvariant s) {item : ItemId} {row : ContentItem}
    {detail : DetailRow} (hrow : s.items.get? item = some row)
    (htype : row.contentType = detail.contentType) (children : ChildRows)
    (releaseDate : Option Date) (status : String) (kind : IngestKind) :
    StoreInvariant (s.writeDetail item detail children releaseDate status kind) := by
  refine h.of_keys (fun _ => Eq.refl _) (Eq.refl _) fun item' detail' hdetail => ?_
  rcases Table.get?_set_cases hdetail with ⟨rfl, rfl⟩ | hdetail
  · exact ⟨row, hrow, htype⟩
  · exact h.typed item' detail' hdetail

lemma extends_setHash (s : LocalStore) (item : ItemId) (hash : Option SourceHash) :
    Extends s (s.setHash item hash) where
  key item' row hrow := by
    have hmap := key_setHash s item hash item'
    rw [hrow, Option.map_some] at hmap
    obtain ⟨row', hrow', hkey⟩ := Option.map_eq_some_iff.mp hmap
    exact ⟨row', hrow', hkey⟩
  detail item' hdetail := by rwa [setHash_details]

lemma extends_writeDetail (s : LocalStore) (item : ItemId) (detail : DetailRow)
    (children : ChildRows) (releaseDate : Option Date) (status : String) (kind : IngestKind) :
    Extends s (s.writeDetail item detail children releaseDate status kind) where
  key _ row hrow := ⟨row, hrow, Eq.refl _⟩
  detail item' hdetail := by
    simp only [writeDetail, Table.get?_set]
    split_ifs
    · exact Eq.refl _
    · exact hdetail

lemma isSome_writeDetail (s : LocalStore) (item : ItemId) (detail : DetailRow)
    (children : ChildRows) (releaseDate : Option Date) (status : String) (kind : IngestKind) :
    ((s.writeDetail item detail children releaseDate status kind).details.get? item).isSome := by
  rw [writeDetail, Table.get?_set_self]
  rfl

/-! ### Platforms -/

section Platforms

variable (config : StoreConfig) (s : LocalStore) (item : ItemId) (platforms : Option PlatformMap)
  (requestCountry : Option String)

@[simp] lemma replacePlatforms_items :
    (s.replacePlatforms config item platforms requestCountry).items = s.items := by
  cases platforms <;> rfl

@[simp] lemma replacePlatforms_nextId :
    (s.replacePlatforms config item platforms requestCountry).nextId = s.nextId := by
  cases platforms <;> rfl

@[simp] lemma replacePlatforms_details :
    (s.replacePlatforms config item platforms requestCountry).details = s.details := by
  cases platforms <;> rfl

@[simp] lemma replacePlatforms_ingests :
    (s.replacePlatforms config item platforms requestCountry).ingests = s.ingests := by
  cases platforms <;> rfl

@[simp] lemma replacePlatforms_clock :
    (s.replacePlatforms config item platforms requestCountry).clock = s.clock := by
  cases platforms <;> rfl

@[simp] lemma replacePlatforms_served :
    (s.replacePlatforms config item platforms requestCountry).served = s.served := by
  cases platforms <;> rfl

end Platforms

lemma StoreInvariant.replacePlatforms (h : StoreInvariant s) (config : StoreConfig) (item : ItemId)
    (platforms : Option PlatformMap) (requestCountry : Option String) :
    StoreInvariant (s.replacePlatforms config item platforms requestCountry) := by
  refine h.of_keys (fun _ => ?_) ?_ fun item' detail hdetail => ?_
  · rw [replacePlatforms_items]
  · rw [replacePlatforms_nextId]
  · rw [replacePlatforms_details] at hdetail
    exact h.typed item' detail hdetail

lemma extends_replacePlatforms (config : StoreConfig) (s : LocalStore) (item : ItemId)
    (platforms : Option PlatformMap) (requestCountry : Option String) :
    Extends s (s.replacePlatforms config item platforms requestCountry) where
  key _ row hrow := ⟨row, by rwa [replacePlatforms_items], Eq.refl _⟩
  detail _ hdetail := by rwa [replacePlatforms_details]

end LocalStore

end Denn
