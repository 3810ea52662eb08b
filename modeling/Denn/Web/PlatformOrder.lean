import Denn.Web.ContentPlatforms

/-!
# Platforms in any order

Which entries are merged into one platform should not depend on the order in which the response lists
actions and entries. It does when an id stands under two names, since a platform that an entry joins by
its id does not learn its name.
-/

namespace Denn.Web

open Core

variable {rules : TextRules} {platforms platforms' : PlatformMap} {e e' f : ListedPlatform}

/-! ### Listings -/

lemma mem_listing : e ∈ listing rules platforms ↔
    ∃ block ∈ platforms.entries, block.1 = e.rawAction ∧ e.platform ∈ block.2 ∧
      isListed rules e.platform = true := by
  rw [listing, List.mem_flatMap]
  refine exists_congr fun block => and_congr_right fun _ => ?_
  simp only [List.mem_map, List.mem_filter]
  constructor
  · rintro ⟨platform, ⟨hmem, hlisted⟩, rfl⟩
    exact ⟨rfl, hmem, hlisted⟩
  · rintro ⟨hblock, hmem, hlisted⟩
    exact ⟨e.platform, ⟨hmem, hlisted⟩, by rw [hblock]⟩

/-- The entries of an action stand together. -/
lemma contiguous_listing (rules : TextRules) (platforms : PlatformMap) :
    Contiguous ListedPlatform.rawAction (listing rules platforms) := by
  have hkeys : ∀ a ∈ listing rules platforms, a.rawAction ∈ platforms.entries.map Prod.fst := by
    intro a ha
    obtain ⟨block, hblock, heq, -⟩ := mem_listing.mp ha
    exact heq ▸ List.mem_map_of_mem hblock
  have hblocks : platforms.entries.Pairwise fun block block' =>
      (platforms.entries.map Prod.fst).idxOf block.1 ≤
        (platforms.entries.map Prod.fst).idxOf block'.1 := by
    refine List.pairwise_iff_getElem.mpr fun i j hi hj hij => ?_
    have hidxOf : ∀ k (hk : k < platforms.entries.length),
        (platforms.entries.map Prod.fst).idxOf platforms.entries[k].1 = k := by
      intro k hk
      have hkey := platforms.nodup.idxOf_getElem k (by simpa using hk)
      rwa [List.getElem_map] at hkey
    rw [hidxOf i hi, hidxOf j hj]
    exact hij.le
  have hsorted : (listing rules platforms).Pairwise fun a b =>
      (platforms.entries.map Prod.fst).idxOf a.rawAction ≤
        (platforms.entries.map Prod.fst).idxOf b.rawAction := by
    refine List.pairwise_flatMap.mpr ⟨fun block _ => ?_, hblocks.imp fun hle a ha b hb => ?_⟩
    · exact List.pairwise_map.mpr (List.pairwise_of_forall fun a b => le_rfl)
    · obtain ⟨p, -, rfl⟩ := List.mem_map.mp ha
      obtain ⟨q, -, rfl⟩ := List.mem_map.mp hb
      exact hle
  intro a b c hsublist heq
  have hb := hkeys b (hsublist.subset (by simp))
  have htriple := hsorted.sublist hsublist
  simp only [List.pairwise_cons, List.mem_cons, List.not_mem_nil, or_false, forall_eq_or_imp,
    forall_eq] at htriple
  obtain ⟨⟨hab, -⟩, hbc, -⟩ := htriple
  exact (List.idxOf_inj hb).mp (le_antisymm (heq ▸ hbc) hab)

/-- The same actions with the same entries, in another order. -/
def Rearranged (platforms platforms' : PlatformMap) : Prop :=
  ∃ blocks, platforms.entries.Perm blocks ∧
    List.Forall₂ (fun block block' => block.1 = block'.1 ∧ block.2.Perm block'.2) blocks
      platforms'.entries

lemma Rearranged.listing_perm (h : Rearranged platforms platforms') :
    (listing rules platforms).Perm (listing rules platforms') := by
  obtain ⟨blocks, hperm, hblocks⟩ := h
  refine (hperm.flatMap_right _).trans ?_
  rw [listing]
  clear hperm
  generalize platforms'.entries = blocks' at hblocks
  induction hblocks with
  | nil => exact .rfl
  | @cons block block' blocks blocks' hblock _ ih =>
    rw [List.flatMap_cons, List.flatMap_cons, hblock.1]
    exact ((hblock.2.filter _).map _).append ih

/-- Other entries in the blocks. -/
lemma exists_platformMap {blocks : List (String × List Platform)}
    (blocks' : List (String × List Platform)) (hperm : platforms.entries.Perm blocks)
    (hblocks : List.Forall₂ (fun block block' => block.1 = block'.1 ∧ block.2.Perm block'.2) blocks
      blocks') :
    ∃ platforms' : PlatformMap, Rearranged platforms platforms' ∧ platforms'.entries = blocks' := by
  have hkeys : blocks'.map Prod.fst = blocks.map Prod.fst := by
    clear hperm
    induction hblocks with
    | nil => rfl
    | cons hblock _ ih => rw [List.map_cons, List.map_cons, hblock.1, ih]
  refine ⟨⟨blocks', ?_⟩, ⟨blocks, hperm, hblocks⟩, rfl⟩
  rw [hkeys]
  exact (hperm.map Prod.fst).nodup_iff.mp platforms.nodup

/-- The listing can begin with an entry and go on, within its action, to another one. -/
lemma exists_rearranged (he : e ∈ listing rules platforms) (hf : f ∈ listing rules platforms)
    (hne : e ≠ f) :
    ∃ platforms', Rearranged platforms platforms' ∧ ∃ before after,
      listing rules platforms' = (e :: before) ++ f :: after ∧
        ∀ a ∈ before, a.rawAction = e.rawAction ∧ e.rawAction ≠ f.rawAction := by
  obtain ⟨⟨action, entries⟩, hblock, rfl, hmem, hlisted⟩ := mem_listing.mp he
  obtain ⟨⟨action', entries'⟩, hblock', rfl, hmem', hlisted'⟩ := mem_listing.mp hf
  have hsame : ∀ blocks : List (String × List Platform),
      List.Forall₂ (fun block block' => block.1 = block'.1 ∧ block.2.Perm block'.2) blocks blocks :=
    fun blocks => List.forall₂_same.mpr fun block _ => ⟨rfl, .rfl⟩
  have hrest := List.perm_cons_erase hblock
  have hfirst : entries.Perm (e.platform :: entries.erase e.platform) := List.perm_cons_erase hmem
  by_cases hactions : f.rawAction = e.rawAction
  · rw [hactions] at hblock'
    have heq : entries' = entries := Option.some_injective _
      ((OrderedMap.mem_entries.mp hblock').symm.trans (OrderedMap.mem_entries.mp hblock))
    have hplatform : f.platform ≠ e.platform := by
      intro hplatform
      cases e
      cases f
      simp_all
    have hsecond := List.perm_cons_erase
      ((List.mem_erase_of_ne hplatform).mpr (heq ▸ hmem' : f.platform ∈ entries))
    obtain ⟨platforms', hrearranged, hentries⟩ := exists_platformMap
      ((e.rawAction, e.platform :: f.platform :: (entries.erase e.platform).erase f.platform) ::
        platforms.entries.erase (e.rawAction, entries)) hrest (.cons ⟨rfl, hfirst.trans (hsecond.cons _)⟩ (hsame _))
    refine ⟨platforms', hrearranged, [], ?_⟩
    have hsecond' : (⟨e.rawAction, f.platform⟩ : ListedPlatform) = f := by rw [← hactions]
    rw [listing, hentries, List.flatMap_cons, List.filter_cons_of_pos hlisted,
      List.filter_cons_of_pos hlisted']
    simp only [List.map_cons, hsecond']
    exact ⟨_, rfl, by simp⟩
  · have hsecond : entries'.Perm (f.platform :: entries'.erase f.platform) :=
      List.perm_cons_erase hmem'
    have hne : ((f.rawAction, entries') : String × List Platform) ≠ (e.rawAction, entries) :=
      fun heq => hactions (congrArg Prod.fst heq)
    have hrest' := List.perm_cons_erase ((List.mem_erase_of_ne hne).mpr hblock')
    obtain ⟨platforms', hrearranged, hentries⟩ := exists_platformMap
      ((e.rawAction, e.platform :: entries.erase e.platform) ::
        (f.rawAction, f.platform :: entries'.erase f.platform) ::
          (platforms.entries.erase (e.rawAction, entries)).erase (f.rawAction, entries'))
      (hrest.trans (hrest'.cons _)) (.cons ⟨rfl, hfirst⟩ (.cons ⟨rfl, hsecond⟩ (hsame _)))
    refine ⟨platforms', hrearranged,
      ((entries.erase e.platform).filter (isListed rules)).map (ListedPlatform.mk e.rawAction), ?_⟩
    rw [listing, hentries, List.flatMap_cons, List.flatMap_cons, List.filter_cons_of_pos hlisted,
      List.filter_cons_of_pos hlisted']
    refine ⟨_, rfl, fun a ha => ⟨?_, Ne.symm hactions⟩⟩
    obtain ⟨platform, -, rfl⟩ := List.mem_map.mp ha
    rfl

/-! ### Merging -/

/-- Two entries are in one platform. -/
def Together (rules : TextRules) (platforms : PlatformMap) (e e' : ListedPlatform) : Prop :=
  ∃ key, (e, key) ∈ (groupPlatforms rules platforms).placed ∧
    (e', key) ∈ (groupPlatforms rules platforms).placed

/-- Each provider is one platform, whatever the order of the response. -/
structure MergesOnce (rules : TextRules) (platforms : PlatformMap) : Prop where
  /-- Every entry that is not left out has its place. -/
  placed : (groupPlatforms rules platforms).placed.map Prod.fst = listing rules platforms
  distinct : ((normalizeContentPlatforms rules platforms).map (·.key)).Nodup
  shown : ∀ entry ∈ (groupPlatforms rules platforms).placed,
    ∃ platform ∈ normalizeContentPlatforms rules platforms,
      platform.key = entry.2 ∧ Shows rules platform.actions entry.1
  byId : ∀ entry ∈ (groupPlatforms rules platforms).placed,
    ∀ entry' ∈ (groupPlatforms rules platforms).placed, ∀ id,
      entry.1.id = some id → entry'.1.id = some id → entry.2 = entry'.2
  byName : ∀ entry ∈ (groupPlatforms rules platforms).placed,
    ∀ entry' ∈ (groupPlatforms rules platforms).placed,
      entry.1.nameKey rules = entry'.1.nameKey rules → entry.2 = entry'.2
  actions : ∀ platform ∈ normalizeContentPlatforms rules platforms,
    (platform.actions.map (·.key)).Nodup
  orderFree : ∀ platforms', Rearranged platforms platforms' → ∀ e e',
    Together rules platforms e e' ↔ Together rules platforms' e e'

lemma mem_placed (rules : TextRules) (platforms : PlatformMap) :
    e ∈ listing rules platforms ↔
      ∃ key, (e, key) ∈ (groupPlatforms rules platforms).placed := by
  rw [← placed_groupPlatforms, List.mem_map]
  constructor
  · rintro ⟨entry, hentry, rfl⟩
    exact ⟨entry.2, hentry⟩
  · rintro ⟨key, hkey⟩
    exact ⟨(e, key), hkey, rfl⟩

/-- Names of one id are told apart by nothing that the order decides. -/
lemma Rearranged.reconciled (h : Rearranged platforms platforms')
    (hnames : Reconciled ListedPlatform.id (ListedPlatform.nameKey rules) ListedPlatform.rawAction
      (listing rules platforms)) :
    Reconciled ListedPlatform.id (ListedPlatform.nameKey rules) ListedPlatform.rawAction
      (listing rules platforms') := by
  have hmem : ∀ a, a ∈ listing rules platforms ↔ a ∈ listing rules platforms' :=
    fun a => h.listing_perm.mem_iff
  simpa only [Reconciled, hmem] using hnames

lemma namesTogether (hnames : Reconciled ListedPlatform.id (ListedPlatform.nameKey rules)
    ListedPlatform.rawAction (listing rules platforms)) :
    NamesTogether (ListedPlatform.nameKey rules) (groupPlatforms rules platforms).placed :=
  hnames.namesTogether (contiguous_listing rules platforms) (indexed_groupPlatforms rules platforms).clustered
    (placed_groupPlatforms rules platforms ▸ List.prefix_refl _)

/-- Names that are together in every order are reconciled. -/
lemma MergesOnce.reconciled (h : MergesOnce rules platforms) :
    Reconciled ListedPlatform.id (ListedPlatform.nameKey rules) ListedPlatform.rawAction
      (listing rules platforms) := by
  refine @reconciled_of_namesTogether _ _ _ String _ _ _ _ _ _ _ fun e he f hf hne => ?_
  obtain ⟨platforms', hrearranged, before, after, hlisting, hbefore⟩ :=
    exists_rearranged he hf fun heq => hne (by rw [heq])
  have hindexed := indexed_groupPlatforms rules platforms'
  have hperm : (listing rules platforms).Perm (listing rules platforms') := hrearranged.listing_perm
  refine ⟨before, after, _, _, _, hindexed.clustered, ?_, ?_, ?_, ?_⟩
  · intro a k b l ha hb hname
    obtain ⟨k', hk'⟩ := (mem_placed rules platforms).mp
      (hperm.mem_iff.mpr ((mem_placed rules platforms').mpr ⟨k, ha⟩))
    obtain ⟨l', hl'⟩ := (mem_placed rules platforms).mp
      (hperm.mem_iff.mpr ((mem_placed rules platforms').mpr ⟨l, hb⟩))
    have hkeys : k' = l' := h.byName _ hk' _ hl' hname
    obtain ⟨key, hka, hkb⟩ := (h.orderFree platforms' hrearranged a b).mp ⟨k', hk', hkeys ▸ hl'⟩
    rw [hindexed.clustered.eq_of_labels ha hka rfl rfl,
      hindexed.clustered.eq_of_labels hb hkb rfl rfl]
  · rw [placed_groupPlatforms, hlisting]
  · intro a ha
    rw [placed_groupPlatforms]
    exact hperm.mem_iff.mp ha
  · intro a ha
    obtain ⟨hblock, hblocks⟩ := hbefore a ha
    refine ⟨hperm.mem_iff.mpr ?_, hblock, hblocks⟩
    rw [hlisting]
    simp [ha]

lemma map_key_normalizeContentPlatforms :
    ((normalizeContentPlatforms rules platforms).map (·.key)).Perm
      ((groupPlatforms rules platforms).grouped.entries.map Prod.fst) := by
  rw [normalizeContentPlatforms]
  refine ((List.mergeSort_perm _ _).map _).trans (.of_eq ?_)
  rw [List.map_map, OrderedMap.values, List.map_map]
  refine List.map_congr_left fun entry hentry => ?_
  exact ((indexed_groupPlatforms rules platforms).known _ _ (OrderedMap.mem_entries.mp hentry)).1

lemma mem_normalizeContentPlatforms {key : String} {platform : NormalizedPlatform}
    (h : (groupPlatforms rules platforms).grouped.get? key = some platform) :
    ∃ shown ∈ normalizeContentPlatforms rules platforms, shown.key = platform.key ∧
      shown.actions.Perm platform.actions := by
  refine ⟨{ platform with
    actions := platform.actions.mergeSort (orders rules PlatformAction.order PlatformAction.label) },
    List.mem_mergeSort.mpr (List.mem_map_of_mem ?_), rfl, List.mergeSort_perm _ _⟩
  exact List.mem_map.mpr ⟨(key, platform), OrderedMap.mem_entries.mpr h, rfl⟩

/-- Each provider is merged once, in any order, if and only if the names of each id are reconciled. -/
theorem mergesOnce_iff (rules : TextRules) (platforms : PlatformMap) :
    MergesOnce rules platforms ↔
      Reconciled ListedPlatform.id (ListedPlatform.nameKey rules) ListedPlatform.rawAction
        (listing rules platforms) := by
  refine ⟨MergesOnce.reconciled, fun hnames => ?_⟩
  have hindexed := indexed_groupPlatforms rules platforms
  constructor
  · exact placed_groupPlatforms rules platforms
  · exact map_key_normalizeContentPlatforms.nodup_iff.mpr (groupPlatforms rules platforms).grouped.nodup
  · intro entry hentry
    obtain ⟨platform, hplatform, action, haction, hkey, hurl⟩ := hindexed.stored entry hentry
    obtain ⟨shown, hshown, hshownKey, hactions⟩ := mem_normalizeContentPlatforms hplatform
    exact ⟨shown, hshown, hshownKey.trans (hindexed.known _ _ hplatform).1, action,
      hactions.mem_iff.mpr haction, hkey, hurl⟩
  · intro entry hentry entry' hentry' id hid hid'
    exact hindexed.clustered.eq_of_id hentry hentry' hid hid'
  · intro entry hentry entry' hentry' hname
    exact namesTogether hnames entry.1 entry.2 entry'.1 entry'.2 hentry hentry' hname
  · intro platform hmem
    obtain ⟨plain, hplain, rfl⟩ := List.mem_map.mp (List.mem_mergeSort.mp hmem)
    obtain ⟨key, hkey⟩ := OrderedMap.mem_values.mp hplain
    refine ((List.mergeSort_perm _ _).map _).nodup_iff.mpr ?_
    exact (hindexed.known _ _ hkey).2.2
  · intro platforms' hrearranged e e'
    have hindexed' := indexed_groupPlatforms rules platforms'
    have hperm : (listing rules platforms).Perm (listing rules platforms') :=
      hrearranged.listing_perm
    constructor
    · refine hindexed.clustered.together_of_together hindexed'.clustered
        (namesTogether (hrearranged.reconciled hnames)) fun entry hentry => ?_
      rw [placed_groupPlatforms]
      exact hperm.mem_iff.mp ((mem_placed rules platforms).mpr ⟨entry.2, hentry⟩)
    · refine hindexed'.clustered.together_of_together hindexed.clustered (namesTogether hnames)
        fun entry hentry => ?_
      rw [placed_groupPlatforms]
      exact hperm.mem_iff.mpr ((mem_placed rules platforms').mpr ⟨entry.2, hentry⟩)

section Renamed

/-- Text of ASCII letters. -/
def asciiRules : TextRules where
  nfkd := id
  toLowerCase := List.map Char.toLower
  toUpperCase := List.map Char.toUpper
  isLetterOrNumber := Char.isAlphanum
  collates a b := decide (a ≤ b)
  isWebAddress url := url.startsWith "https://"

/-- A provider that has been renamed, and an entry without an id under the new name. -/
def renamedProvider : PlatformMap where
  entries := [("stream", [{ name := "HBO", id := "384" }, { name := "Max", id := "384" },
    { name := "Max" }])]
  nodup := List.nodup_singleton _

end Renamed

theorem renamed_provider_split : ¬ MergesOnce asciiRules renamedProvider := by
  intro h
  have hkeys := h.byName (⟨"stream", { name := "Max", id := "384" }⟩, "id:384") (by decide +kernel)
    (⟨"stream", { name := "Max" }⟩, "name:max") (by decide +kernel) rfl
  exact absurd hkeys (by decide)

end Denn.Web
