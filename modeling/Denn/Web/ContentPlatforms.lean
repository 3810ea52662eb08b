import Denn.Core.Clusters
import Denn.Core.OrderedMap
import Denn.Web.Text
import Mathlib.Data.List.Infix

/-!
# Platforms of a title

A title comes with the platforms of each action (stream, buy, rent). The detail page merges the entries
of one provider, by its id or else by its name, and shows what can be done there. The index keeps, for
the statements about it, where each entry was put.
-/

namespace Denn.Web

open Core

/-! ### Names -/

/-- What the engine knows of Unicode, of the locale and of URLs. -/
structure TextRules where
  nfkd : List Char → List Char
  toLowerCase : List Char → List Char
  toUpperCase : List Char → List Char
  isLetterOrNumber : Char → Bool
  /-- `a.localeCompare(b) <= 0`. -/
  collates : String → String → Bool
  /-- `new URL(text)` is an address of the web. -/
  isWebAddress : String → Bool

/-- One blank for each run of characters of a class. -/
def replaceRuns (p : Char → Bool) (inRun : Bool) : List Char → List Char
  | [] => []
  | c :: text =>
    if p c then
      if inRun then replaceRuns p true text else ' ' :: replaceRuns p true text
    else c :: replaceRuns p false text

def normalizeLookupValue (rules : TextRules) (value : String) : String :=
  let plain := (rules.nfkd value.toList).filter fun c => !('\u0300' ≤ c && c ≤ '\u036f')
  let spelled := (rules.toLowerCase plain).flatMap fun c => if c = '&' then " and ".toList else [c]
  let words := trim (String.ofList (replaceRuns (fun c => !rules.isLetterOrNumber c) false spelled))
  String.ofList (replaceRuns isWhitespace false words.toList)

/-- What plain objects inherit under a name of lower-case letters. -/
def inherited (name : String) : Option String :=
  if name = "constructor" then some "function Object() \x7b [native code] \x7d" else none

structure ContentActionConfig where
  label : String
  order : ℕ
  aliases : List String

/-- `CONTENT_ACTION_CONFIG`. -/
def contentActionConfig : List (String × ContentActionConfig) :=
  [("stream", ⟨"Stream", 10, ["stream", "streaming", "flatrate", "subscription", "watch"]⟩),
    ("free", ⟨"Free", 20, ["free", "gratis"]⟩),
    ("ads", ⟨"With ads", 30, ["ads", "ad supported", "with ads", "free with ads", "stream with ads"]⟩),
    ("buy", ⟨"Buy", 40, ["buy", "purchase", "buying"]⟩),
    ("rent", ⟨"Rent", 50, ["rent", "rental", "renting"]⟩)]

/-- `ACTION_ALIASES`. -/
def actionAliases (rules : TextRules) : OrderedMap String String :=
  .ofList (contentActionConfig.flatMap fun config =>
    config.2.aliases.map fun name => (normalizeLookupValue rules name, config.1))

/-- `PROVIDER_ALIASES`. -/
def providerAliases : List (String × String) :=
  [("amazon prime", "amazon video"), ("amazon prime video", "amazon video"),
    ("google play movies tv", "google play"), ("google play movies and tv", "google play"),
    ("apple tv plus", "apple tv")]

/-- `PROVIDER_PRIORITIES`. -/
def providerPriorities : List (String × ℕ) :=
  [("netflix", 10), ("amazon video", 20), ("disney plus", 30), ("apple tv", 40), ("crunchyroll", 50),
    ("google play", 60)]

/-- `EXCLUDED_PROVIDER_MARKERS`. -/
def excludedProviderMarkers : List String :=
  ["amazon channel", "apple tv channel", "roku premium channel", "with ads"]

def unknownActionOrder : ℕ := 1000

def normalizeProviderKey (rules : TextRules) (name : String) : String :=
  let normalized := normalizeLookupValue rules name
  ((providerAliases.lookup normalized).orElse fun _ => inherited normalized).getD normalized

def isExcludedProvider (rules : TextRules) (name : String) : Bool :=
  excludedProviderMarkers.any fun marker =>
    (normalizeLookupValue rules marker).toList <:+: (normalizeLookupValue rules name).toList

/-- A character of the first plane in upper case. -/
def capitalize (rules : TextRules) : List Char → List Char
  | [] => []
  | c :: word => (if c.toNat < 0x10000 then rules.toUpperCase [c] else [c]) ++ word

def humanizeAction (rules : TextRules) (action : String) : String :=
  let words := (action.toList.splitOn ' ').filter fun word => !word.isEmpty
  String.ofList ([' '].intercalate (words.map (capitalize rules)))

/-! ### Platforms -/

/-- An entry of the response; an id that is a number is its text. -/
structure Platform where
  name : String
  imageUrl : Option String := none
  id : Option String := none
  provider_id : Option String := none
  providerId : Option String := none
  url : Option String := none
  link : Option String := none
  deriving DecidableEq

structure PlatformAction where
  key : String
  label : String
  order : ℕ
  urls : List String
  deriving DecidableEq

structure NormalizedPlatform where
  key : String
  name : String
  logoUrl : Option String
  providerId : Option String
  priority : ℕ
  actions : List PlatformAction
  deriving DecidableEq

/-- The platforms of each action. -/
abbrev PlatformMap := OrderedMap String (List Platform)

/-- A text that is not empty. -/
def nonempty (text : Option String) : Option String := text.filter (· ≠ "")

def getProviderId (platform : Platform) : Option String :=
  nonempty ((platform.provider_id <|> platform.providerId <|> platform.id).map trim)

def getValidPlatformUrl (rules : TextRules) (platform : Platform) : Option String :=
  (nonempty (platform.url <|> platform.link)).filter rules.isWebAddress

def normalizeContentAction (rules : TextRules) (rawAction : String) : PlatformAction :=
  let normalized := normalizeLookupValue rules rawAction
  let key := (((actionAliases rules).get? normalized).orElse fun _ => inherited normalized).getD
    (if normalized = "" then "other" else normalized)
  let config := contentActionConfig.lookup key
  { key
    label := (config.map (·.label)).getD
      (humanizeAction rules (if normalized = "" then "Other" else normalized))
    order := (config.map (·.order)).getD unknownActionOrder
    urls := [] }

def addUrl (url : Option String) (urls : List String) : List String :=
  match url with
  | none => urls
  | some url => if url ∈ urls then urls else urls ++ [url]

def mergePlatformAction (action : PlatformAction) (url : Option String) :
    List PlatformAction → List PlatformAction
  | [] => [{ action with urls := url.toList }]
  | existing :: actions =>
    if existing.key = action.key then { existing with urls := addUrl url existing.urls } :: actions
    else existing :: mergePlatformAction action url actions

/-! ### Grouping -/

structure ListedPlatform where
  rawAction : String
  platform : Platform
  deriving DecidableEq

structure PlatformIndex where
  grouped : OrderedMap String NormalizedPlatform := .empty
  providerIds : OrderedMap String String := .empty
  providerNames : OrderedMap String (List String) := .empty
  /-- The entries so far, with the keys of their platforms. -/
  placed : List (ListedPlatform × String) := []

def findExistingProviderKey (index : PlatformIndex) (providerId : Option String)
    (providerNameKey : String) : Option String :=
  match providerId.bind index.providerIds.get? with
  | some key => some key
  | none =>
    match (index.providerNames.get? providerNameKey).getD [] with
    | [key] => some key
    | _ => none

def baseKey (providerId : Option String) (providerNameKey : String) : String :=
  match providerId with
  | some id => "id:" ++ id
  | none => "name:" ++ providerNameKey

/-- The suffixes are counted up until a key is free; the map has fewer keys than are tried. -/
def suffixedKey (grouped : OrderedMap String NormalizedPlatform) (base : String) : ℕ → ℕ → String
  | 0, suffix => base ++ ":" ++ toString suffix
  | fuel + 1, suffix =>
    if (grouped.get? (base ++ ":" ++ toString suffix)).isSome then
      suffixedKey grouped base fuel (suffix + 1)
    else base ++ ":" ++ toString suffix

def createProviderKey (providerId : Option String) (providerNameKey : String)
    (grouped : OrderedMap String NormalizedPlatform) : String :=
  let base := baseKey providerId providerNameKey
  if (grouped.get? base).isNone then base
  else suffixedKey grouped base grouped.entries.length 2

def addProviderNameKey (names : OrderedMap String (List String)) (nameKey providerKey : String) :
    OrderedMap String (List String) :=
  let keys := (names.get? nameKey).getD []
  names.set nameKey (if providerKey ∈ keys then keys else keys ++ [providerKey])

def addProviderId (ids : OrderedMap String String) (providerId : Option String)
    (providerKey : String) : OrderedMap String String :=
  match providerId with
  | some id => ids.set id providerKey
  | none => ids

variable (rules : TextRules)

/-- The entry has a name, which is not excluded. -/
def isListed (platform : Platform) : Bool :=
  let name := trim platform.name
  name ≠ "" && !isExcludedProvider rules name

def providerNameKey (platform : Platform) : String := normalizeProviderKey rules (trim platform.name)

/-- The body of the loop, for an entry that is not left out. -/
def placePlatform (rawAction : String) (index : PlatformIndex) (platform : Platform) :
    PlatformIndex :=
  let action := normalizeContentAction rules rawAction
  let nameKey := providerNameKey rules platform
  let providerId := getProviderId platform
  let existingKey := findExistingProviderKey index providerId nameKey
  let key := existingKey.getD (createProviderKey providerId nameKey index.grouped)
  let url := getValidPlatformUrl rules platform
  let placed := index.placed ++ [(⟨rawAction, platform⟩, key)]
  match index.grouped.get? key with
  | none =>
    { grouped := index.grouped.set key
        { key, name := trim platform.name, logoUrl := nonempty platform.imageUrl, providerId,
          priority := (providerPriorities.lookup nameKey).getD 500,
          actions := mergePlatformAction action url [] }
      providerIds := addProviderId index.providerIds providerId key
      providerNames := addProviderNameKey index.providerNames nameKey key
      placed }
  | some normalized =>
    { index with
      grouped := index.grouped.set key
        { normalized with
          logoUrl := (nonempty normalized.logoUrl).orElse fun _ => nonempty platform.imageUrl
          providerId := normalized.providerId.orElse fun _ => providerId
          actions := mergePlatformAction action url normalized.actions }
      providerIds := addProviderId index.providerIds providerId key
      placed }

/-- The entries that are not left out, in their order. -/
def listing (platforms : PlatformMap) : List ListedPlatform :=
  platforms.entries.flatMap fun block =>
    (block.2.filter (isListed rules)).map fun platform => ⟨block.1, platform⟩

def groupPlatforms (platforms : PlatformMap) : PlatformIndex :=
  platforms.entries.foldl
    (fun index block => block.2.foldl
      (fun index platform =>
        if isListed rules platform then placePlatform rules block.1 index platform else index) index) {}

/-- By a number, then by a text in the order of the locale. -/
def orders {α : Type} (number : α → ℕ) (text : α → String) (a b : α) : Bool :=
  number a < number b || (number a = number b && rules.collates (text a) (text b))

def normalizeContentPlatforms (platforms : PlatformMap) : List NormalizedPlatform :=
  ((groupPlatforms rules platforms).grouped.values.map fun platform =>
    { platform with
      actions := platform.actions.mergeSort (orders rules PlatformAction.order PlatformAction.label) }
    ).mergeSort (orders rules NormalizedPlatform.priority NormalizedPlatform.name)

/-! ### The index -/

def PlatformIndex.nameKey (index : PlatformIndex) (name : String) : Option String :=
  (index.providerNames.get? name).bind List.head?

abbrev ListedPlatform.id (entry : ListedPlatform) : Option String := getProviderId entry.platform

abbrev ListedPlatform.nameKey (entry : ListedPlatform) : String :=
  providerNameKey rules entry.platform

/-- Among the actions is that of an entry, with its address. -/
def Shows (actions : List PlatformAction) (entry : ListedPlatform) : Prop :=
  ∃ action ∈ actions, action.key = (normalizeContentAction rules entry.rawAction).key ∧
    ∀ url, getValidPlatformUrl rules entry.platform = some url → url ∈ action.urls

/-- What the index knows about the entries that were placed. -/
structure Indexed (index : PlatformIndex) : Prop where
  clustered : Clustered ListedPlatform.id (ListedPlatform.nameKey rules) index.placed
    index.providerIds.get? index.nameKey
  single : ∀ name keys, index.providerNames.get? name = some keys → ∃ key, keys = [key]
  founded : ∀ entry ∈ index.placed, ∃ founder : ListedPlatform, (founder, entry.2) ∈ index.placed ∧
    entry.2 = baseKey founder.id (founder.nameKey rules)
  stored : ∀ entry ∈ index.placed, ∃ platform, index.grouped.get? entry.2 = some platform ∧
    Shows rules platform.actions entry.1
  known : ∀ key platform, index.grouped.get? key = some platform →
    platform.key = key ∧ key ∈ index.placed.map Prod.snd ∧ (platform.actions.map (·.key)).Nodup

variable {rules} {index : PlatformIndex}

lemma baseKey_cases {id id' : Option String} {name name' : String}
    (h : baseKey id name = baseKey id' name') : id = id' ∧ (id = none → name = name') := by
  have hne : ∀ x y : String, "id:" ++ x ≠ "name:" ++ y := by
    intro x y heq
    have htoList := congrArg String.toList heq
    rw [String.toList_append, String.toList_append] at htoList
    exact absurd (List.head_eq_of_cons_eq htoList) (by decide)
  cases id with
  | none =>
    cases id' with
    | none => exact ⟨rfl, fun _ => by simpa [baseKey] using h⟩
    | some x => exact absurd h.symm (hne x name)
  | some x =>
    cases id' with
    | none => exact absurd h (hne x name')
    | some y => exact ⟨by simpa [baseKey] using h, by simp⟩

lemma keys_mergePlatformAction (action : PlatformAction) (url : Option String)
    (actions : List PlatformAction) :
    (mergePlatformAction action url actions).map (·.key) =
      if action.key ∈ actions.map (·.key) then actions.map (·.key)
      else actions.map (·.key) ++ [action.key] := by
  induction actions with
  | nil => rfl
  | cons existing actions ih =>
    rw [mergePlatformAction]
    by_cases hkey : existing.key = action.key
    · simp [hkey]
    · rw [if_neg hkey, List.map_cons, ih]
      simp only [List.map_cons, List.mem_cons, Ne.symm hkey, false_or]
      split_ifs <;> rfl

lemma nodup_mergePlatformAction {action : PlatformAction} {url : Option String}
    {actions : List PlatformAction} (h : (actions.map (·.key)).Nodup) :
    ((mergePlatformAction action url actions).map (·.key)).Nodup := by
  rw [keys_mergePlatformAction]
  split_ifs with hmem
  · exact h
  · rw [List.nodup_append_comm, List.singleton_append, List.nodup_cons]
    exact ⟨hmem, h⟩

lemma mem_addUrl {url : Option String} {urls : List String} {u : String} (h : u ∈ urls) :
    u ∈ addUrl url urls := by
  cases url with
  | none => exact h
  | some v =>
    rw [addUrl]
    split_ifs
    · exact h
    · exact List.mem_append_left _ h

lemma mem_addUrl_self {url : String} {urls : List String} : url ∈ addUrl (some url) urls := by
  rw [addUrl]
  split_ifs with hmem
  · exact hmem
  · simp

/-- The merged actions have the new address, and those they had. -/
lemma exists_mergePlatformAction (action : PlatformAction) (url : Option String)
    (actions : List PlatformAction) :
    (∃ merged ∈ mergePlatformAction action url actions, merged.key = action.key ∧
      ∀ u, url = some u → u ∈ merged.urls) ∧
      ∀ old ∈ actions, ∃ merged ∈ mergePlatformAction action url actions,
        merged.key = old.key ∧ old.urls ⊆ merged.urls := by
  induction actions with
  | nil => exact ⟨⟨_, List.mem_singleton_self _, rfl, by simp +contextual⟩, by simp⟩
  | cons existing actions ih =>
    obtain ⟨⟨merged, hmerged, hkey, hurl⟩, hold⟩ := ih
    rw [mergePlatformAction]
    split_ifs with hexisting
    · refine ⟨⟨_, List.mem_cons_self, hexisting, ?_⟩, ?_⟩
      · rintro u rfl
        exact mem_addUrl_self
      · intro old hmem
        rcases List.mem_cons.mp hmem with rfl | hmem
        · exact ⟨_, List.mem_cons_self, rfl, fun u => mem_addUrl⟩
        · exact ⟨old, List.mem_cons_of_mem _ hmem, rfl, List.Subset.refl _⟩
    · refine ⟨⟨merged, List.mem_cons_of_mem _ hmerged, hkey, hurl⟩, ?_⟩
      intro old hmem
      rcases List.mem_cons.mp hmem with rfl | hmem
      · exact ⟨old, List.mem_cons_self, rfl, List.Subset.refl _⟩
      · obtain ⟨merged, hmerged, h⟩ := hold old hmem
        exact ⟨merged, List.mem_cons_of_mem _ hmerged, h⟩

lemma get?_addProviderId (ids : OrderedMap String String) (id : Option String) (key : String) :
    (addProviderId ids id key).get? = register ids.get? id key := by
  cases id with
  | none => rfl
  | some id =>
    funext x
    rw [addProviderId, OrderedMap.get?_set, register, Function.update_apply]

lemma addProviderId_self {ids : OrderedMap String String} {id : Option String} {key : String}
    (h : id.bind ids.get? = some key) : addProviderId ids id key = ids := by
  cases id with
  | none => rfl
  | some id => exact OrderedMap.set_eq_self h

lemma nameKey_eq_some (h : Indexed rules index) {name key : String} :
    index.nameKey name = some key ↔ index.providerNames.get? name = some [key] := by
  rw [PlatformIndex.nameKey, Option.bind_eq_some_iff]
  constructor
  · rintro ⟨keys, hkeys, hhead⟩
    obtain ⟨k, rfl⟩ := h.single name keys hkeys
    rw [hkeys, Option.some_inj.mp hhead]
  · intro hkeys
    exact ⟨[key], hkeys, rfl⟩

lemma nameKey_eq_none (h : Indexed rules index) {name : String} :
    index.nameKey name = none ↔ index.providerNames.get? name = none := by
  rw [PlatformIndex.nameKey]
  cases hkeys : index.providerNames.get? name with
  | none => simp
  | some keys =>
    obtain ⟨k, rfl⟩ := h.single name keys hkeys
    simp

/-- How the key of an entry is found. -/
lemma findExistingProviderKey_eq (h : Indexed rules index) (id : Option String) (name : String) :
    findExistingProviderKey index id name =
      (id.bind index.providerIds.get?).orElse fun _ => index.nameKey name := by
  rw [findExistingProviderKey]
  cases id.bind index.providerIds.get? with
  | some key => rfl
  | none =>
    cases hkeys : index.providerNames.get? name with
    | none => simp [hkeys, PlatformIndex.nameKey]
    | some keys =>
      obtain ⟨k, rfl⟩ := h.single name keys hkeys
      simp [hkeys, PlatformIndex.nameKey]

/-- An entry without a platform gets the plain key, which is new. -/
lemma get?_baseKey (h : Indexed rules index) {entry : ListedPlatform}
    (hid : entry.id.bind index.providerIds.get? = none)
    (hname : index.nameKey (entry.nameKey rules) = none) :
    index.grouped.get? (baseKey entry.id (entry.nameKey rules)) = none := by
  by_contra hsome
  obtain ⟨platform, hplatform⟩ := Option.ne_none_iff_exists'.mp hsome
  obtain ⟨-, hmem, -⟩ := h.known _ _ hplatform
  obtain ⟨placed, hplaced, hkey⟩ := List.mem_map.mp hmem
  obtain ⟨founder, hfounder, hbase⟩ := h.founded placed hplaced
  obtain ⟨hids, hnames⟩ := baseKey_cases (hkey.symm.trans hbase)
  cases hentry : entry.id with
  | none =>
    have hnamed := h.clustered.name_of_anonymous hfounder (hids ▸ hentry)
    rw [← hnames hentry, hname] at hnamed
    cases hnamed
  | some x =>
    rw [hentry, Option.bind_some, h.clustered.id_of_mem hfounder (hids ▸ hentry)] at hid
    cases hid

lemma createProviderKey_eq (h : Indexed rules index) {entry : ListedPlatform}
    (hid : entry.id.bind index.providerIds.get? = none)
    (hname : index.nameKey (entry.nameKey rules) = none) :
    createProviderKey entry.id (entry.nameKey rules) index.grouped =
      baseKey entry.id (entry.nameKey rules) := by
  rw [createProviderKey, get?_baseKey h hid hname]
  rfl

lemma Indexed.empty : Indexed rules {} where
  clustered := .nil
  single name keys hkeys := by cases hkeys
  founded entry hentry := by cases hentry
  stored entry hentry := by cases hentry
  known key platform hplatform := by cases hplatform

/-- The actions of a platform after an entry has been merged into it. -/
def merged (rules : TextRules) (entry : ListedPlatform) (actions : List PlatformAction) :
    List PlatformAction :=
  mergePlatformAction (normalizeContentAction rules entry.rawAction)
    (getValidPlatformUrl rules entry.platform) actions

lemma shows_merged (entry : ListedPlatform) (actions : List PlatformAction) :
    Shows rules (merged rules entry actions) entry :=
  (exists_mergePlatformAction _ _ actions).1

lemma Shows.merged {entry other : ListedPlatform} {actions : List PlatformAction}
    (h : Shows rules actions other) : Shows rules (merged rules entry actions) other := by
  obtain ⟨old, hold, hkey, hurl⟩ := h
  obtain ⟨new, hnew, hnewKey, hsubset⟩ := (exists_mergePlatformAction _ _ actions).2 old hold
  exact ⟨new, hnew, hnewKey.trans hkey, fun url hu => hsubset (hurl url hu)⟩

/-- The platforms after an entry has been merged into one of them. -/
lemma Indexed.get?_grouped (h : Indexed rules index) {entry other : ListedPlatform} {key key' : String}
    {old new : NormalizedPlatform} (hold : index.grouped.get? key = some old)
    (hnew : new.actions = merged rules entry old.actions) (hmem : (other, key') ∈ index.placed) :
    ∃ platform, (index.grouped.set key new).get? key' = some platform ∧
      Shows rules platform.actions other := by
  obtain ⟨platform, hplatform, hshows⟩ := h.stored _ hmem
  rw [OrderedMap.get?_set]
  split_ifs with hkey
  · cases hold.symm.trans (hkey ▸ hplatform)
    exact ⟨new, rfl, hnew ▸ hshows.merged⟩
  · exact ⟨platform, hplatform, hshows⟩

/-- An entry joins a platform. -/
lemma Indexed.join (h : Indexed rules index) {entry : ListedPlatform} {key : String}
    (hkey : findExistingProviderKey index entry.id (entry.nameKey rules) = some key) :
    Indexed rules (placePlatform rules entry.rawAction index entry.platform) ∧
      (placePlatform rules entry.rawAction index entry.platform).placed =
        index.placed ++ [(entry, key)] := by
  have hfound := (findExistingProviderKey_eq h _ _).symm.trans hkey
  obtain ⟨other, hother, hclustered⟩ : ∃ other, (other, key) ∈ index.placed ∧
      Clustered ListedPlatform.id (ListedPlatform.nameKey rules) (index.placed ++ [(entry, key)])
        (addProviderId index.providerIds entry.id key).get? index.nameKey := by
    cases hid : entry.id.bind index.providerIds.get? with
    | some k =>
      rw [hid] at hfound
      cases hfound
      obtain ⟨x, hx, hids⟩ := Option.bind_eq_some_iff.mp hid
      obtain ⟨other, hother, -⟩ := h.clustered.exists_of_id hids
      refine ⟨other, hother, ?_⟩
      rw [addProviderId_self hid]
      exact .byId h.clustered hid
    | none =>
      rw [hid] at hfound
      obtain ⟨other, hother, -⟩ := h.clustered.exists_of_name hfound
      refine ⟨other, hother, ?_⟩
      rw [get?_addProviderId]
      exact .byName h.clustered hid hfound
  obtain ⟨platform, hplatform, -⟩ := h.stored _ hother
  obtain ⟨hplatformKey, hknown, hnodup⟩ := h.known key platform hplatform
  have hplace : placePlatform rules entry.rawAction index entry.platform =
      { index with
        grouped := index.grouped.set key
          { platform with
            logoUrl := (nonempty platform.logoUrl).orElse fun _ => nonempty entry.platform.imageUrl
            providerId := platform.providerId.orElse fun _ => entry.id
            actions := merged rules entry platform.actions }
        providerIds := addProviderId index.providerIds entry.id key
        placed := index.placed ++ [(entry, key)] } := by
    simp only [placePlatform, hkey, Option.getD_some, hplatform, merged]
  rw [hplace]
  refine ⟨?_, rfl⟩
  constructor
  · exact hclustered
  · exact h.single
  · intro placed hplaced
    rcases mem_concat.mp hplaced with hplaced | rfl
    · obtain ⟨founder, hfounder, hbase⟩ := h.founded placed hplaced
      exact ⟨founder, mem_concat.mpr (.inl hfounder), hbase⟩
    · obtain ⟨founder, hfounder, hbase⟩ := h.founded _ hother
      exact ⟨founder, mem_concat.mpr (.inl hfounder), hbase⟩
  · intro placed hplaced
    rcases mem_concat.mp hplaced with hplaced | rfl
    · exact h.get?_grouped hplatform rfl hplaced
    · exact ⟨_, by rw [OrderedMap.get?_set, if_pos rfl], shows_merged entry _⟩
  · intro key' platform' hplatform'
    rw [OrderedMap.get?_set] at hplatform'
    rw [List.map_append, List.mem_append]
    split_ifs at hplatform' with heq
    · cases hplatform'
      exact ⟨hplatformKey.trans heq.symm, .inl (heq ▸ hknown), nodup_mergePlatformAction hnodup⟩
    · obtain ⟨hkey', hmem', hnodup'⟩ := h.known key' platform' hplatform'
      exact ⟨hkey', .inl hmem', hnodup'⟩

/-- An entry founds a platform. -/
lemma Indexed.found (h : Indexed rules index) {entry : ListedPlatform}
    (hkey : findExistingProviderKey index entry.id (entry.nameKey rules) = none) :
    Indexed rules (placePlatform rules entry.rawAction index entry.platform) ∧
      (placePlatform rules entry.rawAction index entry.platform).placed =
        index.placed ++ [(entry, baseKey entry.id (entry.nameKey rules))] := by
  have hmissing := (findExistingProviderKey_eq h _ _).symm.trans hkey
  obtain ⟨hid, hname⟩ : entry.id.bind index.providerIds.get? = none ∧
      index.nameKey (entry.nameKey rules) = none := by
    cases hid : entry.id.bind index.providerIds.get? with
    | some k =>
      rw [hid] at hmissing
      cases hmissing
    | none => exact ⟨rfl, by rwa [hid] at hmissing⟩
  have hfresh := get?_baseKey h hid hname
  have hcreate := createProviderKey_eq h hid hname
  have hnames := (nameKey_eq_none h).mp hname
  generalize hbase : baseKey entry.id (entry.nameKey rules) = key at hfresh hcreate ⊢
  have hplace : placePlatform rules entry.rawAction index entry.platform =
      { grouped := index.grouped.set key
          { key, name := trim entry.platform.name, logoUrl := nonempty entry.platform.imageUrl,
            providerId := entry.id
            priority := (providerPriorities.lookup (entry.nameKey rules)).getD 500
            actions := merged rules entry [] }
        providerIds := addProviderId index.providerIds entry.id key
        providerNames := index.providerNames.set (entry.nameKey rules) [key]
        placed := index.placed ++ [(entry, key)] } := by
    simp only [placePlatform, hkey, Option.getD_none, hcreate, hfresh, merged, addProviderNameKey,
      hnames, List.not_mem_nil, if_false, List.nil_append]
  rw [hplace]
  refine ⟨?_, rfl⟩
  have hnew : key ∉ index.placed.map Prod.snd := by
    intro hmem
    obtain ⟨placed, hplaced, rfl⟩ := List.mem_map.mp hmem
    obtain ⟨platform, hplatform, -⟩ := h.stored placed hplaced
    cases hfresh.symm.trans hplatform
  constructor
  · have hnameKey : PlatformIndex.nameKey { index with
        providerNames := index.providerNames.set (entry.nameKey rules) [key] } =
          Function.update index.nameKey (entry.nameKey rules) (some key) := by
      funext name
      rw [PlatformIndex.nameKey, OrderedMap.get?_set, Function.update_apply]
      split_ifs <;> rfl
    have hclustered := Clustered.new h.clustered hid hname hnew
    rwa [← get?_addProviderId, ← hnameKey] at hclustered
  · intro name keys hkeys
    rw [OrderedMap.get?_set] at hkeys
    split_ifs at hkeys
    · exact ⟨key, (Option.some_inj.mp hkeys).symm⟩
    · exact h.single name keys hkeys
  · intro placed hplaced
    rcases mem_concat.mp hplaced with hplaced | rfl
    · obtain ⟨founder, hfounder, hfounded⟩ := h.founded placed hplaced
      exact ⟨founder, mem_concat.mpr (.inl hfounder), hfounded⟩
    · exact ⟨entry, hplaced, hbase.symm⟩
  · intro placed hplaced
    rw [OrderedMap.get?_set]
    rcases mem_concat.mp hplaced with hplaced | rfl
    · have hne : placed.2 ≠ key := fun heq => hnew (heq ▸ List.mem_map_of_mem hplaced)
      rw [if_neg hne]
      exact h.stored placed hplaced
    · exact ⟨_, if_pos rfl, shows_merged entry []⟩
  · intro key' platform' hplatform'
    rw [OrderedMap.get?_set] at hplatform'
    rw [List.map_append, List.mem_append]
    split_ifs at hplatform' with heq
    · cases hplatform'
      exact ⟨heq.symm, .inr (by simp [heq]), nodup_mergePlatformAction List.nodup_nil⟩
    · obtain ⟨hkey', hmem', hnodup'⟩ := h.known key' platform' hplatform'
      exact ⟨hkey', .inl hmem', hnodup'⟩

/-! ### The groups -/

/-- One more entry. -/
lemma Indexed.place (h : Indexed rules index) (entry : ListedPlatform) :
    Indexed rules (placePlatform rules entry.rawAction index entry.platform) ∧
      ∃ key, (placePlatform rules entry.rawAction index entry.platform).placed =
        index.placed ++ [(entry, key)] := by
  cases hkey : findExistingProviderKey index entry.id (entry.nameKey rules) with
  | none => exact ⟨(h.found hkey).1, _, (h.found hkey).2⟩
  | some key => exact ⟨(h.join hkey).1, key, (h.join hkey).2⟩

/-- The loops go through the listing. -/
lemma groupPlatforms_eq (platforms : PlatformMap) :
    groupPlatforms rules platforms = (listing rules platforms).foldl
      (fun index entry => placePlatform rules entry.rawAction index entry.platform) {} := by
  rw [groupPlatforms, listing, List.foldl_flatMap]
  simp only [List.foldl_map, List.foldl_filter]

lemma indexed_foldl (entries : List ListedPlatform) (h : Indexed rules index) :
    Indexed rules (entries.foldl
      (fun index entry => placePlatform rules entry.rawAction index entry.platform) index) ∧
      (entries.foldl (fun index entry => placePlatform rules entry.rawAction index entry.platform)
        index).placed.map Prod.fst = index.placed.map Prod.fst ++ entries := by
  induction entries generalizing index with
  | nil => exact ⟨h, (List.append_nil _).symm⟩
  | cons entry entries ih =>
    obtain ⟨hplace, key, hplaced⟩ := h.place entry
    obtain ⟨hindexed, hentries⟩ := ih hplace
    refine ⟨hindexed, hentries.trans ?_⟩
    rw [hplaced, List.map_append, List.append_assoc]
    rfl

variable (rules) in
lemma indexed_groupPlatforms (platforms : PlatformMap) :
    Indexed rules (groupPlatforms rules platforms) := by
  rw [groupPlatforms_eq]
  exact (indexed_foldl _ .empty).1

variable (rules) in
lemma placed_groupPlatforms (platforms : PlatformMap) :
    (groupPlatforms rules platforms).placed.map Prod.fst = listing rules platforms := by
  rw [groupPlatforms_eq]
  exact (indexed_foldl _ .empty).2

end Denn.Web
