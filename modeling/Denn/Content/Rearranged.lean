import Denn.Content.State
import Denn.Core.Agreement
import Denn.Core.CanonicalText
import Denn.Core.Constraint

/-!
# Rearranged payloads

What the hash of the moderation state does not see: the order and the repetitions of names, the
order of credits, tracks and episodes, the whitespace of texts, and whatever is not on the allowlist
of the content type. And what it does see: everything else.
-/

namespace Denn

open Core

/-! ### Payloads with the same texts -/

/-- Texts with the same words, however they are spaced. -/
inductive SameText : Json → Json → Prop where
  | refl (value : Json) : SameText value value
  | words {s s' : String} (h : splitWords s = splitWords s') : SameText (.str s) (.str s')

/-- Lists whose elements correspond. -/
inductive SameList (R : List Json → List Json → Prop) : Json → Json → Prop where
  | refl (value : Json) : SameList R value value
  | arr {values values' : List Json} (h : R values values') : SameList R (.arr values) (.arr values')

/-- Names in any order and any number. -/
def SameNames : Json → Json → Prop := SameList (SameMembers SameText)

/-- Only the name of a person counts. -/
inductive SamePerson : Json → Json → Prop where
  | text {person person' : Json} (h : SameText person person') : SamePerson person person'
  | named {fields fields' : List (String × Json)}
    (name : SameText ((Json.obj fields).get "name") ((Json.obj fields').get "name")) :
    SamePerson (.obj fields) (.obj fields')

def SamePeople : Json → Json → Prop := SameList (SameMembers SamePerson)

/-- Of a credit, the name counts, and the role or, where that is empty, the type. -/
inductive SameCredit : Json → Json → Prop where
  | text {credit credit' : Json} (h : SameText credit credit') : SameCredit credit credit'
  | named {fields fields' : List (String × Json)}
    (name : SameText ((Json.obj fields).get "name") ((Json.obj fields').get "name"))
    (role : SameText ((Json.obj fields).get "role") ((Json.obj fields').get "role"))
    (truthy : ((Json.obj fields).get "role").truthy = ((Json.obj fields').get "role").truthy)
    (type : SameText ((Json.obj fields).get "type") ((Json.obj fields').get "type")) :
    SameCredit (.obj fields) (.obj fields')

/-- Credits in any order. -/
def SameCredits : Json → Json → Prop := SameList (SameRecords SameCredit)

inductive SameTrack : Json → Json → Prop where
  | refl (track : Json) : SameTrack track track
  | fields {fields fields' : List (String × Json)}
    (title : SameText ((Json.obj fields).get "title") ((Json.obj fields').get "title"))
    (authors : SameCredits ((Json.obj fields).get "authors") ((Json.obj fields').get "authors"))
    (explicit : (Json.obj fields).get "explicit" = (Json.obj fields').get "explicit") :
    SameTrack (.obj fields) (.obj fields')

inductive SameEpisode : Json → Json → Prop where
  | refl (episode : Json) : SameEpisode episode episode
  | fields {fields fields' : List (String × Json)}
    (title : SameText ((Json.obj fields).get "title") ((Json.obj fields').get "title"))
    (description :
      SameText ((Json.obj fields).get "description") ((Json.obj fields').get "description")) :
    SameEpisode (.obj fields) (.obj fields')

/-- The fields on the allowlist of a content type correspond. -/
def SameTypeSpecific (contentType : ContentType) (payload payload' : Json) : Prop :=
  match contentType with
  | .movie | .tvShow =>
    SameText (payload.get "original_title") (payload'.get "original_title") ∧
    SameText (payload.get "tagline") (payload'.get "tagline") ∧
    SameNames (payload.get "genres") (payload'.get "genres") ∧
    SameNames (payload.get "keywords") (payload'.get "keywords")
  | .game =>
    SameNames (payload.get "genres") (payload'.get "genres") ∧
    SameNames (payload.get "themes") (payload'.get "themes") ∧
    SameNames (payload.get "game_modes") (payload'.get "game_modes") ∧
    SameText (payload.get "game_type") (payload'.get "game_type") ∧
    SameText (payload.get "series") (payload'.get "series") ∧
    SameNames (payload.get "keywords") (payload'.get "keywords")
  | .season =>
    SameText (payload.get "tv_show_name") (payload'.get "tv_show_name") ∧
    SameList (SameRecords SameEpisode) (payload.get "episodes") (payload'.get "episodes")
  | .album =>
    SamePeople (payload.get "authors") (payload'.get "authors") ∧
    SameList (SameRecords SameTrack) (payload.get "tracks") (payload'.get "tracks")
  | .book =>
    SamePeople (payload.get "authors") (payload'.get "authors") ∧
    SameNames (payload.get "subjects") (payload'.get "subjects")

/-- The payloads differ in order and layout, and in fields that are not on the allowlist. -/
inductive Rearranged (contentType : ContentType) : Json → Json → Prop where
  | payloads {fields fields' : List (String × Json)}
    (title : SameText ((Json.obj fields).get "title") ((Json.obj fields').get "title"))
    (description :
      SameText ((Json.obj fields).get "description") ((Json.obj fields').get "description"))
    (typeSpecific : SameTypeSpecific contentType (.obj fields) (.obj fields')) :
    Rearranged contentType (.obj fields) (.obj fields')

/-- The name that an entry of a list of names stands for. -/
def nameText : Json → Option String
  | .str s => some (collapse s)
  | _ => none

/-- The distinct entries of a list of names. -/
def distinctNames : Json → List String
  | .arr values => ((values.filterMap nameText).filter (· ≠ "")).eraseDups
  | _ => []

/-- The lists that are cut have no more distinct entries than are kept. -/
def WithinCaps (contentType : ContentType) (payload : Json) : Prop :=
  match contentType with
  | .movie | .tvShow | .game => (distinctNames (payload.get "keywords")).length ≤ maxKeywords
  | .book => (distinctNames (payload.get "subjects")).length ≤ maxSubjects
  | .season | .album => True

/-! ### Texts and names -/

section Normalized

variable {value value' : Json} {field : String} {names names' : List String} {limit : Option ℕ}

lemma normalizeText_same (h : SameText value value') (field : String) :
    normalizeText value field = normalizeText value' field := by
  cases h with
  | refl => rfl
  | words h => rw [normalizeText, normalizeText, collapse, collapse, h]

lemma distinct_perm (h : ∀ name, name ∈ names ↔ name ∈ names') :
    (names.filter (· ≠ "")).eraseDups.Perm (names'.filter (· ≠ "")).eraseDups := by
  rw [List.perm_ext_iff_of_nodup (nodup_eraseDups _) (nodup_eraseDups _)]
  intro name
  rw [List.mem_eraseDups, List.mem_eraseDups, List.mem_filter, List.mem_filter, h]

lemma sorted_eq (hperm : names.Perm names') :
    names.insertionSort (· ≤ ·) = names'.insertionSort (· ≤ ·) :=
  insertionSort_eq_of_perm id Function.injective_id hperm

/-- The names of a list all of whose entries are texts. -/
lemma filterMap_nameText {values : List Json} {f : Json → Except ModerationStateError String}
    (hf : ∀ value name, f value = .ok name → nameText value = some name)
    (h : values.mapM f = .ok names) : values.filterMap nameText = names := by
  rw [mapM_eq_ok_iff] at h
  induction h with
  | nil => rfl
  | cons hvalue _ ih => rw [List.filterMap_cons_some (hf _ _ hvalue), ih]

lemma normalizeNames_same (h : SameNames value value')
    (hcap : ∀ n ∈ limit, (distinctNames value).length ≤ n) (field : String) :
    SameResult (normalizeNames value field limit) (normalizeNames value' field limit) := by
  cases h with
  | refl => exact .refl _
  | @arr values values' hsame =>
    simp only [normalizeNames, sequence, ok_bind]
    refine sameResult_mapM_of_sameMembers ?_ ?_ hsame
    · intro x y hxy
      cases hxy with
      | refl => exact .refl _
      | words hwords => exact .of_eq (by simp only [collapse, hwords])
    · intro names names' hnames hmem
      have hdistinct : distinctNames (.arr values) = (names.filter (· ≠ "")).eraseDups := by
        rw [distinctNames, filterMap_nameText ?_ hnames]
        intro value name hname
        cases value with
        | str s => exact congrArg some (Except.ok.inj hname)
        | _ => cases hname
      have hperm := distinct_perm hmem
      have hlimit : ∀ names : List String, names.length = (distinctNames (.arr values)).length →
          names.take (limit.getD names.length) = names := by
        intro names hlength
        cases limit with
        | none => exact List.take_length
        | some n =>
          refine List.take_of_length_le ?_
          rw [hlength]
          exact hcap n rfl
      rw [hlimit _ (by rw [hdistinct]), hlimit _ (by rw [hdistinct, hperm.length_eq]),
        sorted_eq hperm]

lemma normalizePeopleNames_same (h : SamePeople value value') (field : String) :
    SameResult (normalizePeopleNames value field) (normalizePeopleNames value' field) := by
  cases h with
  | refl => exact .refl _
  | @arr values values' hsame =>
    simp only [normalizePeopleNames, sequence, ok_bind]
    refine sameResult_mapM_of_sameMembers ?_ ?_ hsame
    · intro x y hxy
      cases hxy with
      | text htext =>
        cases htext with
        | refl => exact .refl _
        | words hwords => exact .of_eq (normalizeText_same (.words hwords) field)
      | named hname => exact .of_eq (normalizeText_same hname field)
    · intro names names' _ hmem
      rw [sorted_eq (distinct_perm hmem)]

/-! ### Records -/

lemma SameText.or {role role' type type' : Json} (hrole : SameText role role')
    (htruthy : role.truthy = role'.truthy) (htype : SameText type type') :
    SameText (role.or type) (role'.or type') := by
  rw [Json.or, Json.or, htruthy]
  split_ifs
  · exact hrole
  · exact htype

lemma normalizeCredit_same {credit credit' : Json} (h : SameCredit credit credit')
    (field : String) : normalizeCredit field credit = normalizeCredit field credit' := by
  cases h with
  | text htext =>
    cases htext with
    | refl => rfl
    | words hwords =>
      simp only [normalizeCredit, ok_bind, normalizeText_same (.words hwords)]
  | named hname hrole htruthy htype =>
    simp only [normalizeCredit, ok_bind, normalizeText_same hname,
      normalizeText_same (hrole.or htruthy htype)]

lemma sortKey_injective : Function.Injective Credit.sortKey := by
  intro credit credit' h
  obtain ⟨hname, hrole⟩ := Prod.mk.inj (toLex_inj.mp h)
  cases credit
  cases credit'
  simp_all

lemma normalizeCredits_same (h : SameCredits value value') (field : String) :
    SameResult (normalizeCredits value field) (normalizeCredits value' field) := by
  cases h with
  | refl => exact .refl _
  | arr hsame =>
    simp only [normalizeCredits, sequence, ok_bind]
    refine sameResult_mapM_of_sameRecords ?_ ?_ hsame
    · exact fun x y hxy => .of_eq (normalizeCredit_same hxy field)
    · intro credits credits' hperm
      rw [insertionSort_eq_of_perm _ sortKey_injective (hperm.filter _)]

lemma normalizeEpisode_same {episode episode' : Json} (h : SameEpisode episode episode') :
    normalizeEpisode episode = normalizeEpisode episode' := by
  cases h with
  | refl => rfl
  | fields htitle hdescription =>
    simp only [normalizeEpisode, normalizeText_same htitle, normalizeText_same hdescription]

lemma normalizeEpisodes_same (h : SameList (SameRecords SameEpisode) value value') :
    SameResult (normalizeEpisodes value) (normalizeEpisodes value') := by
  cases h with
  | refl => exact .refl _
  | arr hsame =>
    simp only [normalizeEpisodes, sequence, ok_bind]
    refine sameResult_mapM_of_sameRecords ?_ ?_ hsame
    · exact fun x y hxy => .of_eq (normalizeEpisode_same hxy)
    · intro episodes episodes' hperm
      have hkey : Function.Injective fun e : EpisodeText => toLex (e.title, e.description) := by
        intro episode episode' h
        obtain ⟨htitle, hdescription⟩ := Prod.mk.inj (toLex_inj.mp h)
        cases episode
        cases episode'
        simp_all
      rw [insertionSort_eq_of_perm _ hkey (hperm.filter _)]

lemma normalizeTrack_same {track track' : Json} (h : SameTrack track track') :
    SameResult (normalizeTrack track) (normalizeTrack track') := by
  cases h with
  | refl => exact .refl _
  | fields htitle hauthors hexplicit =>
    simp only [normalizeTrack, normalizeText_same htitle, hexplicit]
    refine SameResult.bind (.refl _) fun title => ?_
    exact SameResult.bind (normalizeCredits_same hauthors _) fun credits => .refl _

lemma trackKey_injective : Function.Injective TrackText.sortKey := by
  intro track track' h
  obtain ⟨htitle, hrest⟩ := Prod.mk.inj (toLex_inj.mp h)
  obtain ⟨hcredits, hadvisory⟩ := Prod.mk.inj (toLex_inj.mp hrest)
  have hcredits := List.map_injective_iff.mpr sortKey_injective hcredits
  cases track
  cases track'
  simp_all

lemma normalizeTracks_same (h : SameList (SameRecords SameTrack) value value') :
    SameResult (normalizeTracks value) (normalizeTracks value') := by
  cases h with
  | refl => exact .refl _
  | arr hsame =>
    simp only [normalizeTracks, sequence, ok_bind]
    refine sameResult_mapM_of_sameRecords (fun x y hxy => normalizeTrack_same hxy) ?_ hsame
    intro tracks tracks' hperm
    rw [insertionSort_eq_of_perm _ trackKey_injective (hperm.filter _)]

/-! ### States -/

variable {contentType : ContentType} {payload payload' : Json}

lemma normalizeTypeSpecific_same (hcaps : WithinCaps contentType payload)
    (h : SameTypeSpecific contentType payload payload') :
    SameResult (normalizeTypeSpecific contentType payload)
      (normalizeTypeSpecific contentType payload') := by
  have hcap : ∀ {cap : ℕ} {values : Json}, (distinctNames values).length ≤ cap →
      ∀ n ∈ some cap, (distinctNames values).length ≤ n := by
    intro cap values hvalues n hn
    obtain rfl := Option.mem_some_iff.mp hn
    exact hvalues
  have hscreen : ∀ kind : String,
      (distinctNames (payload.get "keywords")).length ≤ maxKeywords →
      SameTypeSpecific .movie payload payload' →
      SameResult (normalizeScreen kind payload) (normalizeScreen kind payload') := by
    rintro kind hcaps ⟨htitle, htagline, hgenres, hkeywords⟩
    simp only [normalizeScreen, normalizeText_same htitle, normalizeText_same htagline]
    refine SameResult.bind (.refl _) fun _ => SameResult.bind (.refl _) fun _ => ?_
    refine SameResult.bind (normalizeNames_same hgenres (by simp) _) fun _ => ?_
    exact SameResult.bind (normalizeNames_same hkeywords (hcap hcaps) _) fun _ => .refl _
  cases contentType with
  | movie => exact hscreen "movie" hcaps h
  | tvShow => exact hscreen "tv_show" hcaps h
  | game =>
    obtain ⟨hgenres, hthemes, hmodes, htype, hseries, hkeywords⟩ := h
    simp only [normalizeTypeSpecific, normalizeGame, normalizeText_same htype,
      normalizeText_same hseries]
    refine SameResult.bind (normalizeNames_same hgenres (by simp) _) fun _ => ?_
    refine SameResult.bind (normalizeNames_same hthemes (by simp) _) fun _ => ?_
    refine SameResult.bind (normalizeNames_same hmodes (by simp) _) fun _ => ?_
    refine SameResult.bind (.refl _) fun _ => SameResult.bind (.refl _) fun _ => ?_
    exact SameResult.bind (normalizeNames_same hkeywords (hcap hcaps) _) fun _ => .refl _
  | season =>
    obtain ⟨hname, hepisodes⟩ := h
    simp only [normalizeTypeSpecific, normalizeSeason, normalizeText_same hname]
    refine SameResult.bind (.refl _) fun _ => ?_
    exact SameResult.bind (normalizeEpisodes_same hepisodes) fun _ => .refl _
  | album =>
    obtain ⟨hauthors, htracks⟩ := h
    simp only [normalizeTypeSpecific, normalizeAlbum]
    refine SameResult.bind (normalizePeopleNames_same hauthors _) fun _ => ?_
    exact SameResult.bind (normalizeTracks_same htracks) fun _ => .refl _
  | book =>
    obtain ⟨hauthors, hsubjects⟩ := h
    simp only [normalizeTypeSpecific, normalizeBook]
    refine SameResult.bind (normalizePeopleNames_same hauthors _) fun _ => ?_
    exact SameResult.bind (normalizeNames_same hsubjects (hcap hcaps) _) fun _ => .refl _

/-- Rearranged payloads have the same state, if they have one. -/
theorem buildModerationState_rearranged (provider : SourceAPI)
    (hcaps : WithinCaps contentType payload) (h : Rearranged contentType payload payload') :
    SameResult (buildModerationState provider contentType payload)
      (buildModerationState provider contentType payload') := by
  cases h with
  | payloads htitle hdescription htypeSpecific =>
    simp only [buildModerationState, normalizeText_same htitle, normalizeText_same hdescription]
    refine SameResult.bind (.refl _) fun _ => SameResult.bind (.refl _) fun _ => ?_
    exact SameResult.bind (normalizeTypeSpecific_same hcaps htypeSpecific) fun _ => .refl _

end Normalized

/-! ### Shapes of states -/

section Shapes

open TextTree

def nameTrees : Set TextTree := listOf anyText

def creditTrees : Set TextTree := objectOf [("name", anyText), ("role", anyText)]

def episodeTrees : Set TextTree := objectOf [("title", anyText), ("description", anyText)]

def trackTrees : Set TextTree :=
  objectOf [("title", anyText), ("credits", listOf creditTrees), ("parental_advisory", anyText)]

def screenTrees : Set TextTree :=
  objectOf [("original_title", anyText), ("tagline", anyText), ("genres", nameTrees),
    ("keywords", nameTrees)]

/-- The trees of the fields of a content type. -/
def typeSpecificTrees : ContentType → Set TextTree
  | .movie => objectOf [("movie", screenTrees)]
  | .tvShow => objectOf [("tv_show", screenTrees)]
  | .game => objectOf [("game", objectOf [("genres", nameTrees), ("themes", nameTrees),
      ("game_modes", nameTrees), ("game_type", anyText), ("series", anyText),
      ("keywords", nameTrees)])]
  | .season => objectOf [("season", objectOf [("parent_show_name", anyText),
      ("episodes", listOf episodeTrees)])]
  | .album => objectOf [("album", objectOf [("artists", nameTrees),
      ("tracks", listOf trackTrees)])]
  | .book => objectOf [("book", objectOf [("authors", nameTrees), ("subjects", nameTrees)])]

lemma injOn_nameTrees : Set.InjOn dumps nameTrees := injOn_listOf injOn_anyText

lemma injOn_creditTrees : Set.InjOn dumps creditTrees :=
  injOn_objectOf (by decide) (by simp [injOn_anyText])

lemma injOn_episodeTrees : Set.InjOn dumps episodeTrees :=
  injOn_objectOf (by decide) (by simp [injOn_anyText])

lemma injOn_trackTrees : Set.InjOn dumps trackTrees :=
  injOn_objectOf (by decide) (by simp [injOn_anyText, injOn_listOf injOn_creditTrees])

lemma injOn_screenTrees : Set.InjOn dumps screenTrees :=
  injOn_objectOf (by decide) (by simp [injOn_anyText, injOn_nameTrees])

lemma injOn_typeSpecificTrees (contentType : ContentType) :
    Set.InjOn dumps (typeSpecificTrees contentType) := by
  have hone : ∀ (kind : String) (trees : Set TextTree), Set.InjOn dumps trees →
      Set.InjOn dumps (objectOf [(kind, trees)]) := fun kind trees htrees =>
    injOn_objectOf (List.nodup_singleton kind) (by simpa using htrees)
  cases contentType with
  | movie => exact hone _ _ injOn_screenTrees
  | tvShow => exact hone _ _ injOn_screenTrees
  | game =>
    exact hone _ _ (injOn_objectOf (by decide) (by simp [injOn_anyText, injOn_nameTrees]))
  | season =>
    exact hone _ _ (injOn_objectOf (by decide)
      (by simp [injOn_anyText, injOn_listOf injOn_episodeTrees]))
  | album =>
    exact hone _ _ (injOn_objectOf (by decide)
      (by simp [injOn_nameTrees, injOn_listOf injOn_trackTrees]))
  | book => exact hone _ _ (injOn_objectOf (by decide) (by simp [injOn_nameTrees]))

/-! ### States of a shape -/

lemma texts_mem (names : List String) : texts names ∈ nameTrees := by
  refine ⟨_, rfl, fun value hvalue => ?_⟩
  obtain ⟨name, -, rfl⟩ := List.mem_map.mp hvalue
  exact ⟨name, rfl⟩

lemma list_map_mem {α : Type*} {trees : Set TextTree} {toTree : α → TextTree}
    (h : ∀ a, toTree a ∈ trees) (l : List α) : list (l.map toTree) ∈ listOf trees := by
  refine ⟨_, rfl, fun value hvalue => ?_⟩
  obtain ⟨a, -, rfl⟩ := List.mem_map.mp hvalue
  exact h a

lemma credit_toTree_mem (credit : Credit) : credit.toTree ∈ creditTrees :=
  ⟨_, rfl, .cons ⟨rfl, _, rfl⟩ (.cons ⟨rfl, _, rfl⟩ .nil)⟩

lemma episode_toTree_mem (episode : EpisodeText) : episode.toTree ∈ episodeTrees :=
  ⟨_, rfl, .cons ⟨rfl, _, rfl⟩ (.cons ⟨rfl, _, rfl⟩ .nil)⟩

lemma track_toTree_mem (track : TrackText) : track.toTree ∈ trackTrees :=
  ⟨_, rfl, .cons ⟨rfl, _, rfl⟩ (.cons ⟨rfl, list_map_mem credit_toTree_mem _⟩
    (.cons ⟨rfl, _, rfl⟩ .nil))⟩

variable {payload payload' : Json} {t : TextTree}

lemma normalizeScreen_mem {kind : String} (h : normalizeScreen kind payload = .ok t) :
    t ∈ objectOf [(kind, screenTrees)] := by
  obtain ⟨originalTitle, -, h⟩ := bind_eq_ok h
  obtain ⟨tagline, -, h⟩ := bind_eq_ok h
  obtain ⟨genres, -, h⟩ := bind_eq_ok h
  obtain ⟨keywords, -, h⟩ := bind_eq_ok h
  obtain rfl := Except.ok.inj h
  exact ⟨_, rfl, .cons ⟨rfl, _, rfl, .cons ⟨rfl, _, rfl⟩ (.cons ⟨rfl, _, rfl⟩
    (.cons ⟨rfl, texts_mem _⟩ (.cons ⟨rfl, texts_mem _⟩ .nil)))⟩ .nil⟩

lemma normalizeTypeSpecific_mem {contentType : ContentType}
    (h : normalizeTypeSpecific contentType payload = .ok t) :
    t ∈ typeSpecificTrees contentType := by
  cases contentType with
  | movie => exact normalizeScreen_mem h
  | tvShow => exact normalizeScreen_mem h
  | game =>
    obtain ⟨genres, -, h⟩ := bind_eq_ok h
    obtain ⟨themes, -, h⟩ := bind_eq_ok h
    obtain ⟨gameModes, -, h⟩ := bind_eq_ok h
    obtain ⟨gameType, -, h⟩ := bind_eq_ok h
    obtain ⟨series, -, h⟩ := bind_eq_ok h
    obtain ⟨keywords, -, h⟩ := bind_eq_ok h
    obtain rfl := Except.ok.inj h
    exact ⟨_, rfl, .cons ⟨rfl, _, rfl, .cons ⟨rfl, texts_mem _⟩ (.cons ⟨rfl, texts_mem _⟩
      (.cons ⟨rfl, texts_mem _⟩ (.cons ⟨rfl, _, rfl⟩ (.cons ⟨rfl, _, rfl⟩
        (.cons ⟨rfl, texts_mem _⟩ .nil)))))⟩ .nil⟩
  | season =>
    obtain ⟨parentShowName, -, h⟩ := bind_eq_ok h
    obtain ⟨episodes, -, h⟩ := bind_eq_ok h
    obtain rfl := Except.ok.inj h
    exact ⟨_, rfl, .cons ⟨rfl, _, rfl, .cons ⟨rfl, _, rfl⟩
      (.cons ⟨rfl, list_map_mem episode_toTree_mem _⟩ .nil)⟩ .nil⟩
  | album =>
    obtain ⟨artists, -, h⟩ := bind_eq_ok h
    obtain ⟨tracks, -, h⟩ := bind_eq_ok h
    obtain rfl := Except.ok.inj h
    exact ⟨_, rfl, .cons ⟨rfl, _, rfl, .cons ⟨rfl, texts_mem _⟩
      (.cons ⟨rfl, list_map_mem track_toTree_mem _⟩ .nil)⟩ .nil⟩
  | book =>
    obtain ⟨authors, -, h⟩ := bind_eq_ok h
    obtain ⟨subjects, -, h⟩ := bind_eq_ok h
    obtain rfl := Except.ok.inj h
    exact ⟨_, rfl, .cons ⟨rfl, _, rfl, .cons ⟨rfl, texts_mem _⟩
      (.cons ⟨rfl, texts_mem _⟩ .nil)⟩ .nil⟩

/-- The keys of a state. -/
def stateShape : List (String × Set TextTree) :=
  [("provider", .univ), ("content_type", .univ), ("title", .univ), ("description", .univ),
    ("type_specific", .univ)]

/-- A state consists of texts and the tree of its content type. -/
lemma buildModerationState_eq_ok {provider : SourceAPI} {contentType : ContentType}
    (h : buildModerationState provider contentType payload = .ok t) :
    ∃ title description typeSpecific, typeSpecific ∈ typeSpecificTrees contentType ∧
      t = .object [("provider", .text provider.value), ("content_type", .text contentType.value),
        ("title", .text title), ("description", .text description),
        ("type_specific", typeSpecific)] := by
  cases payload with
  | obj fields =>
    obtain ⟨title, -, h⟩ := bind_eq_ok h
    obtain ⟨description, -, h⟩ := bind_eq_ok h
    obtain ⟨typeSpecific, htypeSpecific, h⟩ := bind_eq_ok h
    exact ⟨title, description, typeSpecific, normalizeTypeSpecific_mem htypeSpecific,
      (Except.ok.inj h).symm⟩
  | _ => cases h

/-- States with the same canonical text are the same. -/
theorem dumps_moderationState_inj {provider provider' : SourceAPI}
    {contentType contentType' : ContentType} {state state' : TextTree}
    (h : buildModerationState provider contentType payload = .ok state)
    (h' : buildModerationState provider' contentType' payload' = .ok state')
    (hdumps : state.dumps = state'.dumps) : state = state' := by
  obtain ⟨title, description, typeSpecific, hmem, rfl⟩ := buildModerationState_eq_ok h
  obtain ⟨title', description', typeSpecific', hmem', rfl⟩ := buildModerationState_eq_ok h'
  have hshape : ∀ a b c d e : TextTree, HasShape stateShape
      [("provider", a), ("content_type", b), ("title", c), ("description", d),
        ("type_specific", e)] := fun a b c d e =>
    .cons ⟨rfl, trivial⟩ (.cons ⟨rfl, trivial⟩ (.cons ⟨rfl, trivial⟩ (.cons ⟨rfl, trivial⟩
      (.cons ⟨rfl, trivial⟩ .nil))))
  have hfields := map_dumps_inj (by decide) (hshape _ _ _ _ _) (hshape _ _ _ _ _) hdumps
  simp only [List.map_cons, List.map_nil, List.cons.injEq, Prod.mk.injEq, true_and, and_true]
    at hfields
  obtain ⟨hprovider, hcontentType, htitle, hdescription, htypeSpecific⟩ := hfields
  have htext : ∀ {s s' : String}, (text s).dumps = (text s').dumps → text s = text s' :=
    fun heq => injOn_anyText ⟨_, rfl⟩ ⟨_, rfl⟩ heq
  have hvalue := htext hcontentType
  obtain rfl : contentType = contentType' := ContentType.value_inj (TextTree.text.inj hvalue)
  rw [htext hprovider, htext htitle, htext hdescription,
    injOn_typeSpecificTrees contentType hmem hmem' htypeSpecific]

end Shapes

/-- The hash of the moderation state of a payload. -/
def moderationStateHash (provider : SourceAPI) (contentType : ContentType) (payload : Json) :
    Except ModerationStateError String :=
  (buildModerationState provider contentType payload).map hashModerationState

/-- The hash does not depend on order and layout, and different states have different texts. -/
theorem moderationStateHash_canonical (provider : SourceAPI) (contentType : ContentType)
    (payload payload' : Json) :
    (WithinCaps contentType payload → Rearranged contentType payload payload' →
      SameResult (moderationStateHash provider contentType payload)
        (moderationStateHash provider contentType payload')) ∧
    ∀ (provider' : SourceAPI) (contentType' : ContentType) (state state' : TextTree),
      buildModerationState provider contentType payload = .ok state →
      buildModerationState provider' contentType' payload' = .ok state' →
      state ≠ state' → state.dumps ≠ state'.dumps := by
  constructor
  · intro hcaps h
    exact (buildModerationState_rearranged provider hcaps h).map hashModerationState
  · intro provider' contentType' state state' hstate hstate' hne hdumps
    exact hne (dumps_moderationState_inj hstate hstate' hdumps)

/-- Two imports of a book with its subjects in another order, one of them twice, spaced differently,
    and another identifier. -/
theorem moderationStateHash_book : SameResult
    (moderationStateHash .openlibrary .book (.obj [("title", .str "The Castle"), ("id", .int 1),
      ("subjects", .strings ["Modern  fiction", "Law"])]))
    (moderationStateHash .openlibrary .book (.obj [("title", .str " The Castle "), ("id", .int 2),
      ("subjects", .strings ["Law", "Modern fiction", "Law"])])) := by
  have hcaps : (distinctNames (.strings ["Modern  fiction", "Law"])).length ≤ maxSubjects := by
    decide +kernel
  refine (moderationStateHash_canonical _ _ _ _).1 hcaps (.payloads ?_ ?_ ⟨?_, ?_⟩)
  · exact .words (by decide +kernel)
  · exact .refl _
  · exact .refl _
  · have hwords : SameText (.str "Modern  fiction") (.str "Modern fiction") :=
      .words (by decide +kernel)
    refine .arr ⟨?_, ?_⟩
    · simp only [List.map_cons, List.map_nil, List.forall_mem_cons]
      exact ⟨⟨_, by simp, hwords⟩, ⟨_, by simp, .refl (.str "Law")⟩, by simp⟩
    · simp only [List.map_cons, List.map_nil, List.forall_mem_cons]
      exact ⟨⟨_, by simp, .refl (.str "Law")⟩, ⟨_, by simp, hwords⟩,
        ⟨_, by simp, .refl (.str "Law")⟩, by simp⟩

end Denn
