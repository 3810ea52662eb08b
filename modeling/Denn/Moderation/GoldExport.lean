import Denn.Moderation.GoldCases

/-!
# The export of gold cases

The export of evaluation candidates builds the moderation state of each item and asks the schema
whether it would take the case. The state builder and the schema describe the same nested shape, so
only a prohibited text makes an item invalid.
-/

namespace Denn.Core.TextTree

lemma toJsonList_eq_map (values : List TextTree) : toJsonList values = values.map toJson := by
  induction values with
  | nil => rfl
  | cons value values ih => rw [toJsonList, ih, List.map_cons]

lemma toJsonFields_eq_map (fields : List (String × TextTree)) :
    toJsonFields fields = fields.map fun field => (field.1, field.2.toJson) := by
  induction fields with
  | nil => rfl
  | cons field fields ih => rw [toJsonFields, ih, List.map_cons]

lemma leavesList_eq_flatMap (values : List TextTree) :
    leavesList values = values.flatMap leaves := by
  induction values with
  | nil => rfl
  | cons value values ih => rw [leavesList, ih, List.flatMap_cons]

lemma leavesFields_eq_flatMap (fields : List (String × TextTree)) :
    leavesFields fields = fields.flatMap fun field => field.2.leaves := by
  induction fields with
  | nil => rfl
  | cons field fields ih => rw [leavesFields, ih, List.flatMap_cons]

end Denn.Core.TextTree

namespace Denn.Moderation

open Denn.Core

/-! ### The export -/

/-- An item of the catalog, with what `from_local` returns for it. -/
structure CatalogItem where
  pk : ℕ
  sourceAPI : SourceAPI
  contentType : ContentType
  payload : Json

/-- The value is `True`. -/
def isTrue : Json → Bool
  | .bool b => b
  | _ => false

/-- `_provider_explicit`. -/
def providerExplicit (item : CatalogItem) : Json :=
  let marked := match item.sourceAPI, item.contentType with
    | .tmdb, .movie => isTrue (item.payload.get "adult")
    | .tmdb, .tvShow => isTrue (item.payload.get "adult")
    | .igdb, .game =>
      match item.payload.get "age_ratings" with
      | .arr ratings => ratings.any fun rating =>
        textIn (rating.get "organization") ["ESRB"] && textIn (rating.get "rating") ["AO"]
      | _ => false
    | _, _ => false
  if marked then .bool true else .null

/-- `build_state_and_hash`, without the hash. -/
def buildState (item : CatalogItem) : Except ModerationStateError TextTree :=
  if item.payload.truthy then
    buildModerationState item.sourceAPI item.contentType item.payload
  else
    .error ⟨"moderation_state_unavailable for content_item=" ++ toString item.pk⟩

def caseId (seed : String) (pk : ℕ) : String :=
  String.ofList ("case_".toList ++
    (Sha256.hexdigest (seed ++ ":" ++ toString pk).toList).toList.take 12)

def stateBytes (state : TextTree) : ℕ := (state.dumps.flatMap Sha256.utf8).length

/-- The fields of the case that the schema sees, with the labels that a reviewer adds later. -/
def caseEntries (seed : String) (item : CatalogItem) (state : TextTree) : List (String × Json) :=
  [("case_id", .str (caseId seed item.pk)), ("split", .str "evaluation"),
    ("source_kind", .str "catalog_text"), ("provider", .str item.sourceAPI.value.toLower),
    ("content_type", .str item.contentType.value.toLower), ("state", state.toJson),
    ("provider_explicit", providerExplicit item), ("language", .str "other"),
    ("gold_class", .str "safe_for_automatic_discovery"),
    ("adjudication", .obj [("status", .str "human_adjudicated"), ("reviewer_count", .int 1),
      ("guideline_revision", .str "placeholder")])]

variable (isWord : Char → Bool)

/-- `_passes_gold_shape`. -/
def passesGoldShape (seed : String) (item : CatalogItem) (state : TextTree) : Bool :=
  (validateGoldDataset isWord (.obj [("schema_version", .str goldSchemaVersion),
    ("cases", .arr [.obj (caseEntries seed item state)])])).isOk

/-- What the export has found. -/
structure CatalogScan where
  eligible : OrderedMap String (List (ℕ × TextTree)) := .empty
  noDetail : ℕ := 0
  invalidState : ℕ := 0
  oversizedState : ℕ := 0

def stratum (item : CatalogItem) : String := item.sourceAPI.value ++ "/" ++ item.contentType.value

def scanItem (seed : String) (maxStateBytes : ℕ) (scan : CatalogScan) (item : CatalogItem) :
    CatalogScan :=
  let pool := (scan.eligible.get? (stratum item)).getD []
  let scan := { scan with eligible := scan.eligible.set (stratum item) pool }
  match buildState item with
  | .error _ => { scan with noDetail := scan.noDetail + 1 }
  | .ok state =>
    if maxStateBytes < stateBytes state then
      { scan with oversizedState := scan.oversizedState + 1 }
    else if !passesGoldShape isWord seed item state then
      { scan with invalidState := scan.invalidState + 1 }
    else
      { scan with eligible := scan.eligible.set (stratum item) (pool ++ [(item.pk, state)]) }

/-- `_scan_catalog`. -/
def scanCatalog (seed : String) (maxStateBytes : ℕ) (items : List CatalogItem) : CatalogScan :=
  items.foldl (scanItem isWord seed maxStateBytes) {}

/-! ### Shapes that the state builder produces -/

open TextTree

/-- No text of the tree is prohibited. -/
def IsClean (t : TextTree) : Prop := ∀ s ∈ t.leaves, isProhibited isWord s = false

/-- The schema takes the trees of a set that have no prohibited text. -/
def Accepts (shape : Shape) (trees : Set TextTree) : Prop :=
  ∀ t ∈ trees, IsClean isWord t → ∀ path, validateShape isWord t.toJson path shape = .ok ()

variable {isWord} {shape : Shape} {trees : Set TextTree}

lemma ensure_of_true {condition : Bool} (h : condition = true) (message : String) :
    ensure condition message = .ok () := by
  rw [h]
  rfl

lemma forM_eq_ok {α ε : Type} {f : α → Except ε Unit} {l : List α} (h : ∀ a ∈ l, f a = .ok ()) :
    l.forM f = .ok () := by
  induction l with
  | nil => rfl
  | cons a l ih =>
    obtain ⟨ha, hl⟩ := List.forall_mem_cons.mp h
    rw [List.forM_eq_forM] at ih ⊢
    rw [List.forM_cons, ha]
    exact ih hl

lemma accepts_text : Accepts isWord .text anyText := by
  rintro _ ⟨s, rfl⟩ hclean path
  have hs := hclean s (by simp [leaves])
  rw [toJson, validateShape]
  exact ensure_of_true (by rw [hs]; rfl) _

lemma accepts_list (h : Accepts isWord shape trees) :
    Accepts isWord (.list shape) (listOf trees) := by
  rintro _ ⟨values, rfl, hvalues⟩ hclean path
  rw [toJson, toJsonList_eq_map, validateShape]
  refine forM_eq_ok fun item hitem => ?_
  have hmem : item.1 ∈ values.map toJson := List.fst_mem_of_mem_zipIdx hitem
  obtain ⟨value, hvalue, heq⟩ := List.mem_map.mp hmem
  rw [← heq]
  refine h value (hvalues value hvalue) (fun s hs => hclean s ?_) _
  rw [leaves, leavesList_eq_flatMap]
  exact List.mem_flatMap.mpr ⟨value, hvalue, hs⟩

section Objects

variable {shapes : List (String × Shape)} {sets : List (String × Set TextTree)}
  {fields : List (String × TextTree)}

/-- Shapes that take sets of trees, under the same keys. -/
def AcceptsAll (isWord : Char → Bool) (shapes : List (String × Shape))
    (sets : List (String × Set TextTree)) : Prop :=
  List.Forall₂ (fun shape trees => shape.1 = trees.1 ∧ Accepts isWord shape.2 trees.2) shapes sets

lemma AcceptsAll.keys (h : AcceptsAll isWord shapes sets) :
    shapes.map Prod.fst = sets.map Prod.fst := by
  induction h with
  | nil => rfl
  | cons hentry _ ih => rw [List.map_cons, List.map_cons, hentry.1, ih]

lemma keys_of_hasShape (h : HasShape sets fields) : fields.map Prod.fst = sets.map Prod.fst := by
  induction h with
  | nil => rfl
  | cons hfield _ ih => rw [List.map_cons, List.map_cons, hfield.1, ih]

lemma get_entry {entries : List (String × Json)} (hkeys : (entries.map Prod.fst).Nodup) :
    ∀ entry ∈ entries, (Json.obj entries).get entry.1 = entry.2 := by
  intro entry hentry
  rw [Json.get]
  induction entries with
  | nil => cases hentry
  | cons first entries ih =>
    obtain ⟨hfresh, hkeys⟩ := List.nodup_cons.mp hkeys
    rw [Json.lookup_cons_eq_ite]
    rcases List.mem_cons.mp hentry with rfl | hentry
    · rw [if_pos rfl, Option.getD_some]
    · have hne : entry.1 ≠ first.1 := fun heq => hfresh (heq ▸ List.mem_map_of_mem hentry)
      rw [if_neg hne]
      exact ih hkeys hentry

lemma get_toJson (hkeys : (fields.map Prod.fst).Nodup) {field : String × TextTree}
    (hfield : field ∈ fields) : (object fields).toJson.get field.1 = field.2.toJson := by
  rw [toJson, toJsonFields_eq_map]
  refine get_entry ?_ (field.1, field.2.toJson) (List.mem_map.mpr ⟨field, hfield, rfl⟩)
  rwa [List.map_map]

/-- The fields are checked one by one. -/
lemma validateFields_eq_ok (h : AcceptsAll isWord shapes sets) (hfields : HasShape sets fields)
    {value : Json} (hget : ∀ field ∈ fields, value.get field.1 = field.2.toJson)
    (hclean : ∀ field ∈ fields, IsClean isWord field.2) (path : String) :
    validateFields isWord value path shapes = .ok () := by
  induction h generalizing fields with
  | nil => rfl
  | @cons shape trees shapes sets hentry _ ih =>
    cases hfields with
    | cons hfield hrest =>
      obtain ⟨hfirst, hget⟩ := List.forall_mem_cons.mp hget
      obtain ⟨hcleanFirst, hclean⟩ := List.forall_mem_cons.mp hclean
      rw [validateFields, hentry.1, ← hfield.1, hfirst, hentry.2 _ hfield.2 hcleanFirst]
      exact ih hrest hget hclean

lemma requireFields_eq_ok {keys : List String} {entries : List (String × Json)}
    (h : (entries.map Prod.fst).Perm keys) (path : String) :
    requireFields (.obj entries) keys path = .ok () := by
  refine ensure_of_true ?_ _
  simp only [List.all_eq_true, Bool.and_eq_true, decide_eq_true_eq]
  exact ⟨fun entry hentry => h.mem_iff.mp (List.mem_map_of_mem hentry), fun _ => h.mem_iff.mpr⟩

lemma accepts_object (hkeys : (sets.map Prod.fst).Nodup) (h : AcceptsAll isWord shapes sets) :
    Accepts isWord (.object shapes) (objectOf sets) := by
  rintro _ ⟨fields, rfl, hfields⟩ hclean path
  have hnames := keys_of_hasShape hfields
  have hrequire : requireFields (object fields).toJson (shapes.map Prod.fst) path = .ok () := by
    rw [toJson, toJsonFields_eq_map]
    refine requireFields_eq_ok (.of_eq ?_) path
    rw [List.map_map, h.keys, ← hnames]
    rfl
  rw [validateShape, hrequire]
  refine validateFields_eq_ok h hfields (fun field => get_toJson (hnames ▸ hkeys))
    (fun field hfield s hs => hclean s ?_) path
  rw [leaves, leavesFields_eq_flatMap]
  exact List.mem_flatMap.mpr ⟨field, hfield, hs⟩

end Objects

lemma accepts_names : Accepts isWord (.list .text) nameTrees := accepts_list accepts_text

lemma accepts_screen : Accepts isWord screenShape screenTrees :=
  accepts_object (by decide) (.cons ⟨rfl, accepts_text⟩ (.cons ⟨rfl, accepts_text⟩
    (.cons ⟨rfl, accepts_names⟩ (.cons ⟨rfl, accepts_names⟩ .nil))))

lemma accepts_credits : Accepts isWord (.object [("name", .text), ("role", .text)]) creditTrees :=
  accepts_object (by decide) (.cons ⟨rfl, accepts_text⟩ (.cons ⟨rfl, accepts_text⟩ .nil))

lemma accepts_episodes :
    Accepts isWord (.object [("title", .text), ("description", .text)]) episodeTrees :=
  accepts_object (by decide) (.cons ⟨rfl, accepts_text⟩ (.cons ⟨rfl, accepts_text⟩ .nil))

lemma accepts_tracks :
    Accepts isWord (.object [("title", .text),
      ("credits", .list (.object [("name", .text), ("role", .text)])),
      ("parental_advisory", .text)]) trackTrees :=
  accepts_object (by decide) (.cons ⟨rfl, accepts_text⟩
    (.cons ⟨rfl, accepts_list accepts_credits⟩ (.cons ⟨rfl, accepts_text⟩ .nil)))

lemma accepts_one {kind : String} (h : Accepts isWord shape trees) :
    Accepts isWord (.object [(kind, shape)]) (objectOf [(kind, trees)]) :=
  accepts_object (List.nodup_singleton kind) (.cons ⟨rfl, h⟩ .nil)

/-- The content types by their names in a case. -/
def caseName : ContentType → String
  | .movie => "movie"
  | .tvShow => "tv_show"
  | .season => "season"
  | .game => "game"
  | .album => "album"
  | .book => "book"

lemma toLower_value (contentType : ContentType) :
    contentType.value.toLower = caseName contentType := by
  cases contentType <;> decide +kernel

lemma toUpper_caseName (contentType : ContentType) :
    (caseName contentType).toUpper = contentType.value := by
  cases contentType <;> decide +kernel

lemma toLower_sourceAPI (sourceAPI : SourceAPI) : sourceAPI.value.toLower = sourceAPI.value := by
  cases sourceAPI <;> decide +kernel

/-- The shape of a content type takes what the builder makes of it. -/
lemma accepts_typeSpecific (contentType : ContentType) :
    ∃ shape, typeSpecificShapes.lookup (caseName contentType) = some shape ∧
      Accepts isWord shape (typeSpecificTrees contentType) := by
  cases contentType with
  | movie => exact ⟨_, rfl, accepts_one accepts_screen⟩
  | tvShow => exact ⟨_, rfl, accepts_one accepts_screen⟩
  | game =>
    refine ⟨_, rfl, accepts_one (accepts_object (by decide) ?_)⟩
    exact .cons ⟨rfl, accepts_names⟩ (.cons ⟨rfl, accepts_names⟩ (.cons ⟨rfl, accepts_names⟩
      (.cons ⟨rfl, accepts_text⟩ (.cons ⟨rfl, accepts_text⟩ (.cons ⟨rfl, accepts_names⟩ .nil)))))
  | season =>
    refine ⟨_, rfl, accepts_one (accepts_object (by decide) ?_)⟩
    exact .cons ⟨rfl, accepts_text⟩ (.cons ⟨rfl, accepts_list accepts_episodes⟩ .nil)
  | album =>
    refine ⟨_, rfl, accepts_one (accepts_object (by decide) ?_)⟩
    exact .cons ⟨rfl, accepts_names⟩ (.cons ⟨rfl, accepts_list accepts_tracks⟩ .nil)
  | book =>
    refine ⟨_, rfl, accepts_one (accepts_object (by decide) ?_)⟩
    exact .cons ⟨rfl, accepts_names⟩ (.cons ⟨rfl, accepts_names⟩ .nil)

/-! ### Exported cases -/

lemma fullMatch_hexDigits {digits : List Char} (hlength : digits.length = 12)
    (hdigits : ∀ c ∈ digits, c ∈ Sha256.hexDigits) :
    caseIdPattern.fullMatch isWord (String.ofList ("case_".toList ++ digits)) = true := by
  have hall : ∀ c ∈ Sha256.hexDigits, (asciiDigit c || ('a' ≤ c && c ≤ 'f')) = true :=
    List.all_eq_true.mp (by decide)
  rw [caseIdPattern, Pattern.fullMatch_run, String.toList_ofList, String.toList_ofList]
  refine List.rel_append ?_ ?_
  · rw [List.forall₂_map_left_iff]
    exact List.forall₂_same.mpr fun c _ => decide_eq_true rfl
  · rw [← hlength, ← List.map_const', List.forall₂_map_left_iff, List.forall₂_same]
    exact fun c hc => hall c (hdigits c hc)

lemma fullMatch_caseId (seed : String) (pk : ℕ) :
    caseIdPattern.fullMatch isWord (caseId seed pk) = true := by
  refine fullMatch_hexDigits ?_ fun c hc =>
    Sha256.mem_hexDigits_of_mem_hexdigest (List.mem_of_mem_take hc)
  rw [List.length_take, String.length_toList, Sha256.hexdigest_length]
  rfl

lemma fullMatch_slug (sourceAPI : SourceAPI) :
    slugPattern.fullMatch isWord sourceAPI.value = true := by
  rw [slugPattern, Pattern.fullMatch_upTo]
  cases sourceAPI <;> exact ⟨_, _, rfl, by decide, by decide, List.all_eq_true.mp (by decide)⟩

lemma fullMatch_placeholder : guidelinePattern.fullMatch isWord "placeholder" = true := by
  rw [guidelinePattern, Pattern.fullMatch_upTo]
  exact ⟨_, _, rfl, by decide, by decide, List.all_eq_true.mp (by decide)⟩

/-- Only what the schema lets a provider mark as explicit is marked. -/
lemma providerExplicit_cases (item : CatalogItem) :
    providerExplicit item = .null ∨ providerExplicit item = .bool true ∧
      (item.sourceAPI.value, caseName item.contentType) ∈ providerOverrideTargets := by
  obtain ⟨pk, sourceAPI, contentType, payload⟩ := item
  cases sourceAPI <;> cases contentType <;> simp only [providerExplicit, Bool.false_eq_true,
    if_false, true_or] <;> split_ifs <;>
    first | exact .inl rfl | exact .inr ⟨rfl, by decide⟩

/-- The texts that the builder has normalized. -/
def normalizedTexts (state : TextTree) : List String :=
  match state with
  | .object fields =>
    (fields.filter fun field => field.1 ∈ ["title", "description", "type_specific"]).flatMap
      fun field => field.2.leaves
  | _ => []

/-- A state without prohibited texts passes. -/
lemma validateState_eq_ok {sourceAPI : SourceAPI} {contentType : ContentType} {payload : Json}
    {state : TextTree} (h : buildModerationState sourceAPI contentType payload = .ok state)
    (hclean : ∀ s ∈ normalizedTexts state, isProhibited isWord s = false) (path : String) :
    validateState isWord sourceAPI.value (caseName contentType) state.toJson path = .ok () := by
  obtain ⟨title, description, typeSpecific, hmem, rfl⟩ := buildModerationState_eq_ok h
  have htexts : normalizedTexts (.object [("provider", .text sourceAPI.value),
      ("content_type", .text contentType.value), ("title", .text title),
      ("description", .text description), ("type_specific", typeSpecific)]) =
        title :: description :: (typeSpecific.leaves ++ []) := rfl
  rw [htexts, List.append_nil] at hclean
  obtain ⟨htitle, hclean⟩ := List.forall_mem_cons.mp hclean
  obtain ⟨hdescription, hclean⟩ := List.forall_mem_cons.mp hclean
  obtain ⟨shape, hshape, haccepts⟩ := @accepts_typeSpecific isWord contentType
  have htext : ∀ s path, isProhibited isWord s = false →
      validateShape isWord (.str s) path .text = .ok () := fun s path hs => by
    rw [validateShape]
    exact ensure_of_true (by rw [hs]; rfl) _
  rw [validateState, hshape, Option.getD_some, toUpper_caseName]
  have hget : ∀ field ∈ [("provider", TextTree.text sourceAPI.value),
      ("content_type", .text contentType.value), ("title", .text title),
      ("description", .text description), ("type_specific", typeSpecific)],
      (object [("provider", .text sourceAPI.value), ("content_type", .text contentType.value),
        ("title", .text title), ("description", .text description),
        ("type_specific", typeSpecific)]).toJson.get field.1 = field.2.toJson :=
    fun field => get_toJson (by simp)
  simp only [List.forall_mem_cons] at hget
  obtain ⟨hprovider, hcontentType, htitle', hdescription', htypeSpecific, -⟩ := hget
  have hrequire : requireFields (object [("provider", .text sourceAPI.value),
      ("content_type", .text contentType.value), ("title", .text title),
      ("description", .text description), ("type_specific", typeSpecific)]).toJson stateFields path =
        .ok () := by
    rw [toJson, toJsonFields_eq_map]
    exact requireFields_eq_ok .rfl path
  rw [hrequire, hprovider, hcontentType, htitle', hdescription', htypeSpecific]
  simp only [toJson, ok_bind, htext _ _ htitle, htext _ _ hdescription]
  rw [ensure_of_true (by simp [Json.equals])]
  exact haccepts _ hmem hclean _


lemma ok_step {α ε : Type} {x : Except ε Unit} {f : Unit → Except ε α} {r : Except ε α}
    (hx : x = .ok ()) (hf : f () = r) : (x >>= f) = r := by
  rw [hx]
  exact hf

lemma validateAdjudication_eq_ok (path : String) :
    validateAdjudication isWord (.str "catalog_text") (.obj [("status", .str "human_adjudicated"),
      ("reviewer_count", .int 1), ("guideline_revision", .str "placeholder")]) path = .ok () := by
  rw [validateAdjudication]
  refine ok_step (requireFields_eq_ok .rfl path) ?_
  refine ok_step (ensure_of_true rfl _) ?_
  refine ok_step (ensure_of_true rfl _) ?_
  refine ok_step (ensure_of_true fullMatch_placeholder _) ?_
  refine ok_step (ensure_of_true rfl _) ?_
  exact ensure_of_true rfl _

lemma validateCase_eq_ok {seed : String} {item : CatalogItem} {state : TextTree}
    (h : buildModerationState item.sourceAPI item.contentType item.payload = .ok state)
    (hclean : ∀ s ∈ normalizedTexts state, isProhibited isWord s = false) (path : String) :
    validateCase isWord [] (.obj (caseEntries seed item state)) path = .ok (caseId seed item.pk) := by
  have hkeys : ((caseEntries seed item state).map Prod.fst).Perm caseFields := by
    rw [caseEntries]
    simp only [List.map_cons, List.map_nil]
    decide
  have hget := get_entry (hkeys.nodup_iff.mpr (by decide))
  have hid : textMatches isWord (.str (caseId seed item.pk)) caseIdPattern = true :=
    fullMatch_caseId seed item.pk
  have htype : caseName item.contentType ∈ typeSpecificShapes.map Prod.fst := by
    cases item.contentType <;> decide
  have hstate := validateState_eq_ok h hclean (path ++ ".state")
  have hlabels := @validateAdjudication_eq_ok isWord (path ++ ".adjudication")
  have hrequire := requireFields_eq_ok hkeys path
  generalize hraw : Json.obj (caseEntries seed item state) = raw at hget hrequire ⊢
  simp only [caseEntries, List.forall_mem_cons, toLower_sourceAPI, toLower_value] at hget
  obtain ⟨hget1, hget2, hget3, hget4, hget5, hget6, hget7, hget8, hget9, hget10, -⟩ := hget
  rw [validateCase, hget1, hget2, hget3, hget4, hget5, hget6, hget7, hget8, hget9, hget10]
  refine ok_step hrequire ?_
  refine ok_step (ensure_of_true (Bool.and_eq_true_iff.mpr ⟨hid, rfl⟩) _) ?_
  refine ok_step (ensure_of_true rfl _) ?_
  refine ok_step (ensure_of_true rfl _) ?_
  refine ok_step (ensure_of_true (fullMatch_slug item.sourceAPI) _) ?_
  refine ok_step (ensure_of_true (decide_eq_true htype) _) ?_
  refine ok_step (ensure_of_true rfl _) ?_
  refine ok_step (ensure_of_true rfl _) ?_
  rcases providerExplicit_cases item with hnull | ⟨htrue, hmem⟩
  · rw [hnull]
    exact ok_step rfl (ok_step hstate (ok_step hlabels rfl))
  · have htarget : (!true || decide ((item.sourceAPI.value, caseName item.contentType) ∈
        providerOverrideTargets)) = true := decide_eq_true hmem
    rw [htrue]
    exact ok_step (ensure_of_true htarget _) (ok_step hstate (ok_step hlabels rfl))

/-- The schema takes the case of a state without prohibited texts. -/
lemma passesGoldShape_of_clean (seed : String) {item : CatalogItem} {state : TextTree}
    (h : buildModerationState item.sourceAPI item.contentType item.payload = .ok state)
    (hclean : ∀ s ∈ normalizedTexts state, isProhibited isWord s = false) :
    passesGoldShape isWord seed item state = true := by
  have hcase : ∀ path, validateCase isWord [] (.obj (caseEntries seed item state)) path =
      .ok (caseId seed item.pk) := validateCase_eq_ok h hclean
  have hcases : validateCases isWord [] [(Json.obj (caseEntries seed item state), 0)] = .ok () := by
    rw [validateCases, hcase]
    rfl
  have hdataset : validateGoldDataset isWord (.obj [("schema_version", .str goldSchemaVersion),
      ("cases", .arr [.obj (caseEntries seed item state)])]) =
        .ok [.obj (caseEntries seed item state)] := by
    refine ok_step (requireFields_eq_ok .rfl _) ?_
    exact ok_step (ensure_of_true rfl _) (ok_step hcases rfl)
  rw [passesGoldShape, hdataset]
  rfl

section Counts

variable (isWord) (seed : String) (maxStateBytes : ℕ)

/-- The item has a state that is not too large, and the schema refuses its case. -/
def isInvalid (item : CatalogItem) : Bool :=
  match buildState item with
  | .error _ => false
  | .ok state => stateBytes state ≤ maxStateBytes && !passesGoldShape isWord seed item state

lemma invalidState_scanItem (scan : CatalogScan) (item : CatalogItem) :
    (scanItem isWord seed maxStateBytes scan item).invalidState =
      scan.invalidState + if isInvalid isWord seed maxStateBytes item then 1 else 0 := by
  rw [scanItem, isInvalid]
  cases buildState item with
  | error e => rfl
  | ok state =>
    by_cases hsize : maxStateBytes < stateBytes state
    · simp [hsize, hsize.not_ge]
    · cases hpasses : passesGoldShape isWord seed item state <;> simp [hsize, hpasses]

/-- The export counts the invalid items. -/
lemma invalidState_foldl (items : List CatalogItem) (scan : CatalogScan) :
    (items.foldl (scanItem isWord seed maxStateBytes) scan).invalidState =
      scan.invalidState + items.countP (isInvalid isWord seed maxStateBytes) := by
  induction items generalizing scan with
  | nil => rfl
  | cons item items ih =>
    rw [List.foldl_cons, ih, invalidState_scanItem, List.countP_cons]
    omega

lemma invalidState_scanCatalog (items : List CatalogItem) :
    (scanCatalog isWord seed maxStateBytes items).invalidState =
      items.countP (isInvalid isWord seed maxStateBytes) := by
  rw [scanCatalog, invalidState_foldl, Nat.zero_add]

end Counts

/-- The schema takes what the state builder makes of any payload without prohibited texts, and the
    export does not count such an item as invalid, whatever else the catalog holds. -/
theorem gold_schema_mirrors (isWord : Char → Bool) (seed : String) (item : CatalogItem)
    (state : TextTree)
    (h : buildModerationState item.sourceAPI item.contentType item.payload = .ok state)
    (hclean : ∀ s ∈ normalizedTexts state, isProhibited isWord s = false) :
    passesGoldShape isWord seed item state = true ∧
      ∀ maxStateBytes before after,
        (scanCatalog isWord seed maxStateBytes (before ++ item :: after)).invalidState =
          (scanCatalog isWord seed maxStateBytes (before ++ after)).invalidState := by
  have hpasses := passesGoldShape_of_clean seed h hclean
  refine ⟨hpasses, fun maxStateBytes before after => ?_⟩
  have hvalid : isInvalid isWord seed maxStateBytes item = false := by
    rw [isInvalid, buildState]
    by_cases htruthy : item.payload.truthy = true
    · simp [htruthy, h, hpasses]
    · simp [htruthy]
  rw [invalidState_scanCatalog, invalidState_scanCatalog, List.countP_append, List.countP_append,
    List.countP_cons_of_neg (by simp [hvalid])]

theorem gold_schema_mirrors_book :
    ∃ state, passesGoldShape Char.isAlphanum "seed" ⟨7, .openlibrary, .book,
      .obj [("title", .str "Emma"), ("subjects", .strings ["Fiction"])]⟩ state = true := by
  refine ⟨_, (gold_schema_mirrors Char.isAlphanum "seed" ⟨7, .openlibrary, .book,
    .obj [("title", .str "Emma"), ("subjects", .strings ["Fiction"])]⟩ _ rfl ?_).1⟩
  decide +kernel

end Denn.Moderation
