import Denn.Core.Json
import Mathlib.Data.Set.Function

/-!
# Reading canonical texts

The canonical text of a tree is read off everything it begins, so that two trees of one shape have
the same text only if they are the same.
-/

namespace Denn.Core

/-! ### Literals -/

/-- The character that an escape stands for, without its backslash. -/
def readEscape : List Char → Option (Char × List Char)
  | 'u' :: '0' :: '0' :: high :: low :: rest =>
    some (Char.ofNat (16 * Sha256.hexDigits.idxOf high + Sha256.hexDigits.idxOf low), rest)
  | c :: rest =>
    some (if c = 'n' then '\n' else if c = 'r' then '\r' else if c = 't' then '\t'
      else if c = 'b' then Char.ofNat 0x08 else if c = 'f' then Char.ofNat 0x0C else c, rest)
  | [] => none

/-- The first character inside a string literal. -/
def readChar : List Char → Option (Char × List Char)
  | [] => none
  | c :: rest => if c = '\\' then readEscape rest else some (c, rest)

namespace TextTree

lemma hexDigits_idxOf (n : ℕ) (hn : n < 0x20) :
    16 * Sha256.hexDigits.idxOf (Sha256.hexDigit (n / 16)) +
      Sha256.hexDigits.idxOf (Sha256.hexDigit (n % 16)) = n := by
  decide +revert

lemma readChar_escapeChar (c : Char) (rest : List Char) :
    readChar (escapeChar c ++ rest) = some (c, rest) := by
  have hchar : ∀ n, c.toNat = n → c = Char.ofNat n := by
    rintro n rfl
    exact (Char.ofNat_toNat c).symm
  unfold escapeChar
  split_ifs with hquote hslash hnewline hreturn htab hback hfeed hcontrol
  · rw [hquote]
    rfl
  · rw [hslash]
    rfl
  · rw [hnewline]
    rfl
  · rw [hreturn]
    rfl
  · rw [htab]
    rfl
  · rw [hchar _ hback]
    rfl
  · rw [hchar _ hfeed]
    rfl
  · have hread := congrArg Char.ofNat (hexDigits_idxOf c.toNat hcontrol)
    rw [Char.ofNat_toNat] at hread
    simp [readChar, readEscape, hread]
  · simp [readChar, hslash]

lemma head_escapeChar_ne (c : Char) (rest : List Char) : (escapeChar c ++ rest).head? ≠ some '"' := by
  unfold escapeChar
  split_ifs with hquote <;> simp_all

/-- A literal is read off what it begins. -/
lemma literal_append_inj {s t : String} {x y : List Char} (h : literal s ++ x = literal t ++ y) :
    s = t ∧ x = y := by
  have hchars : ∀ (l l' : List Char),
      l.flatMap escapeChar ++ '"' :: x = l'.flatMap escapeChar ++ '"' :: y → l = l' ∧ x = y := by
    intro l
    induction l with
    | nil =>
      intro l' heq
      cases l' with
      | nil => exact ⟨rfl, List.tail_eq_of_cons_eq heq⟩
      | cons c l' =>
        rw [List.flatMap_cons, List.append_assoc] at heq
        exact absurd (congrArg List.head? heq).symm (head_escapeChar_ne c _)
    | cons c l ih =>
      intro l' heq
      cases l' with
      | nil =>
        rw [List.flatMap_cons, List.append_assoc] at heq
        exact absurd (congrArg List.head? heq) (head_escapeChar_ne c _)
      | cons c' l' =>
        rw [List.flatMap_cons, List.append_assoc, List.flatMap_cons, List.append_assoc] at heq
        have hread := congrArg readChar heq
        rw [readChar_escapeChar, readChar_escapeChar, Option.some.injEq, Prod.mk.injEq] at hread
        obtain ⟨rfl, hrest⟩ := hread
        obtain ⟨rfl, hxy⟩ := ih l' hrest
        exact ⟨rfl, hxy⟩
  have heq : s.toList.flatMap escapeChar ++ '"' :: x = t.toList.flatMap escapeChar ++ '"' :: y := by
    simpa [literal] using h
  obtain ⟨hlist, hxy⟩ := hchars _ _ heq
  exact ⟨String.toList_inj.mp hlist, hxy⟩

/-! ### Trees -/

/-- The induction on trees: what holds of the parts of a list or an object holds of it. -/
theorem induct {P : TextTree → Prop} (text : ∀ s, P (text s))
    (list : ∀ values, (∀ value ∈ values, P value) → P (list values))
    (object : ∀ fields, (∀ field ∈ fields, P field.2) → P (object fields)) (t : TextTree) : P t :=
  @TextTree.rec P (fun values => ∀ value ∈ values, P value)
    (fun fields => ∀ field ∈ fields, P field.2) (fun field => P field.2)
    text list object
    (fun _ h => absurd h List.not_mem_nil)
    (fun _ _ hvalue hvalues => List.forall_mem_cons.mpr ⟨hvalue, hvalues⟩)
    (fun _ h => absurd h List.not_mem_nil)
    (fun _ _ hfield hfields => List.forall_mem_cons.mpr ⟨hfield, hfields⟩)
    (fun _ _ hvalue => hvalue) t

lemma dumpsList_eq (values : List TextTree) : dumpsList values = values.map dumps := by
  induction values with
  | nil => rfl
  | cons value values ih => rw [dumpsList, ih, List.map_cons]

lemma dumpsFields_eq (fields : List (String × TextTree)) :
    dumpsFields fields = fields.map fun field => (field.1, field.2.dumps) := by
  induction fields with
  | nil => rfl
  | cons field fields ih =>
    obtain ⟨key, value⟩ := field
    rw [dumpsFields, ih, List.map_cons]

/-- The fields of an object in the order of their keys, with the texts of their values. -/
def orderedFields (fields : List (String × TextTree)) : List (String × List Char) :=
  (fields.map fun field => (field.1, field.2.dumps)).insertionSort fun a b => a.1 ≤ b.1

def fieldText (field : String × List Char) : List Char := literal field.1 ++ ':' :: field.2

lemma dumps_list (values : List TextTree) :
    dumps (list values) = bracket '[' ']' (values.map dumps) := by
  rw [dumps, dumpsList_eq]

lemma dumps_object (fields : List (String × TextTree)) :
    dumps (object fields) = bracket '{' '}' ((orderedFields fields).map fieldText) := by
  rw [dumps, dumpsFields_eq]
  rfl

lemma orderedFields_perm (fields : List (String × TextTree)) :
    (orderedFields fields).Perm (fields.map fun field => (field.1, field.2.dumps)) :=
  List.perm_insertionSort _ _

lemma mem_orderedFields {fields : List (String × TextTree)} {field : String × List Char} :
    field ∈ orderedFields fields ↔ ∃ source ∈ fields, (source.1, source.2.dumps) = field := by
  simp [orderedFields]

/-! ### Brackets -/

/-- What follows a text of a list: the other texts and the closing bracket. -/
def afterText (closing : Char) (rest : List Char) : List (List Char) → List Char
  | [] => closing :: rest
  | piece :: pieces => ',' :: piece ++ afterText closing rest pieces

lemma intercalate_append (closing : Char) (rest piece : List Char) (pieces : List (List Char)) :
    [','].intercalate (piece :: pieces) ++ closing :: rest = piece ++ afterText closing rest pieces := by
  induction pieces generalizing piece with
  | nil => simp [afterText]
  | cons piece' pieces ih =>
    rw [List.intercalate_cons_cons, List.append_assoc, List.append_assoc, ih, afterText]
    rfl

/-- A text is read off what it begins, where the texts of a set are concerned. -/
def ReadFrom (S : Set (List Char)) (piece : List Char) : Prop :=
  ∀ piece' ∈ S, ∀ x y, piece ++ x = piece' ++ y → piece = piece' ∧ x = y

variable {closing : Char} {S : Set (List Char)} {pieces pieces' : List (List Char)} {x y : List Char}

lemma afterText_inj (hclosing : closing ≠ ',') (hread : ∀ piece ∈ pieces, ReadFrom S piece)
    (hmem : ∀ piece ∈ pieces', piece ∈ S) (h : afterText closing x pieces = afterText closing y pieces') :
    pieces = pieces' ∧ x = y := by
  induction pieces generalizing pieces' with
  | nil =>
    cases pieces' with
    | nil => exact ⟨rfl, List.tail_eq_of_cons_eq h⟩
    | cons piece' pieces' => exact absurd (List.head_eq_of_cons_eq h) hclosing
  | cons piece pieces ih =>
    cases pieces' with
    | nil => exact absurd (List.head_eq_of_cons_eq h).symm hclosing
    | cons piece' pieces' =>
      obtain ⟨htext, htexts⟩ := List.forall_mem_cons.mp hread
      obtain ⟨hmem, hmems⟩ := List.forall_mem_cons.mp hmem
      obtain ⟨rfl, hrest⟩ := htext piece' hmem _ _ (List.tail_eq_of_cons_eq h)
      obtain ⟨rfl, hxy⟩ := ih htexts hmems hrest
      exact ⟨rfl, hxy⟩

/-- A bracketed list of texts, none of which begins with the closing bracket, is read off what it
    begins. -/
lemma bracket_append_inj {opening : Char} (hclosing : closing ≠ ',')
    (hread : ∀ piece ∈ pieces, ReadFrom S piece ∧ piece ≠ [] ∧ piece.head? ≠ some closing)
    (hmem : ∀ piece ∈ pieces', piece ∈ S ∧ piece ≠ [] ∧ piece.head? ≠ some closing)
    (h : bracket opening closing pieces ++ x = bracket opening closing pieces' ++ y) :
    pieces = pieces' ∧ x = y := by
  have h : [','].intercalate pieces ++ closing :: x = [','].intercalate pieces' ++ closing :: y := by
    simpa [bracket] using h
  have hhead : ∀ piece rest : List Char, piece ≠ [] → piece.head? ≠ some closing →
      (piece ++ rest).head? ≠ some closing := by
    intro piece rest hne hhead
    rwa [List.head?_append_of_ne_nil _ hne]
  cases pieces with
  | nil =>
    cases pieces' with
    | nil => exact ⟨rfl, List.tail_eq_of_cons_eq h⟩
    | cons piece' pieces' =>
      obtain ⟨-, hne, hfirst⟩ := hmem piece' List.mem_cons_self
      rw [intercalate_append] at h
      exact absurd (congrArg List.head? h).symm (hhead _ _ hne hfirst)
  | cons piece pieces =>
    obtain ⟨hread, hreads⟩ := List.forall_mem_cons.mp hread
    cases pieces' with
    | nil =>
      rw [intercalate_append] at h
      exact absurd (congrArg List.head? h) (hhead _ _ hread.2.1 hread.2.2)
    | cons piece' pieces' =>
      obtain ⟨hmem, hmems⟩ := List.forall_mem_cons.mp hmem
      rw [intercalate_append, intercalate_append] at h
      obtain ⟨rfl, hrest⟩ := hread.1 piece' hmem.1 _ _ h
      obtain ⟨rfl, hxy⟩ := afterText_inj hclosing (fun piece htext => (hreads piece htext).1)
        (fun piece htext => (hmems piece htext).1) hrest
      exact ⟨rfl, hxy⟩

/-! ### Reading a tree -/

/-- What the text of a tree begins with. -/
def opening : TextTree → Char
  | text _ => '"'
  | list _ => '['
  | object _ => '{'

lemma exists_dumps_eq_cons (t : TextTree) : ∃ rest, dumps t = t.opening :: rest := by
  cases t with
  | text s => exact ⟨_, rfl⟩
  | list values =>
    rw [dumps_list]
    exact ⟨_, rfl⟩
  | object fields =>
    rw [dumps_object]
    exact ⟨_, rfl⟩

lemma opening_eq {t t' : TextTree} {x y : List Char} (h : dumps t ++ x = dumps t' ++ y) :
    t.opening = t'.opening := by
  obtain ⟨rest, hrest⟩ := exists_dumps_eq_cons t
  obtain ⟨rest', hrest'⟩ := exists_dumps_eq_cons t'
  rw [hrest, hrest'] at h
  exact List.head_eq_of_cons_eq h

/-- No value of a list begins like the end of the list. -/
lemma dumps_opens (t : TextTree) : dumps t ≠ [] ∧ (dumps t).head? ≠ some ']' := by
  obtain ⟨rest, hrest⟩ := exists_dumps_eq_cons t
  rw [hrest]
  cases t <;> simp [opening]

lemma fieldText_opens (field : String × List Char) :
    fieldText field ≠ [] ∧ (fieldText field).head? ≠ some '}' := by
  simp [fieldText, literal]

lemma fieldText_injective : Function.Injective fieldText := by
  intro field field' h
  obtain ⟨hkey, hvalue⟩ := literal_append_inj h
  exact Prod.ext hkey (List.tail_eq_of_cons_eq hvalue)

section

variable {values values' : List TextTree} {fields fields' : List (String × TextTree)}

lemma map_dumps_append_inj (hread : ∀ value ∈ values, ReadFrom (Set.range dumps) (dumps value))
    (h : dumps (list values) ++ x = dumps (list values') ++ y) :
    values.map dumps = values'.map dumps ∧ x = y := by
  rw [dumps_list, dumps_list] at h
  refine bracket_append_inj (S := Set.range dumps) (by decide) ?_ ?_ h
  · intro piece hpiece
    obtain ⟨value, hvalue, rfl⟩ := List.mem_map.mp hpiece
    exact ⟨hread value hvalue, dumps_opens value⟩
  · intro piece hpiece
    obtain ⟨value, -, rfl⟩ := List.mem_map.mp hpiece
    exact ⟨⟨value, rfl⟩, dumps_opens value⟩

lemma orderedFields_append_inj
    (hread : ∀ field ∈ fields, ReadFrom (Set.range dumps) (dumps field.2))
    (h : dumps (object fields) ++ x = dumps (object fields') ++ y) :
    orderedFields fields = orderedFields fields' ∧ x = y := by
  rw [dumps_object, dumps_object] at h
  have hpieces : (orderedFields fields).map fieldText = (orderedFields fields').map fieldText ∧
      x = y := by
    refine bracket_append_inj (S := {piece | ∃ key t, piece = fieldText (key, dumps t)})
      (by decide) ?_ ?_ h
    · intro piece hpiece
      obtain ⟨field, hfield, rfl⟩ := List.mem_map.mp hpiece
      obtain ⟨⟨key, value⟩, hsource, rfl⟩ := mem_orderedFields.mp hfield
      refine ⟨?_, fieldText_opens _⟩
      rintro _ ⟨key', value', rfl⟩ x y hfields
      rw [fieldText, fieldText, List.append_assoc, List.append_assoc] at hfields
      obtain ⟨hkey, hrest⟩ := literal_append_inj hfields
      obtain ⟨hvalue, hxy⟩ :=
        hread _ hsource _ ⟨value', rfl⟩ x y (List.tail_eq_of_cons_eq hrest)
      exact ⟨congrArg fieldText (Prod.ext hkey hvalue), hxy⟩
    · intro piece hpiece
      obtain ⟨field, hfield, rfl⟩ := List.mem_map.mp hpiece
      obtain ⟨⟨key, value⟩, -, rfl⟩ := mem_orderedFields.mp hfield
      exact ⟨⟨key, value, rfl⟩, fieldText_opens _⟩
  rwa [(List.map_injective_iff.mpr fieldText_injective).eq_iff] at hpieces

end

/-- The text of a tree is read off what it begins. -/
theorem readFrom_dumps (t : TextTree) : ReadFrom (Set.range dumps) (dumps t) := by
  induction t using induct with
  | text s =>
    rintro _ ⟨t', rfl⟩ x y h
    have hopening := opening_eq h
    cases t' with
    | text s' =>
      rw [dumps, dumps] at h ⊢
      obtain ⟨rfl, hxy⟩ := literal_append_inj h
      exact ⟨rfl, hxy⟩
    | list values' => cases hopening
    | object fields' => cases hopening
  | list values ih =>
    rintro _ ⟨t', rfl⟩ x y h
    have hopening := opening_eq h
    cases t' with
    | text s' => cases hopening
    | list values' =>
      obtain ⟨hvalues, hxy⟩ := map_dumps_append_inj ih h
      rw [dumps_list, dumps_list, hvalues]
      exact ⟨rfl, hxy⟩
    | object fields' => cases hopening
  | object fields ih =>
    rintro _ ⟨t', rfl⟩ x y h
    have hopening := opening_eq h
    cases t' with
    | text s' => cases hopening
    | list values' => cases hopening
    | object fields' =>
      obtain ⟨hfields, hxy⟩ := orderedFields_append_inj ih h
      rw [dumps_object, dumps_object, hfields]
      exact ⟨rfl, hxy⟩

/-! ### Shapes -/

/-- The trees that are a text. -/
def anyText : Set TextTree := Set.range text

/-- Lists of trees of a set. -/
def listOf (S : Set TextTree) : Set TextTree := {t | ∃ values, t = list values ∧ ∀ v ∈ values, v ∈ S}

/-- Fields with the given keys, in that order, each with a value of its set. -/
def HasShape (shape : List (String × Set TextTree)) (fields : List (String × TextTree)) : Prop :=
  List.Forall₂ (fun entry field => field.1 = entry.1 ∧ field.2 ∈ entry.2) shape fields

/-- Objects of a shape. -/
def objectOf (shape : List (String × Set TextTree)) : Set TextTree :=
  {t | ∃ fields, t = object fields ∧ HasShape shape fields}

lemma injOn_anyText : Set.InjOn dumps anyText := by
  rintro _ ⟨s, rfl⟩ _ ⟨s', rfl⟩ h
  rw [dumps, dumps] at h
  obtain ⟨rfl, -⟩ := literal_append_inj (congrArg (· ++ []) h)
  rfl

lemma map_inj_of_injOn {α β : Type*} {f : α → β} {S : Set α} (hf : Set.InjOn f S) {l l' : List α}
    (hl : ∀ a ∈ l, a ∈ S) (hl' : ∀ a ∈ l', a ∈ S) (h : l.map f = l'.map f) : l = l' := by
  induction l generalizing l' with
  | nil => exact (List.map_eq_nil_iff.mp h.symm).symm
  | cons a l ih =>
    cases l' with
    | nil => cases h
    | cons a' l' =>
      obtain ⟨ha, hl⟩ := List.forall_mem_cons.mp hl
      obtain ⟨ha', hl'⟩ := List.forall_mem_cons.mp hl'
      obtain ⟨hhead, htail⟩ := List.cons.inj h
      rw [hf ha ha' hhead, ih hl hl' htail]

lemma injOn_listOf {S : Set TextTree} (hS : Set.InjOn dumps S) : Set.InjOn dumps (listOf S) := by
  rintro _ ⟨values, rfl, hvalues⟩ _ ⟨values', rfl, hvalues'⟩ h
  obtain ⟨hmap, -⟩ := map_dumps_append_inj (fun value _ => readFrom_dumps value)
    (congrArg (· ++ []) h)
  rw [map_inj_of_injOn hS hvalues hvalues' hmap]

/-- Rows under distinct keys that are in the same order of keys. -/
lemma eq_of_perm_of_keys {α β : Type*} {l l' : List (α × β)} (hperm : l.Perm l')
    (hkeys : l.map Prod.fst = l'.map Prod.fst) (hnodup : (l.map Prod.fst).Nodup) : l = l' := by
  induction l generalizing l' with
  | nil => exact hperm.nil_eq
  | cons row l ih =>
    cases l' with
    | nil => exact hperm.eq_nil
    | cons row' l' =>
      obtain ⟨hkey, htail⟩ := List.cons.inj hkeys
      obtain ⟨hfresh, hnodup⟩ := List.nodup_cons.mp hnodup
      have hrow : row = row' := by
        rcases List.mem_cons.mp (hperm.subset List.mem_cons_self) with hrow | hrow
        · exact hrow
        · exact absurd (htail ▸ List.mem_map_of_mem hrow) hfresh
      subst hrow
      rw [ih (hperm.cons_inv) htail hnodup]

section

variable {shape : List (String × Set TextTree)} {fields fields' : List (String × TextTree)}

lemma HasShape.keys (h : HasShape shape fields) :
    (fields.map fun field => (field.1, field.2.dumps)).map Prod.fst = shape.map Prod.fst := by
  induction h with
  | nil => rfl
  | cons hfield _ ih => rw [List.map_cons, List.map_cons, List.map_cons, ih, hfield.1]

lemma HasShape.eq (h : HasShape shape fields) (h' : HasShape shape fields')
    (hshape : ∀ entry ∈ shape, Set.InjOn dumps entry.2)
    (hmap : (fields.map fun field => (field.1, field.2.dumps)) =
      fields'.map fun field => (field.1, field.2.dumps)) : fields = fields' := by
  induction h generalizing fields' with
  | nil => exact (List.map_eq_nil_iff.mp hmap.symm).symm
  | cons hfield _ ih =>
    cases h' with
    | cons hfield' hrest =>
      obtain ⟨hentry, hshape⟩ := List.forall_mem_cons.mp hshape
      obtain ⟨hhead, htail⟩ := List.cons.inj hmap
      obtain ⟨hkey, hvalue⟩ := Prod.mk.inj hhead
      rw [Prod.ext hkey (hentry hfield.2 hfield'.2 hvalue), ih hrest hshape htail]

/-- Objects of a shape have the same text only if their fields have. -/
lemma map_dumps_inj (hkeys : (shape.map Prod.fst).Nodup) (h : HasShape shape fields)
    (h' : HasShape shape fields') (hdumps : dumps (object fields) = dumps (object fields')) :
    (fields.map fun field => (field.1, field.2.dumps)) =
      fields'.map fun field => (field.1, field.2.dumps) := by
  obtain ⟨hordered, -⟩ := orderedFields_append_inj (fun field _ => readFrom_dumps field.2)
    (congrArg (· ++ []) hdumps)
  refine eq_of_perm_of_keys ?_ (h.keys.trans h'.keys.symm) (h.keys ▸ hkeys)
  have hperm := orderedFields_perm fields
  rw [hordered] at hperm
  exact hperm.symm.trans (orderedFields_perm fields')

lemma injOn_objectOf (hkeys : (shape.map Prod.fst).Nodup)
    (hshape : ∀ entry ∈ shape, Set.InjOn dumps entry.2) : Set.InjOn dumps (objectOf shape) := by
  rintro _ ⟨fields, rfl, hfields⟩ _ ⟨fields', rfl, hfields'⟩ h
  rw [hfields.eq hfields' hshape (map_dumps_inj hkeys hfields hfields' h)]

end

end TextTree

end Denn.Core
