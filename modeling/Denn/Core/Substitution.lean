import Mathlib.Algebra.GroupWithZero.Nat
import Mathlib.Algebra.Order.BigOperators.Group.List
import Mathlib.Algebra.Order.Group.Nat
import Mathlib.Data.List.Infix
import Mathlib.Data.List.Nodup
import Mathlib.Data.List.Perm.Basic
import Mathlib.Data.Nat.Notation
import Mathlib.Order.Basic
import Mathlib.Tactic.Common

/-!
# Textual substitution

Replacing a pattern in a text, and templates of pieces between separators whose placeholders are
replaced one after the other. The filled template is the list of its pieces, whatever the order of
the replacements, when no value contains the placeholder of another argument.
-/

namespace Denn.Core

section ReplaceAll

variable {α : Type*} [DecidableEq α]

/-- Scan a text for a pattern. The counter is what is left of an occurrence already replaced. -/
def replaceFrom (old new : List α) : ℕ → List α → List α
  | _, [] => []
  | skip + 1, _ :: text => replaceFrom old new skip text
  | 0, c :: text =>
    if old <+: c :: text then new ++ replaceFrom old new (old.length - 1) text
    else c :: replaceFrom old new 0 text

/-- Replace the occurrences of a non-empty pattern, from the left and without overlaps. -/
def replaceAll (old new text : List α) : List α := replaceFrom old new 0 text

variable {old new text : List α} {c : α}

lemma replaceFrom_cons_of_starts (h : old <+: c :: text) :
    replaceFrom old new 0 (c :: text) = new ++ replaceFrom old new (old.length - 1) text := by
  rw [replaceFrom, if_pos h]

lemma replaceFrom_cons_of_not_starts (h : ¬ old <+: c :: text) :
    replaceFrom old new 0 (c :: text) = c :: replaceFrom old new 0 text := by
  rw [replaceFrom, if_neg h]

lemma replaceFrom_of_length_le {skip : ℕ} (h : text.length ≤ skip) :
    replaceFrom old new skip text = [] := by
  induction text generalizing skip with
  | nil => simp [replaceFrom]
  | cons c text ih =>
    cases skip with
    | zero => simp at h
    | succ skip => exact ih (by simpa using h)

lemma replaceAll_of_not_occurs (h : ¬ old <:+: text) : replaceAll old new text = text := by
  induction text with
  | nil => rfl
  | cons c text ih =>
    have hstarts : ¬ old <+: c :: text := fun hp => h hp.isInfix
    rw [replaceAll, replaceFrom_cons_of_not_starts hstarts]
    exact congrArg _ (ih fun hi => h (List.infix_cons hi))

lemma replaceAll_self (h : old ≠ []) : replaceAll old new old = new := by
  obtain ⟨c, text, rfl⟩ := List.exists_cons_of_ne_nil h
  rw [replaceAll, replaceFrom_cons_of_starts List.prefix_rfl, replaceFrom_of_length_le (by simp),
    List.append_nil]

omit [DecidableEq α] in
/-- A pattern without the separator does not reach over it. -/
lemma prefix_append_cons_iff {a b : List α} (h : c ∉ old) : old <+: a ++ c :: b ↔ old <+: a := by
  refine ⟨fun hp => ?_, fun hp => hp.trans (List.prefix_append a _)⟩
  rcases List.prefix_or_prefix_of_prefix hp (List.prefix_append a (c :: b)) with ha | ⟨t, rfl⟩
  · exact ha
  · cases t with
    | nil => simp
    | cons d t =>
      rw [List.prefix_append_right_inj, List.cons_prefix_cons] at hp
      exact absurd (by simp [hp.1]) h

/-- The two sides of a separator are scanned apart. -/
lemma replaceFrom_append_cons (hne : old ≠ []) (hc : c ∉ old) (b : List α) {a : List α} {skip : ℕ}
    (hskip : skip ≤ a.length) :
    replaceFrom old new skip (a ++ c :: b)
      = replaceFrom old new skip a ++ c :: replaceFrom old new 0 b := by
  induction a generalizing skip with
  | nil =>
    obtain rfl : skip = 0 := by simpa using hskip
    have hstarts : ¬ old <+: c :: b := by
      intro hp
      exact hne (List.prefix_nil.mp ((prefix_append_cons_iff (a := []) hc).mp hp))
    rw [List.nil_append, replaceFrom_cons_of_not_starts hstarts]
    simp [replaceFrom]
  | cons d a ih =>
    cases skip with
    | succ skip => exact ih (by simpa using hskip)
    | zero =>
      have hiff : old <+: d :: (a ++ c :: b) ↔ old <+: d :: a :=
        prefix_append_cons_iff (a := d :: a) hc
      by_cases hstarts : old <+: d :: a
      · have hlength : old.length - 1 ≤ a.length := by
          have := hstarts.length_le
          simp only [List.length_cons] at this
          omega
        rw [replaceFrom_cons_of_starts hstarts, List.cons_append,
          replaceFrom_cons_of_starts (hiff.mpr hstarts), ih hlength, List.append_assoc]
      · rw [replaceFrom_cons_of_not_starts hstarts, List.cons_append,
          replaceFrom_cons_of_not_starts (mt hiff.mp hstarts), ih (Nat.zero_le _),
          List.cons_append]

lemma replaceAll_append_cons (hne : old ≠ []) (hc : c ∉ old) (a b : List α) :
    replaceAll old new (a ++ c :: b) = replaceAll old new a ++ c :: replaceAll old new b :=
  replaceFrom_append_cons hne hc b (Nat.zero_le _)

/-- Replacements that do not hold a character only remove it. -/
lemma count_replaceFrom_le (hnew : c ∉ new) (skip : ℕ) (text : List α) :
    (replaceFrom old new skip text).count c ≤ (text.drop skip).count c := by
  induction text generalizing skip with
  | nil => simp [replaceFrom]
  | cons d text ih =>
    cases skip with
    | succ skip => exact ih skip
    | zero =>
      by_cases hstarts : old <+: d :: text
      · rw [replaceFrom_cons_of_starts hstarts, List.count_append, List.count_eq_zero.mpr hnew,
          Nat.zero_add]
        refine (ih _).trans (List.Sublist.count_le c ?_)
        exact (List.drop_sublist _ _).trans (List.sublist_cons_self d text)
      · rw [replaceFrom_cons_of_not_starts hstarts, List.drop_zero, List.count_cons,
          List.count_cons]
        exact Nat.add_le_add_right (ih 0) _

lemma count_replaceAll_le (hnew : c ∉ new) (text : List α) :
    (replaceAll old new text).count c ≤ text.count c :=
  count_replaceFrom_le hnew 0 text

lemma count_replaceAll_lt (hnew : c ∉ new) (hold : c ∈ old) (h : old <:+: text) :
    (replaceAll old new text).count c < text.count c := by
  induction text with
  | nil => simp [List.infix_nil.mp h] at hold
  | cons d text ih =>
    by_cases hstarts : old <+: d :: text
    · obtain ⟨rest, hrest⟩ := hstarts
      have hdrop : text.drop (old.length - 1) = rest := by
        have hlength : old.length = old.length - 1 + 1 :=
          (Nat.sub_add_cancel (List.length_pos_of_mem hold)).symm
        rw [← List.drop_succ_cons (a := d), ← hlength, ← hrest, List.drop_left]
      rw [replaceAll, replaceFrom_cons_of_starts ⟨rest, hrest⟩, List.count_append,
        List.count_eq_zero.mpr hnew, Nat.zero_add, ← hrest, List.count_append]
      have hle := @count_replaceFrom_le _ _ old new _ hnew (old.length - 1) text
      rw [hdrop] at hle
      have hpos : 0 < old.count c := List.count_pos_iff.mpr hold
      omega
    · rw [replaceAll, replaceFrom_cons_of_not_starts hstarts, List.count_cons, List.count_cons]
      have htail := (List.infix_cons_iff.mp h).resolve_left hstarts
      exact Nat.add_lt_add_right (ih htail) _

end ReplaceAll

section Template

/-- What stands for an argument in a template. -/
def placeholder (name : List Char) : List Char := '{' :: (name ++ ['}'])

/-- A name that its braces and the separators of a template delimit. -/
structure IsName (name : List Char) : Prop where
  noSeparator : ':' ∉ name
  noLeft : '{' ∉ name
  noRight : '}' ∉ name

/-- Replace the placeholders of the arguments one after the other, in the order given. -/
def fill (args : List (List Char × List Char)) (text : List Char) : List Char :=
  args.foldl (fun text arg => replaceAll (placeholder arg.1) arg.2 text) text

/-- The text of pieces with separators between them. -/
def join (pieces : List (List Char)) : List Char := [':'].intercalate pieces

/-- The template with some literal pieces and then a placeholder for each argument. -/
def template (head : List (List Char)) (args : List (List Char × List Char)) : List Char :=
  join (head ++ args.map fun arg => placeholder arg.1)

/-- No value contains the placeholder of another argument. -/
def PlaceholderFree (args : List (List Char × List Char)) : Prop :=
  ∀ arg ∈ args, ∀ other ∈ args, other.1 ≠ arg.1 → ¬ placeholder other.1 <:+: arg.2

/-- Arguments as a map holds them, at most one of them free text. -/
structure ArgsForm (args : List (List Char × List Char)) : Prop where
  names : ∀ arg ∈ args, IsName arg.1
  nodup : (args.map Prod.fst).Nodup
  oneText : ∀ arg ∈ args, ∀ other ∈ args, '{' ∈ arg.2 → '{' ∈ other.2 → arg = other

variable {args : List (List Char × List Char)} {name text : List Char}

lemma placeholder_ne_nil : placeholder name ≠ [] := List.cons_ne_nil _ _

lemma separator_notMem_placeholder (h : IsName name) : ':' ∉ placeholder name := by
  simp [placeholder, h.noSeparator]

lemma eq_of_placeholder_occurs {other : List Char} (hname : IsName name) 
    (h : placeholder other <:+: placeholder name) : other = name := by
  obtain ⟨before, after, heq⟩ := h
  cases before with
  | cons c before =>
    have hmem : '{' ∈ name ++ ['}'] := by
      rw [placeholder, placeholder, List.cons_append, List.cons_append, List.cons.injEq] at heq
      simp [← heq.2]
    simp [hname.noLeft] at hmem
  | nil =>
    simp only [placeholder, List.nil_append, List.cons_append, List.cons.injEq, true_and] at heq
    cases after using List.reverseRecOn with
    | nil => simpa using heq
    | append_singleton after c =>
      rw [← List.append_assoc, List.append_singleton_inj] at heq
      have hmem : '}' ∈ name := by simp [← heq.1]
      exact absurd hmem hname.noRight

lemma fill_append_cons (hnames : ∀ arg ∈ args, IsName arg.1) (a b : List Char) :
    fill args (a ++ ':' :: b) = fill args a ++ ':' :: fill args b := by
  induction args generalizing a b with
  | nil => rfl
  | cons arg args ih =>
    have harg := separator_notMem_placeholder (hnames arg (by simp))
    rw [fill, List.foldl_cons, replaceAll_append_cons placeholder_ne_nil harg]
    exact ih (fun other hother => hnames other (by simp [hother])) _ _

lemma join_cons_cons (a b : List Char) (pieces : List (List Char)) :
    join (a :: b :: pieces) = a ++ ':' :: join (b :: pieces) := by
  rw [join, List.intercalate_cons_cons, List.append_assoc, List.singleton_append, join]

/-- Every piece is filled on its own. -/
lemma fill_join (hnames : ∀ arg ∈ args, IsName arg.1) {pieces : List (List Char)}
    (hne : pieces ≠ []) : fill args (join pieces) = join (pieces.map (fill args)) := by
  induction pieces with
  | nil => exact absurd rfl hne
  | cons a pieces ih =>
    cases pieces with
    | nil => simp [join]
    | cons b pieces =>
      rw [join_cons_cons, fill_append_cons hnames, ih (by simp), List.map_cons, List.map_cons,
        List.map_cons, join_cons_cons]

lemma fill_of_free (h : ∀ arg ∈ args, ¬ placeholder arg.1 <:+: text) : fill args text = text := by
  induction args with
  | nil => rfl
  | cons arg args ih =>
    rw [fill, List.foldl_cons, replaceAll_of_not_occurs (h arg (by simp))]
    exact ih fun other hother => h other (by simp [hother])

lemma not_placeholder_occurs (h : '{' ∉ text) : ¬ placeholder name <:+: text :=
  fun hi => h (hi.subset (by simp [placeholder]))

lemma fill_of_notMem (h : '{' ∉ text) : fill args text = text :=
  fill_of_free fun _ _ => not_placeholder_occurs h

/-- A placeholder becomes the value of its argument, when the others leave that alone. -/
lemma fill_placeholder (hnames : ∀ arg ∈ args, IsName arg.1) (hnodup : (args.map Prod.fst).Nodup)
    {arg : List Char × List Char} (harg : arg ∈ args)
    (hfree : ∀ other ∈ args, other.1 ≠ arg.1 → ¬ placeholder other.1 <:+: arg.2) :
    fill args (placeholder arg.1) = arg.2 := by
  induction args with
  | nil => simp at harg
  | cons first args ih =>
    rw [List.map_cons, List.nodup_cons] at hnodup
    rw [fill, List.foldl_cons]
    rcases List.mem_cons.mp harg with rfl | harg
    · rw [replaceAll_self placeholder_ne_nil]
      refine fill_of_free fun other hother => hfree other (by simp [hother]) fun heq => ?_
      exact hnodup.1 (heq ▸ List.mem_map_of_mem hother)
    · have hne : first.1 ≠ arg.1 := fun heq => hnodup.1 (heq ▸ List.mem_map_of_mem harg)
      rw [replaceAll_of_not_occurs fun hi =>
        hne (eq_of_placeholder_occurs (hnames arg (by simp [harg])) hi)]
      exact ih (fun other hother => hnames other (by simp [hother])) hnodup.2 harg
        fun other hother => hfree other (by simp [hother])

lemma fill_template_pieces {order head : List _} (hform : ArgsForm args) (horder : order.Perm args)
    (hhead : ∀ piece ∈ head, '{' ∉ piece) (hne : head ≠ []) :
    fill order (template head args)
      = join (head ++ args.map fun arg => fill order (placeholder arg.1)) := by
  have hnames : ∀ arg ∈ order, IsName arg.1 := fun arg harg =>
    hform.names arg (horder.mem_iff.mp harg)
  rw [template, fill_join hnames (by simp [hne]), List.map_append, List.map_map]
  congr 2
  calc head.map (fill order) = head.map id :=
        List.map_congr_left fun piece hpiece => fill_of_notMem (hhead piece hpiece)
    _ = head := List.map_id head

/-- A filled template shows the values, in whatever order they are put in. -/
lemma fill_template {order head : List _} (hform : ArgsForm args) (hfree : PlaceholderFree args)
    (horder : order.Perm args) (hhead : ∀ piece ∈ head, '{' ∉ piece) (hne : head ≠ []) :
    fill order (template head args) = join (head ++ args.map Prod.snd) := by
  rw [fill_template_pieces hform horder hhead hne]
  congr 2
  refine List.map_congr_left fun arg harg => ?_
  refine fill_placeholder (fun other hother => hform.names other (horder.mem_iff.mp hother))
    ((horder.map Prod.fst).nodup_iff.mpr hform.nodup) (horder.mem_iff.mpr harg) ?_
  exact fun other hother => hfree arg harg other (horder.mem_iff.mp hother)

lemma count_join (pieces : List (List Char)) :
    (join pieces).count '{' = (pieces.map (·.count '{')).sum := by
  induction pieces with
  | nil => rfl
  | cons a pieces ih =>
    cases pieces with
    | nil => simp [join]
    | cons b pieces =>
      rw [join_cons_cons, List.count_append, List.count_cons_of_ne (by decide), ih]
      rfl

lemma count_fill_le (hvalues : ∀ arg ∈ args, '{' ∉ arg.2) (text : List Char) :
    (fill args text).count '{' ≤ text.count '{' := by
  induction args generalizing text with
  | nil => rfl
  | cons arg args ih =>
    rw [fill, List.foldl_cons]
    exact (ih (fun other hother => hvalues other (by simp [hother])) _).trans
      (count_replaceAll_le (hvalues arg (by simp)) text)

lemma count_fill_lt (hvalues : ∀ arg ∈ args, '{' ∉ arg.2)
    (h : ∃ arg ∈ args, placeholder arg.1 <:+: text) :
    (fill args text).count '{' < text.count '{' := by
  induction args with
  | nil => simp at h
  | cons first args ih =>
    have hrest : ∀ arg ∈ args, '{' ∉ arg.2 := fun arg harg => hvalues arg (by simp [harg])
    rw [fill, List.foldl_cons]
    by_cases hfirst : placeholder first.1 <:+: text
    · exact (count_fill_le hrest _).trans_lt
        (count_replaceAll_lt (hvalues first (by simp)) (by simp [placeholder]) hfirst)
    · rw [replaceAll_of_not_occurs hfirst]
      obtain ⟨arg, harg, hi⟩ := h
      rcases List.mem_cons.mp harg with rfl | harg
      · exact absurd hi hfirst
      · exact ih hrest ⟨arg, harg, hi⟩

/-- Next to a value with a brace, the other values have none. -/
lemma ArgsForm.notMem_of_ne (hform : ArgsForm args) {arg other : List Char × List Char}
    (harg : arg ∈ args) (hother : other ∈ args) (hne : other ≠ arg) (hbrace : '{' ∈ arg.2) :
    '{' ∉ other.2 :=
  fun hmem => hne (hform.oneText other hother arg harg hmem hbrace)

/-- The placeholder of one argument does not occur in that of another. -/
lemma ArgsForm.not_occurs_of_ne (hform : ArgsForm args) {arg other : List Char × List Char}
    (harg : arg ∈ args) (hother : other ∈ args) (hne : other ≠ arg) :
    ¬ placeholder other.1 <:+: placeholder arg.1 := by
  intro hoccurs
  have heq := eq_of_placeholder_occurs (hform.names arg harg) hoccurs
  exact hne (List.inj_on_of_nodup_map hform.nodup hother harg heq)

lemma fill_cons_placeholder (arg : List Char × List Char) (args : List (List Char × List Char)) :
    fill (arg :: args) (placeholder arg.1) = fill args arg.2 := by
  rw [fill, List.foldl_cons, replaceAll_self placeholder_ne_nil, fill]

lemma fill_concat_placeholder {arg : List Char × List Char}
    (hfree : ∀ other ∈ args, ¬ placeholder other.1 <:+: placeholder arg.1) :
    fill (args ++ [arg]) (placeholder arg.1) = arg.2 := by
  rw [fill, List.foldl_append]
  change replaceAll (placeholder arg.1) arg.2 (fill args (placeholder arg.1)) = arg.2
  rw [fill_of_free hfree, replaceAll_self placeholder_ne_nil]

/-- In any order, the value of an argument without a brace replaces its placeholder. -/
lemma ArgsForm.fill_placeholder_of_notMem (hform : ArgsForm args) {order : List _}
    (horder : order.Perm args) {arg : List Char × List Char} (harg : arg ∈ args)
    (hbrace : '{' ∉ arg.2) : fill order (placeholder arg.1) = arg.2 :=
  fill_placeholder (fun other hother => hform.names other (horder.mem_iff.mp hother))
    ((horder.map Prod.fst).nodup_iff.mpr hform.nodup) (horder.mem_iff.mpr harg)
    fun _ _ _ => not_placeholder_occurs hbrace

/-- Put in first, the free text loses the placeholders it contains; put in last, it keeps them. -/
lemma exists_fill_ne {head : List (List Char)} (hform : ArgsForm args)
    (hhead : ∀ piece ∈ head, '{' ∉ piece) (hne : head ≠ []) (h : ¬ PlaceholderFree args) :
    ∃ first last, first.Perm args ∧ last.Perm args ∧
      fill first (template head args) ≠ fill last (template head args) := by
  simp only [PlaceholderFree, not_forall, not_not] at h
  obtain ⟨arg, harg, other, hother, hname, hoccurs⟩ := h
  have hbrace : '{' ∈ arg.2 := hoccurs.subset (by simp [placeholder])
  have hcons : (arg :: args.erase arg).Perm args := (List.perm_cons_erase harg).symm
  have hconcat : (args.erase arg ++ [arg]).Perm args := (List.perm_append_singleton _ _).trans hcons
  have hnodup : args.Nodup := List.Nodup.of_map _ hform.nodup
  have hvalues : ∀ rest ∈ args.erase arg, '{' ∉ rest.2 := by
    intro rest hrest
    obtain ⟨hrest, hmem⟩ := hnodup.mem_erase_iff.mp hrest
    exact hform.notMem_of_ne harg hmem hrest hbrace
  have hlast : fill (args.erase arg ++ [arg]) (placeholder arg.1) = arg.2 := by
    refine fill_concat_placeholder fun rest hrest => ?_
    obtain ⟨hrest, hmem⟩ := hnodup.mem_erase_iff.mp hrest
    exact hform.not_occurs_of_ne harg hmem hrest
  refine ⟨_, _, hcons, hconcat, fun heq => ?_⟩
  rw [fill_template_pieces hform hcons hhead hne, fill_template_pieces hform hconcat hhead hne]
    at heq
  have hcount := congrArg (List.count '{') heq
  rw [count_join, count_join, List.map_append, List.map_append, List.sum_append, List.sum_append,
    List.map_map, List.map_map] at hcount
  refine absurd (Nat.add_left_cancel hcount) (ne_of_lt (List.sum_lt_sum _ _ ?_ ⟨arg, harg, ?_⟩))
  · intro rest hmem
    by_cases hrest : rest = arg
    · subst hrest
      rw [Function.comp_apply, Function.comp_apply, fill_cons_placeholder, hlast]
      exact count_fill_le hvalues _
    · have hfree := hform.notMem_of_ne harg hmem hrest hbrace
      rw [Function.comp_apply, Function.comp_apply,
        hform.fill_placeholder_of_notMem hcons hmem hfree,
        hform.fill_placeholder_of_notMem hconcat hmem hfree]
  · rw [Function.comp_apply, Function.comp_apply, fill_cons_placeholder, hlast]
    exact count_fill_lt hvalues ⟨other,
      (hnodup.mem_erase_iff).mpr ⟨fun h => hname (congrArg Prod.fst h), hother⟩, hoccurs⟩

/-- The order of the replacements does not show exactly when no value contains the placeholder of
    another argument. -/
theorem fill_order_free_iff {head : List (List Char)} (hform : ArgsForm args)
    (hhead : ∀ piece ∈ head, '{' ∉ piece) (hne : head ≠ []) :
    (∀ order order', order.Perm args → order'.Perm args →
        fill order (template head args) = fill order' (template head args)) ↔
      PlaceholderFree args := by
  constructor
  · intro h
    by_contra hfree
    obtain ⟨first, last, hfirst, hlast, hdiff⟩ := exists_fill_ne hform hhead hne hfree
    exact hdiff (h first last hfirst hlast)
  · intro hfree order order' horder horder'
    rw [fill_template hform hfree horder hhead hne, fill_template hform hfree horder' hhead hne]

/-- The parts between the separators of a joined text are those of its pieces. -/
lemma splitOn_join {pieces : List (List Char)} (hne : pieces ≠ []) :
    (join pieces).splitOn ':' = pieces.flatMap (·.splitOn ':') := by
  induction pieces with
  | nil => exact absurd rfl hne
  | cons a pieces ih =>
    cases pieces with
    | nil => simp [join]
    | cons b pieces =>
      rw [join_cons_cons, List.splitOn_append_cons_self, ih (by simp)]
      rfl

end Template

end Denn.Core
