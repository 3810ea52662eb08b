import Denn.Core.Constraint
import Denn.Core.Table

/-!
# Shared catalogs

The tables of authors, genres, themes and game modes, each of which has one row for a slug, and the
credits that a list of authors leaves. `slugify` is the library's; a name that it empties is its own
slug.
-/

namespace Denn.Ingest

open Denn.Core

/-- A name that is not empty. -/
abbrev Name := { name : String // name ≠ "" }

/-- The name of an entry, if it has one. -/
def nameOf? : Option String → Option Name
  | some text => if h : text = "" then none else some ⟨text, h⟩
  | none => none

variable (slugify : String → String)

/-- `text[:255]`. -/
def take255 (text : String) : String := String.ofList (text.toList.take 255)

/-- `slugify(name)[:255] or name[:255]`. -/
def slugOf (name : String) : String :=
  let slug := take255 (slugify name)
  if slug = "" then take255 name else slug

/-- A table of names under their slugs. -/
structure Catalog where
  rows : Table String Name
  slug_eq : ∀ slug name, rows.get? slug = some name → slugOf slugify name = slug

namespace Catalog

variable {slugify}

def empty : Catalog slugify := ⟨.empty, fun slug name h => by rw [Table.get?_empty] at h; exact nomatch h⟩

/-- A row for the name. -/
def create (catalog : Catalog slugify) (name : Name) : Catalog slugify where
  rows := catalog.rows.set (slugOf slugify name) name
  slug_eq := by
    intro slug other h
    rw [Table.get?_set] at h
    split_ifs at h with hslug
    · rw [← Option.some.inj h, hslug]
    · exact catalog.slug_eq slug other h

/-- The name in the row of a slug. -/
def nameAt? (catalog : Catalog slugify) (slug : String) : Option Name := catalog.rows.get? slug

/-- `_get_or_create_author`, which looks the slug up. -/
def ensure (catalog : Catalog slugify) (name : Name) : Catalog slugify :=
  if (catalog.nameAt? (slugOf slugify name)).isSome then catalog else catalog.create name

/-- `get_or_create(name=name)` looks the name up; a new row with a slug that is taken breaks the
    unique constraint. -/
def getOrCreate (catalog : Catalog slugify) (name : Name) :
    Except IntegrityError (Catalog slugify) :=
  if !(catalog.rows.keysWhere fun _ other => other = name).isEmpty then .ok catalog
  else if (catalog.nameAt? (slugOf slugify name)).isSome then .error .unique
  else .ok (catalog.create name)

/-- The rows of all the names. -/
def ensureAll (catalog : Catalog slugify) (names : List Name) : Catalog slugify :=
  names.foldl ensure catalog

/-- No row, and no other of the names, has the slug of one of the names. -/
structure Accepts (catalog : Catalog slugify) (names : List Name) : Prop where
  rows : ∀ name ∈ names, ∀ other, catalog.nameAt? (slugOf slugify name) = some other → other = name
  names : ∀ name ∈ names, ∀ other ∈ names,
    slugOf slugify name = slugOf slugify other → name = other

variable {catalog : Catalog slugify} {name other : Name} {slug : String} {names : List Name}

lemma slugOf_eq (h : catalog.nameAt? slug = some name) : slugOf slugify name = slug :=
  catalog.slug_eq slug name h

lemma nameAt?_create (catalog : Catalog slugify) (name : Name) (slug : String) :
    (catalog.create name).nameAt? slug
      = if slug = slugOf slugify name then some name else catalog.nameAt? slug :=
  Table.get?_set catalog.rows slug _ name

/-- A row is found by its name at the name's slug. -/
lemma keysWhere_isEmpty : (catalog.rows.keysWhere fun _ other => other = name).isEmpty = false ↔
    catalog.nameAt? (slugOf slugify name) = some name := by
  rw [List.isEmpty_eq_false_iff_exists_mem]
  constructor
  · rintro ⟨slug, hslug⟩
    obtain ⟨other, hrow, hname⟩ := Table.mem_keysWhere.mp hslug
    rw [decide_eq_true_eq] at hname
    subst hname
    rw [catalog.slug_eq slug other hrow]
    exact hrow
  · intro h
    exact ⟨_, Table.mem_keysWhere.mpr ⟨name, h, by simp⟩⟩

lemma nameAt?_ensure_of_some (h : catalog.nameAt? slug = some other) (name : Name) :
    (catalog.ensure name).nameAt? slug = some other := by
  rw [ensure]
  split_ifs with hname
  · exact h
  · rw [nameAt?_create, if_neg, h]
    rintro rfl
    exact hname (Option.isSome_of_mem h)

lemma nameAt?_ensureAll_of_some (h : catalog.nameAt? slug = some other) (names : List Name) :
    (catalog.ensureAll names).nameAt? slug = some other := by
  induction names generalizing catalog with
  | nil => exact h
  | cons name names ih => exact ih (nameAt?_ensure_of_some h name)

lemma isSome_nameAt?_ensure (catalog : Catalog slugify) (name : Name) :
    ((catalog.ensure name).nameAt? (slugOf slugify name)).isSome = true := by
  rw [ensure]
  split_ifs with h
  · exact h
  · rw [nameAt?_create, if_pos rfl, Option.isSome_some]

/-- Every name has a row at its slug afterwards. -/
lemma isSome_nameAt?_ensureAll (catalog : Catalog slugify) (h : name ∈ names) :
    ((catalog.ensureAll names).nameAt? (slugOf slugify name)).isSome = true := by
  induction names generalizing catalog with
  | nil => simp at h
  | cons first names ih =>
    rcases List.mem_cons.mp h with rfl | h
    · obtain ⟨other, hother⟩ := Option.isSome_iff_exists.mp (isSome_nameAt?_ensure catalog name)
      exact Option.isSome_of_mem (nameAt?_ensureAll_of_some hother names)
    · exact ih _ h

/-- Names that have their rows add none. -/
lemma ensureAll_eq_self
    (h : ∀ name ∈ names, (catalog.nameAt? (slugOf slugify name)).isSome = true) :
    catalog.ensureAll names = catalog := by
  induction names with
  | nil => rfl
  | cons name names ih =>
    obtain ⟨hname, hrest⟩ := List.forall_mem_cons.mp h
    rw [ensureAll, List.foldl_cons, ensure, if_pos hname]
    exact ih hrest

/-- A name that no row bears is not found. -/
lemma keysWhere_isEmpty_of_ne (h : catalog.nameAt? (slugOf slugify name) ≠ some name) :
    (catalog.rows.keysWhere fun _ other => other = name).isEmpty = true := by
  rw [← Bool.not_eq_false, keysWhere_isEmpty]
  exact h

lemma yields_getOrCreate (catalog : Catalog slugify) (name : Name) :
    Yields (catalog.getOrCreate name)
      (∀ other, catalog.nameAt? (slugOf slugify name) = some other → other = name)
      (catalog.ensure name) := by
  rw [getOrCreate, ensure]
  cases hrow : catalog.nameAt? (slugOf slugify name) with
  | none =>
    rw [keysWhere_isEmpty_of_ne (by rw [hrow]; exact nofun)]
    exact (Yields.of_ok _).congr ⟨fun _ => nofun, fun _ => trivial⟩
  | some other =>
    by_cases hname : other = name
    · subst hname
      rw [keysWhere_isEmpty.mpr hrow]
      exact (Yields.of_ok _).congr ⟨fun _ _ h => (Option.some.inj h).symm, fun _ => trivial⟩
    · rw [keysWhere_isEmpty_of_ne (by rw [hrow]; exact fun h => hname (Option.some.inj h))]
      intro catalog'
      exact ⟨nofun, fun h => absurd (h.1 other rfl) hname⟩

/-- A row that the names leave is one of the catalog, or of the names. -/
lemma nameAt?_ensureAll_cases (h : (catalog.ensureAll names).nameAt? slug = some other) :
    catalog.nameAt? slug = some other ∨ other ∈ names := by
  induction names generalizing catalog with
  | nil => exact .inl h
  | cons name names ih =>
    rcases ih h with h | h
    · rw [ensure] at h
      split_ifs at h with hrow
      · exact .inl h
      · rw [nameAt?_create] at h
        split_ifs at h with hslug
        · obtain rfl := Option.some.inj h
          exact .inr List.mem_cons_self
        · exact .inl h
    · exact .inr (List.mem_cons_of_mem _ h)

/-- The name that a slug has after the names have been added: that of its row, or the first of them. -/
def spelling (catalog : Catalog slugify) (names : List Name) (slug : String) : Option Name :=
  (catalog.nameAt? slug).or (names.find? fun name => slugOf slugify name = slug)

lemma nameAt?_ensureAll (catalog : Catalog slugify) (names : List Name) (slug : String) :
    (catalog.ensureAll names).nameAt? slug = catalog.spelling names slug := by
  induction names generalizing catalog with
  | nil => exact (Option.or_none).symm
  | cons name names ih =>
    have hrest : (catalog.ensureAll (name :: names)).nameAt? slug
        = (catalog.ensure name).spelling names slug := ih (catalog.ensure name)
    rw [hrest, spelling, spelling, List.find?_cons]
    by_cases hslug : slugOf slugify name = slug
    · rw [decide_eq_true hslug]
      subst hslug
      cases hrow : catalog.nameAt? (slugOf slugify name) with
      | none => rw [ensure, if_neg (by simp [hrow]), nameAt?_create, if_pos rfl]; rfl
      | some other => rw [nameAt?_ensure_of_some hrow]; rfl
    · rw [decide_eq_false hslug, ensure]
      split_ifs with hrow
      · rfl
      · rw [nameAt?_create, if_neg (Ne.symm hslug)]

/-- A name has its row if only a row of its own keeps it from being created. -/
lemma nameAt?_ensure_self
    (h : ∀ other, catalog.nameAt? (slugOf slugify name) = some other → other = name) :
    (catalog.ensure name).nameAt? (slugOf slugify name) = some name := by
  obtain ⟨other, hother⟩ := Option.isSome_iff_exists.mp (isSome_nameAt?_ensure catalog name)
  have hall : (catalog.ensureAll [name]).nameAt? (slugOf slugify name) = some other := hother
  rcases nameAt?_ensureAll_cases hall with hrow | hmem
  · rw [hother, h other hrow]
  · rw [hother, List.mem_singleton.mp hmem]

/-- `get_or_create` of several names succeeds if no two names have one slug. -/
theorem yields_foldlM_getOrCreate (catalog : Catalog slugify) (names : List Name) :
    Yields (names.foldlM getOrCreate catalog) (catalog.Accepts names)
      (catalog.ensureAll names) := by
  refine (Yields.foldlM yields_getOrCreate names catalog).congr ?_
  constructor
  · intro h
    have hend : ∀ name ∈ names,
        (catalog.ensureAll names).nameAt? (slugOf slugify name) = some name := by
      intro name hname
      obtain ⟨done, rest, rfl⟩ := List.append_of_mem hname
      rw [ensureAll, List.foldl_append, List.foldl_cons]
      exact nameAt?_ensureAll_of_some (nameAt?_ensure_self (h done name rest rfl)) rest
    refine ⟨fun name hname other hother => ?_, fun name hname other hother hslug => ?_⟩
    · have hrow := nameAt?_ensureAll_of_some hother names
      rw [hend name hname] at hrow
      exact (Option.some.inj hrow).symm
    · have hrow := hend name hname
      rw [hslug, hend other hother] at hrow
      exact (Option.some.inj hrow).symm
  · rintro ⟨hrows, hnames⟩ done name rest rfl other hother
    rcases nameAt?_ensureAll_cases hother with hother | hmem
    · exact hrows name (by simp) other hother
    · exact hnames other (by simp [hmem]) name (by simp) (slugOf_eq hother)

end Catalog

end Denn.Ingest
