import Denn.Core.Sha256
import Mathlib.Data.List.Sort
import Mathlib.Data.Rat.Defs
import Mathlib.Data.String.Basic

/-!
# JSON values

Values as a JSON parser hands them over, with the operations that payloads are read by, and the
canonical text (sorted keys, no blanks) of values without numbers.
-/

namespace Denn.Core

/-- A JSON value. Integers and floats are different types of the source language. -/
inductive Json where
  | null
  | bool (b : Bool)
  | int (n : ℤ)
  | float (q : ℚ)
  | str (s : String)
  | arr (values : List Json)
  | obj (fields : List (String × Json))
  deriving Inhabited, Repr

namespace Json

/-- `value.get(key)` of an object. -/
def get (value : Json) (key : String) : Json :=
  match value with
  | obj fields => (fields.lookup key).getD null
  | _ => null

/-- `type(value).__name__`. -/
def typeName : Json → String
  | null => "NoneType"
  | bool _ => "bool"
  | int _ => "int"
  | float _ => "float"
  | str _ => "str"
  | arr _ => "list"
  | obj _ => "dict"

/-- The truth value of a condition. -/
def truthy : Json → Bool
  | null => false
  | bool b => b
  | int n => n ≠ 0
  | float q => q ≠ 0
  | str s => s ≠ ""
  | arr values => !values.isEmpty
  | obj fields => !fields.isEmpty

/-- `a or b`. -/
def or (a b : Json) : Json := if a.truthy then a else b

def strings (values : List String) : Json := arr (values.map str)

/-- The number that a value compares as. -/
def number? : Json → Option ℚ
  | bool b => some (if b then 1 else 0)
  | int n => some n
  | float q => some q
  | _ => none

mutual

/-- `a == b`: numbers of different types compare by value, objects in any order of their keys. -/
def equals : Json → Json → Bool
  | null, null => true
  | str a, str b => a = b
  | arr values, arr values' => equalsList values values'
  | obj fields, obj fields' => fields.length = fields'.length && equalsFields fields fields'
  | a, b => a.number?.isSome && a.number? = b.number?

def equalsList : List Json → List Json → Bool
  | [], [] => true
  | value :: values, value' :: values' => value.equals value' && equalsList values values'
  | _, _ => false

/-- Each of the fields is one of the others. -/
def equalsFields : List (String × Json) → List (String × Json) → Bool
  | [], _ => true
  | (key, value) :: fields, fields' =>
    (match fields'.lookup key with
    | some value' => value.equals value'
    | none => false) && equalsFields fields fields'

end

def setField (key : String) (value : Json) : List (String × Json) → List (String × Json)
  | [] => [(key, value)]
  | field :: fields =>
    if field.1 = key then (key, value) :: fields else field :: setField key value fields

/-- `target[key] = value` in an object. -/
def set (target : Json) (key : String) (value : Json) : Json :=
  match target with
  | obj fields => obj (setField key value fields)
  | other => other

lemma lookup_cons_eq_ite (field : String × Json) (fields : List (String × Json)) (k : String) :
    (field :: fields).lookup k = if k = field.1 then some field.2 else fields.lookup k := by
  obtain ⟨name, value⟩ := field
  by_cases h : k = name
  · simp [h]
  · simp [List.lookup_cons, h, beq_false_of_ne h]

lemma lookup_setField (key : String) (value : Json) (fields : List (String × Json)) (k : String) :
    (setField key value fields).lookup k = if k = key then some value else fields.lookup k := by
  induction fields with
  | nil => rw [setField, lookup_cons_eq_ite]
  | cons field fields ih =>
    rw [setField]
    by_cases hname : field.1 = key
    · rw [if_pos hname, lookup_cons_eq_ite, lookup_cons_eq_ite, hname]
      split_ifs <;> rfl
    · rw [if_neg hname, lookup_cons_eq_ite, lookup_cons_eq_ite, ih]
      by_cases h : k = key
      · rw [if_neg (h ▸ Ne.symm hname), if_pos h, if_pos h]
      · simp only [h, if_false]

lemma get_set {target : Json} (h : ∃ fields, target = obj fields) (key : String) (value : Json)
    (k : String) : (target.set key value).get k = if k = key then value else target.get k := by
  obtain ⟨fields, rfl⟩ := h
  simp only [set, get, lookup_setField]
  split_ifs <;> rfl

end Json

/-- A JSON value without numbers, booleans and nulls. -/
inductive TextTree where
  | text (s : String)
  | list (values : List TextTree)
  | object (fields : List (String × TextTree))
  deriving Inhabited, Repr

namespace TextTree

def texts (values : List String) : TextTree := list (values.map text)

/-! ### Canonical text -/

/-- A character inside a string literal, with `ensure_ascii=False`. -/
def escapeChar (c : Char) : List Char :=
  if c = '"' then ['\\', '"']
  else if c = '\\' then ['\\', '\\']
  else if c = '\n' then ['\\', 'n']
  else if c = '\r' then ['\\', 'r']
  else if c = '\t' then ['\\', 't']
  else if c.toNat = 0x08 then ['\\', 'b']
  else if c.toNat = 0x0C then ['\\', 'f']
  else if c.toNat < 0x20 then
    ['\\', 'u', '0', '0', Sha256.hexDigit (c.toNat / 16), Sha256.hexDigit (c.toNat % 16)]
  else [c]

def literal (s : String) : List Char := '"' :: s.toList.flatMap escapeChar ++ ['"']

def bracket (opening closing : Char) (texts : List (List Char)) : List Char :=
  opening :: [','].intercalate texts ++ [closing]

mutual

/-- `json.dumps(value, sort_keys=True, ensure_ascii=False, separators=(",", ":"))`. -/
def dumps : TextTree → List Char
  | text s => literal s
  | list values => bracket '[' ']' (dumpsList values)
  | object fields =>
    bracket '{' '}' (((dumpsFields fields).insertionSort fun a b => a.1 ≤ b.1).map
      fun field => literal field.1 ++ ':' :: field.2)

def dumpsList : List TextTree → List (List Char)
  | [] => []
  | value :: values => dumps value :: dumpsList values

def dumpsFields : List (String × TextTree) → List (String × List Char)
  | [] => []
  | (key, value) :: fields => (key, dumps value) :: dumpsFields fields

end

end TextTree

end Denn.Core
