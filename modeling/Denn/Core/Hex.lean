import Denn.Core.Sha256
import Mathlib.Data.List.Basic

/-!
# Bytes in hexadecimal

Two lower-case digits for each byte, and the reading of them, which does not check what it reads.
-/

namespace Denn.Core.Hex

open Sha256 (hexDigits hexDigit hexDigit_mem)

def digitValue (c : Char) : ℕ := hexDigits.idxOf c

/-- `byte.toString(16).padStart(2, "0")` for each byte. -/
def bytesToHex (bytes : List ℕ) : List Char :=
  bytes.flatMap fun byte => [hexDigit (byte / 16), hexDigit (byte % 16)]

/-- `Number.parseInt` of each two digits. -/
def hexToBytes : List Char → List ℕ
  | high :: low :: rest => (16 * digitValue high + digitValue low) :: hexToBytes rest
  | _ => []

/-- The pattern `^[0-9a-f]{n}$`. -/
def isHex (n : ℕ) (text : List Char) : Bool := text.length = n && text.all hexDigits.contains

lemma isHex_iff {n : ℕ} {text : List Char} :
    isHex n text = true ↔ text.length = n ∧ ∀ c ∈ text, c ∈ hexDigits := by
  simp [isHex]

lemma digitValue_hexDigit {n : ℕ} (h : n < 16) : digitValue (hexDigit n) = n :=
  (by decide : ∀ n < 16, digitValue (hexDigit n) = n) n h

lemma hexDigit_digitValue {c : Char} (h : c ∈ hexDigits) : hexDigit (digitValue c) = c := by
  rw [hexDigit, digitValue, List.getD_eq_getElem?_getD, List.getElem?_idxOf h, Option.getD_some]

lemma digitValue_lt {c : Char} (h : c ∈ hexDigits) : digitValue c < 16 :=
  List.idxOf_lt_length_of_mem h

/-- What is written is read as it was. -/
lemma hexToBytes_bytesToHex {bytes : List ℕ} (h : ∀ byte ∈ bytes, byte < 256) :
    hexToBytes (bytesToHex bytes) = bytes := by
  induction bytes with
  | nil => rfl
  | cons byte bytes ih =>
    obtain ⟨hbyte, hbytes⟩ := List.forall_mem_cons.mp h
    have hhigh : digitValue (hexDigit (byte / 16)) = byte / 16 := digitValue_hexDigit (by omega)
    have hlow : digitValue (hexDigit (byte % 16)) = byte % 16 := digitValue_hexDigit (by omega)
    have hcons : bytesToHex (byte :: bytes)
        = hexDigit (byte / 16) :: hexDigit (byte % 16) :: bytesToHex bytes := rfl
    rw [hcons, hexToBytes, hhigh, hlow, ih hbytes, Nat.div_add_mod]

/-- An even number of digits is the text of the bytes that are read off it. -/
lemma bytesToHex_hexToBytes {n : ℕ} {text : List Char} (h : isHex (2 * n) text = true) :
    bytesToHex (hexToBytes text) = text := by
  obtain ⟨hlength, hdigits⟩ := isHex_iff.mp h
  clear h
  induction n generalizing text with
  | zero =>
    obtain rfl := List.length_eq_zero_iff.mp hlength
    rfl
  | succ n ih =>
    match text, hlength with
    | high :: low :: rest, hlength =>
      simp only [List.forall_mem_cons] at hdigits
      obtain ⟨hhigh, hlow, hrest⟩ := hdigits
      have hlt := digitValue_lt hlow
      have hdiv : (16 * digitValue high + digitValue low) / 16 = digitValue high := by omega
      have hmod : (16 * digitValue high + digitValue low) % 16 = digitValue low := by omega
      have hcons : bytesToHex (hexToBytes (high :: low :: rest))
          = hexDigit ((16 * digitValue high + digitValue low) / 16)
            :: hexDigit ((16 * digitValue high + digitValue low) % 16)
            :: bytesToHex (hexToBytes rest) := rfl
      rw [hcons, hdiv, hmod, hexDigit_digitValue hhigh, hexDigit_digitValue hlow,
        ih (by simp only [List.length_cons] at hlength; omega) hrest]

lemma isHex_bytesToHex (bytes : List ℕ) : isHex (2 * bytes.length) (bytesToHex bytes) = true := by
  refine isHex_iff.mpr ⟨?_, fun c hc => ?_⟩
  · induction bytes with
    | nil => rfl
    | cons byte bytes ih =>
      have hcons : (bytesToHex (byte :: bytes)).length = (bytesToHex bytes).length + 2 := rfl
      rw [hcons, ih, List.length_cons]
      omega
  · obtain ⟨byte, -, hc⟩ := List.mem_flatMap.mp hc
    simp only [List.mem_cons, List.not_mem_nil, or_false] at hc
    rcases hc with rfl | rfl <;> exact hexDigit_mem _

end Denn.Core.Hex
