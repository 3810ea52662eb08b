import Mathlib.Algebra.Group.Nat.Defs
import Mathlib.Data.Nat.Notation
import Mathlib.Tactic.Common

/-!
# SHA-256

`hashlib.sha256(text.encode("utf-8")).hexdigest()`. Words are natural numbers below `2 ^ 32`.
-/

namespace Denn.Core.Sha256

def wordSize : ℕ := 2 ^ 32

def rotr (n x : ℕ) : ℕ := (x >>> n) ||| ((x <<< (32 - n)) % wordSize)

def smallSigma0 (x : ℕ) : ℕ := rotr 7 x ^^^ rotr 18 x ^^^ (x >>> 3)

def smallSigma1 (x : ℕ) : ℕ := rotr 17 x ^^^ rotr 19 x ^^^ (x >>> 10)

def bigSigma0 (x : ℕ) : ℕ := rotr 2 x ^^^ rotr 13 x ^^^ rotr 22 x

def bigSigma1 (x : ℕ) : ℕ := rotr 6 x ^^^ rotr 11 x ^^^ rotr 25 x

def choose (x y z : ℕ) : ℕ := (x &&& y) ^^^ ((wordSize - 1 - x) &&& z)

def majority (x y z : ℕ) : ℕ := (x &&& y) ^^^ (x &&& z) ^^^ (y &&& z)

/-- The first 32 bits of the fractional parts of the cube roots of the first 64 primes. -/
def roundConstants : List ℕ :=
  [0x428a2f98, 0x71374491, 0xb5c0fbcf, 0xe9b5dba5, 0x3956c25b, 0x59f111f1, 0x923f82a4, 0xab1c5ed5,
   0xd807aa98, 0x12835b01, 0x243185be, 0x550c7dc3, 0x72be5d74, 0x80deb1fe, 0x9bdc06a7, 0xc19bf174,
   0xe49b69c1, 0xefbe4786, 0x0fc19dc6, 0x240ca1cc, 0x2de92c6f, 0x4a7484aa, 0x5cb0a9dc, 0x76f988da,
   0x983e5152, 0xa831c66d, 0xb00327c8, 0xbf597fc7, 0xc6e00bf3, 0xd5a79147, 0x06ca6351, 0x14292967,
   0x27b70a85, 0x2e1b2138, 0x4d2c6dfc, 0x53380d13, 0x650a7354, 0x766a0abb, 0x81c2c92e, 0x92722c85,
   0xa2bfe8a1, 0xa81a664b, 0xc24b8b70, 0xc76c51a3, 0xd192e819, 0xd6990624, 0xf40e3585, 0x106aa070,
   0x19a4c116, 0x1e376c08, 0x2748774c, 0x34b0bcb5, 0x391c0cb3, 0x4ed8aa4a, 0x5b9cca4f, 0x682e6ff3,
   0x748f82ee, 0x78a5636f, 0x84c87814, 0x8cc70208, 0x90befffa, 0xa4506ceb, 0xbef9a3f7, 0xc67178f2]

/-- The eight working variables. -/
structure Working where
  a : ℕ
  b : ℕ
  c : ℕ
  d : ℕ
  e : ℕ
  f : ℕ
  g : ℕ
  h : ℕ

def initial : Working :=
  ⟨0x6a09e667, 0xbb67ae85, 0x3c6ef372, 0xa54ff53a, 0x510e527f, 0x9b05688c, 0x1f83d9ab, 0x5be0cd19⟩

def round (constant word : ℕ) (s : Working) : Working :=
  let t₁ := s.h + bigSigma1 s.e + choose s.e s.f s.g + constant + word
  let t₂ := bigSigma0 s.a + majority s.a s.b s.c
  ⟨(t₁ + t₂) % wordSize, s.a, s.b, s.c, (s.d + t₁) % wordSize, s.e, s.f, s.g⟩

/-- Extend a schedule, newest word first. -/
def extend : ℕ → List ℕ → List ℕ
  | 0, words => words
  | n + 1, words =>
    extend n ((smallSigma1 (words.getD 1 0) + words.getD 6 0 + smallSigma0 (words.getD 14 0)
      + words.getD 15 0) % wordSize :: words)

def schedule (block : List ℕ) : List ℕ := (extend 48 block.reverse).reverse

def rounds : List ℕ → List ℕ → Working → Working
  | constant :: constants, word :: words, s => rounds constants words (round constant word s)
  | _, _, s => s

def compress (s : Working) (block : List ℕ) : Working :=
  let r := rounds roundConstants (schedule block) s
  ⟨(s.a + r.a) % wordSize, (s.b + r.b) % wordSize, (s.c + r.c) % wordSize, (s.d + r.d) % wordSize,
   (s.e + r.e) % wordSize, (s.f + r.f) % wordSize, (s.g + r.g) % wordSize, (s.h + r.h) % wordSize⟩

/-- The big-endian words of a list of bytes. -/
def toWords : List ℕ → List ℕ
  | a :: b :: c :: d :: bytes => (a <<< 24 ||| b <<< 16 ||| c <<< 8 ||| d) :: toWords bytes
  | _ => []

def pad (bytes : List ℕ) : List ℕ :=
  let bits := 8 * bytes.length
  bytes ++ 0x80 :: List.replicate ((119 - bytes.length % 64) % 64) 0
    ++ [56, 48, 40, 32, 24, 16, 8, 0].map fun shift => (bits >>> shift) % 256

/-- Compress the blocks of sixteen words one after the other. -/
def compressAll : ℕ → List ℕ → Working → Working
  | 0, _, s => s
  | blocks + 1, words, s => compressAll blocks (words.drop 16) (compress s (words.take 16))

def hash (bytes : List ℕ) : Working :=
  let words := toWords (pad bytes)
  compressAll (words.length / 16) words initial

def hexDigits : List Char :=
  ['0', '1', '2', '3', '4', '5', '6', '7', '8', '9', 'a', 'b', 'c', 'd', 'e', 'f']

def hexDigit (n : ℕ) : Char := hexDigits.getD n '0'

def hexWord (word : ℕ) : List Char :=
  [28, 24, 20, 16, 12, 8, 4, 0].map fun shift => hexDigit ((word >>> shift) % 16)

/-- The bytes of a character in UTF-8. -/
def utf8 (c : Char) : List ℕ :=
  let n := c.toNat
  if n < 0x80 then [n]
  else if n < 0x800 then [0xC0 ||| n >>> 6, 0x80 ||| n &&& 0x3F]
  else if n < 0x10000 then [0xE0 ||| n >>> 12, 0x80 ||| (n >>> 6) &&& 0x3F, 0x80 ||| n &&& 0x3F]
  else [0xF0 ||| n >>> 18, 0x80 ||| (n >>> 12) &&& 0x3F, 0x80 ||| (n >>> 6) &&& 0x3F,
    0x80 ||| n &&& 0x3F]

def hexdigest (text : List Char) : String :=
  let w := hash (text.flatMap utf8)
  String.ofList ([w.a, w.b, w.c, w.d, w.e, w.f, w.g, w.h].flatMap hexWord)

lemma hexWord_length (word : ℕ) : (hexWord word).length = 8 := rfl

lemma hexdigest_length (text : List Char) : (hexdigest text).length = 64 := by
  simp [hexdigest, hexWord_length]

lemma hexDigit_mem (n : ℕ) : hexDigit n ∈ hexDigits := by
  rw [hexDigit, List.getD_eq_getElem?_getD]
  cases h : hexDigits[n]? with
  | none => decide
  | some c => exact List.mem_of_getElem? h

lemma mem_hexDigits_of_mem_hexdigest {text : List Char} {c : Char}
    (h : c ∈ (hexdigest text).toList) : c ∈ hexDigits := by
  rw [hexdigest, String.toList_ofList, List.mem_flatMap] at h
  obtain ⟨word, -, hc⟩ := h
  rw [hexWord, List.mem_map] at hc
  obtain ⟨shift, -, rfl⟩ := hc
  exact hexDigit_mem _

lemma hexdigest_ne_empty (text : List Char) : hexdigest text ≠ "" := by
  intro h
  have hlength := hexdigest_length text
  rw [h] at hlength
  cases hlength

example : hexdigest ['a', 'b', 'c'] = 
    "ba7816bf8f01cfea414140de5dae2223b00361a396177a9cb410ff61f20015ad" := by decide +kernel

end Denn.Core.Sha256
