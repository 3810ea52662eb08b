import Denn.Core.Sha256

/-!
# MD5

`fmt.Sprintf("%x", md5.Sum([]byte(text)))`. Words are natural numbers below `2 ^ 32`.
-/

namespace Denn.Core.Md5

open Sha256 (wordSize utf8 hexDigit hexDigits)

def rotl (n x : ℕ) : ℕ := ((x <<< n) % wordSize) ||| (x >>> (32 - n))

def complement (x : ℕ) : ℕ := wordSize - 1 - x

/-- The integer parts of `2 ^ 32 * |sin (i + 1)|`. -/
def sineConstants : List ℕ :=
  [0xd76aa478, 0xe8c7b756, 0x242070db, 0xc1bdceee, 0xf57c0faf, 0x4787c62a, 0xa8304613, 0xfd469501,
   0x698098d8, 0x8b44f7af, 0xffff5bb1, 0x895cd7be, 0x6b901122, 0xfd987193, 0xa679438e, 0x49b40821,
   0xf61e2562, 0xc040b340, 0x265e5a51, 0xe9b6c7aa, 0xd62f105d, 0x02441453, 0xd8a1e681, 0xe7d3fbc8,
   0x21e1cde6, 0xc33707d6, 0xf4d50d87, 0x455a14ed, 0xa9e3e905, 0xfcefa3f8, 0x676f02d9, 0x8d2a4c8a,
   0xfffa3942, 0x8771f681, 0x6d9d6122, 0xfde5380c, 0xa4beea44, 0x4bdecfa9, 0xf6bb4b60, 0xbebfbc70,
   0x289b7ec6, 0xeaa127fa, 0xd4ef3085, 0x04881d05, 0xd9d4d039, 0xe6db99e5, 0x1fa27cf8, 0xc4ac5665,
   0xf4292244, 0x432aff97, 0xab9423a7, 0xfc93a039, 0x655b59c3, 0x8f0ccc92, 0xffeff47d, 0x85845dd1,
   0x6fa87e4f, 0xfe2ce6e0, 0xa3014314, 0x4e0811a1, 0xf7537e82, 0xbd3af235, 0x2ad7d2bb, 0xeb86d391]

/-- The four shifts of each of the four rounds. -/
def shifts : List (List ℕ) := [[7, 12, 17, 22], [5, 9, 14, 20], [4, 11, 16, 23], [6, 10, 15, 21]]

/-- The four working variables. -/
structure Working where
  a : ℕ
  b : ℕ
  c : ℕ
  d : ℕ

def initial : Working := ⟨0x67452301, 0xefcdab89, 0x98badcfe, 0x10325476⟩

/-- The function of a step, with the index of the word it adds. -/
def mix (i : ℕ) (s : Working) : ℕ × ℕ :=
  if i < 16 then ((s.b &&& s.c) ||| (complement s.b &&& s.d), i)
  else if i < 32 then ((s.d &&& s.b) ||| (complement s.d &&& s.c), (5 * i + 1) % 16)
  else if i < 48 then (s.b ^^^ s.c ^^^ s.d, (3 * i + 5) % 16)
  else (s.c ^^^ (s.b ||| complement s.d), 7 * i % 16)

def step (block : List ℕ) (s : Working) (i : ℕ) : Working :=
  let (f, g) := mix i s
  let sum := (f + s.a + sineConstants.getD i 0 + block.getD g 0) % wordSize
  let shift := (shifts.getD (i / 16) []).getD (i % 4) 0
  ⟨s.d, (s.b + rotl shift sum) % wordSize, s.b, s.c⟩

def compress (s : Working) (block : List ℕ) : Working :=
  let r := (List.range 64).foldl (step block) s
  ⟨(s.a + r.a) % wordSize, (s.b + r.b) % wordSize, (s.c + r.c) % wordSize, (s.d + r.d) % wordSize⟩

/-- The little-endian words of a list of bytes. -/
def toWords : List ℕ → List ℕ
  | a :: b :: c :: d :: bytes => (d <<< 24 ||| c <<< 16 ||| b <<< 8 ||| a) :: toWords bytes
  | _ => []

def pad (bytes : List ℕ) : List ℕ :=
  let bits := 8 * bytes.length
  bytes ++ 0x80 :: List.replicate ((119 - bytes.length % 64) % 64) 0
    ++ [0, 8, 16, 24, 32, 40, 48, 56].map fun shift => (bits >>> shift) % 256

/-- Compress the blocks of sixteen words one after the other. -/
def compressAll : ℕ → List ℕ → Working → Working
  | 0, _, s => s
  | blocks + 1, words, s => compressAll blocks (words.drop 16) (compress s (words.take 16))

def hash (bytes : List ℕ) : Working :=
  let words := toWords (pad bytes)
  compressAll (words.length / 16) words initial

/-- The bytes of a word in hexadecimal, the lowest byte first. -/
def hexWord (word : ℕ) : List Char :=
  [4, 0, 12, 8, 20, 16, 28, 24].map fun shift => hexDigit ((word >>> shift) % 16)

def hexdigest (text : List Char) : List Char :=
  let w := hash (text.flatMap utf8)
  [w.a, w.b, w.c, w.d].flatMap hexWord

lemma mem_hexDigits_of_mem_hexdigest {text : List Char} {c : Char} (h : c ∈ hexdigest text) :
    c ∈ hexDigits := by
  rw [hexdigest, List.mem_flatMap] at h
  obtain ⟨word, -, hc⟩ := h
  rw [hexWord, List.mem_map] at hc
  obtain ⟨shift, -, rfl⟩ := hc
  exact Sha256.hexDigit_mem _

example : hexdigest ['a', 'b', 'c'] = "900150983cd24fb0d6963f7d28e17f72".toList := by
  decide +kernel

end Denn.Core.Md5
