import Denn.Core.Rounding
import Denn.Web.CodeUnits
import Mathlib.Data.Nat.Digits.Lemmas

/-!
# Numbers as text

`Number(text)` and, for whole numbers, `String(number)`. Numbers are those of double precision that are
finite.
-/

namespace Denn.Web

open Core

@[ext]
structure Double where
  value : ℚ
  rounded : toBinary64 value = value
  finite : |value| < 2 ^ 1024
  deriving DecidableEq

/-- The number that is read from an exact value. -/
def Double.ofExact (x : ℚ) : Option Double :=
  if h : |toBinary64 x| < 2 ^ 1024 then some ⟨toBinary64 x, toBinary64_idem x, h⟩ else none

/-- A number without a fraction or a sign. -/
@[ext]
structure Whole where
  value : ℕ
  rounded : toBinary64 value = value
  finite : value < 2 ^ 1024
  deriving DecidableEq

namespace Whole

def ofNat (n : ℕ) (h : n ≤ 2 ^ 53) : Whole where
  value := n
  rounded := by
    have hbound : |(n : ℤ)| ≤ 2 ^ 53 := by
      rw [abs_of_nonneg (Int.natCast_nonneg n)]
      exact_mod_cast h
    simpa using toBinary64_of_le hbound (by norm_num : (-1074 : ℤ) ≤ 0)
  finite := h.trans_lt (pow_lt_pow_right₀ one_lt_two (by norm_num : 53 < 1024))

def one : Whole := ofNat 1 (by norm_num)

def toDouble (n : Whole) : Double :=
  ⟨n.value, n.rounded, by
    rw [abs_of_nonneg (Nat.cast_nonneg n.value)]
    exact_mod_cast n.finite⟩

lemma ofExact {x : ℚ} {n : Whole} (h : toBinary64 x = n.value) : Double.ofExact x = some n.toDouble := by
  have hfinite : |toBinary64 x| < 2 ^ 1024 := h ▸ n.toDouble.finite
  rw [Double.ofExact, dif_pos hfinite]
  exact congrArg some (Double.ext h)

end Whole

/-- `Math.floor(x)`, where that is no negative number. -/
def Double.floor (x : Double) : Whole where
  value := ⌊x.value⌋.toNat
  rounded := by
    rcases le_total 0 ⌊x.value⌋ with hpos | hneg
    · have hcast : ((⌊x.value⌋.toNat : ℕ) : ℚ) = ⌊toBinary64 x.value⌋ := by
        rw [x.rounded]
        exact_mod_cast Int.toNat_of_nonneg hpos
      rw [hcast, toBinary64_floor]
    · rw [Int.toNat_eq_zero.mpr hneg]
      simp [toBinary64, roundHalfEven]
  finite := by
    refine (Int.toNat_lt' (pow_pos two_pos _)).mpr (Int.floor_lt.mpr ?_)
    rw [Int.cast_natCast, Nat.cast_pow, Nat.cast_ofNat]
    exact (le_abs_self _).trans_lt x.finite

lemma Whole.floor_toDouble (n : Whole) : n.toDouble.floor = n := by
  refine Whole.ext ?_
  change ⌊(n.value : ℚ)⌋.toNat = n.value
  rw [Int.floor_natCast, Int.toNat_natCast]

/-! ### Decimal digits -/

def decimal (n : ℕ) : Units := if n = 0 then [48] else ((Nat.digits 10 n).map (48 + ·)).reverse

/-- The value of a run of digits. -/
def digitsValue (digits : Units) : ℕ := Nat.ofDigits 10 (digits.map (· - 48)).reverse

lemma digitsValue_decimal (n : ℕ) : digitsValue (decimal n) = n := by
  rw [decimal, digitsValue]
  split_ifs with hzero
  · rw [hzero]
    rfl
  · rw [← List.map_reverse, List.reverse_reverse, List.map_map]
    have hid : (fun u => u - 48) ∘ (fun d => 48 + d) = id := funext fun d => Nat.add_sub_cancel_left 48 d
    rw [hid, List.map_id, Nat.ofDigits_digits]

lemma digitsValue_append_replicate (digits : Units) (k : ℕ) :
    digitsValue (digits ++ List.replicate k 48) = digitsValue digits * 10 ^ k := by
  rw [digitsValue, List.map_append, List.reverse_append, Nat.ofDigits_append]
  simp [digitsValue, Nat.ofDigits_replicate_zero, mul_comm]

lemma isDigitUnit_of_mem_decimal {n u : ℕ} (h : u ∈ decimal n) : isDigitUnit u = true := by
  rw [decimal] at h
  split_ifs at h with hzero
  · rw [List.mem_singleton.mp h]
    rfl
  · rw [List.mem_reverse] at h
    obtain ⟨d, hd, rfl⟩ := List.mem_map.mp h
    have hlt := Nat.digits_lt_base (by decide) hd
    simp only [isDigitUnit, Bool.and_eq_true, decide_eq_true_eq]
    omega

lemma decimal_ne_nil (n : ℕ) : decimal n ≠ [] := by
  rw [decimal]
  split_ifs with hzero
  · simp
  · simpa [Nat.digits_eq_nil_iff_eq_zero] using hzero

/-! ### Reading a number -/

/-- A sign, and what follows. -/
def readSign : Units → Bool × Units
  | [] => (false, [])
  | u :: text => if u = 45 then (true, text) else if u = 43 then (false, text) else (false, u :: text)

/-- The digits behind a point, and what follows. -/
def readFraction : Units → Units × Units
  | 46 :: text => (text.takeWhile isDigitUnit, text.dropWhile isDigitUnit)
  | text => ([], text)

def readExponent : Units → Option ℤ
  | [] => some 0
  | u :: text =>
    let signed := readSign text
    if (u = 101 ∨ u = 69) ∧ signed.2 ≠ [] ∧ signed.2.all isDigitUnit then
      some (if signed.1 then -digitsValue signed.2 else digitsValue signed.2)
    else none

def readMagnitude (text : Units) : Option ℚ :=
  let whole := text.takeWhile isDigitUnit
  let fraction := readFraction (text.dropWhile isDigitUnit)
  if whole ++ fraction.1 = [] then none
  else (readExponent fraction.2).map fun exponent =>
    digitsValue (whole ++ fraction.1) * 10 ^ (exponent - fraction.1.length : ℤ)

def readDecimal (text : Units) : Option ℚ :=
  let signed := readSign text
  (readMagnitude signed.2).map fun value => if signed.1 then -value else value

def readRadix (radix : ℕ) (text : Units) : Option ℚ :=
  if text = [] then none
  else (text.mapM fun u => (hexUnitValue u).filter (· < radix)).map fun digits =>
    (Nat.ofDigits radix digits.reverse : ℕ)

/-- A number of another radix: `0x`, `0o` and `0b`. -/
def readOther : Units → Option ℚ
  | 48 :: u :: text =>
    if u = 120 ∨ u = 88 then readRadix 16 text
    else if u = 111 ∨ u = 79 then readRadix 8 text
    else if u = 98 ∨ u = 66 then readRadix 2 text
    else none
  | _ => none

/-- `Number(text)`, where it is finite. -/
def toNumber (text : Units) : Option Double :=
  let text := trimUnits text
  let exact := if text = [] then some 0 else (readDecimal text).or (readOther text)
  exact.bind Double.ofExact

/-! ### Writing a whole number -/

/-- The number with `k` leading digits that is the nearest to `n` of those that `n` is read from. -/
def shortened (n k : ℕ) : Option ℕ :=
  let unit : ℕ := 10 ^ ((decimal n).length - k)
  let nearest := (roundHalfEven (n / (unit : ℚ))).toNat
  let other := if nearest * unit ≤ n then nearest + 1 else nearest - 1
  [nearest * unit, other * unit].find? fun value => toBinary64 value = n

/-- Seventeen digits are enough to tell every number from the others. -/
def shortest (n : ℕ) : ℕ := ((List.range' 1 17).findSome? (shortened n)).getD n

/-- The leading digits of a number from `10 ^ 21` on, with a point after the first, and the exponent. -/
def scientific (digits : Units) : Units :=
  let significant := digits.rdropWhile (· = 48)
  let fraction := significant.drop 1
  significant.take 1 ++ (if fraction = [] then [] else 46 :: fraction)
    ++ 101 :: 43 :: decimal (digits.length - 1)

/-- `String(n)`. -/
def numeral (n : ℕ) : Units :=
  if shortest n < 10 ^ 21 then decimal (shortest n) else scientific (decimal (shortest n))

example : numeral 42 = units "42" := by decide +kernel
example : numeral (2 ^ 70) = units "1.1805916207174113e+21" := by decide +kernel
example : numeral (10 ^ 21) = units "1e+21" := by decide +kernel
example : (toNumber (units " 0x1F ")).map Double.value = some 31 := by decide +kernel
example : (toNumber (units "-1.5e3")).map Double.value = some (-1500) := by decide +kernel
example : toNumber (units "1e400") = none := by decide +kernel

/-! ### Reading what was written -/

lemma isBlankPoint_of_numeralUnit {u : ℕ} (h : isDigitUnit u = true ∨ u ∈ [43, 46, 101]) :
    isBlankPoint u = false := by
  have hbounds : 43 ≤ u ∧ u ≤ 101 := by
    rcases h with hdigit | hmem
    · simp only [isDigitUnit, Bool.and_eq_true, decide_eq_true_eq] at hdigit
      omega
    · simp only [List.mem_cons, List.not_mem_nil, or_false] at hmem
      omega
  simp only [isBlankPoint, Bool.or_eq_false_iff, Bool.and_eq_false_iff, decide_eq_false_iff_not,
    beq_eq_false_iff_ne]
  omega

/-- The whole digits, those behind the point and the exponent of a number. -/
def written (whole fraction exponent : Units) : Units :=
  whole ++ (if fraction = [] then [] else 46 :: fraction) ++ exponent

lemma takeWhile_digits {digits rest : Units} (hdigits : ∀ u ∈ digits, isDigitUnit u = true)
    (hrest : ∀ u ∈ rest.head?, isDigitUnit u = false) :
    (digits ++ rest).takeWhile isDigitUnit = digits ∧ (digits ++ rest).dropWhile isDigitUnit = rest := by
  rw [List.takeWhile_append_of_pos hdigits, List.dropWhile_append_of_pos hdigits]
  cases rest with
  | nil => simp
  | cons u rest =>
    have hu := hrest u rfl
    rw [List.takeWhile_cons_of_neg (by simp [hu]), List.dropWhile_cons_of_neg (by simp [hu])]
    exact ⟨List.append_nil _, rfl⟩

lemma readMagnitude_written {whole fraction exponent : Units} {e : ℤ} (hne : whole ≠ [])
    (hwhole : ∀ u ∈ whole, isDigitUnit u = true) (hfraction : ∀ u ∈ fraction, isDigitUnit u = true)
    (hhead : ∀ u ∈ exponent.head?, u = 101) (hexponent : readExponent exponent = some e) :
    readMagnitude (written whole fraction exponent)
      = some ((digitsValue (whole ++ fraction) : ℚ) * 10 ^ (e - fraction.length : ℤ)) := by
  have hstop : ∀ u ∈ exponent.head?, isDigitUnit u = false := by
    intro u hu
    rw [hhead u hu]
    rfl
  obtain ⟨hread, hrest⟩ : readFraction ((if fraction = [] then [] else 46 :: fraction) ++ exponent)
      = (fraction, exponent) ∧
      ∀ u ∈ ((if fraction = [] then [] else 46 :: fraction) ++ exponent).head?, isDigitUnit u = false := by
    split_ifs with hnil
    · refine ⟨?_, hstop⟩
      rw [hnil, List.nil_append]
      unfold readFraction
      split
      · cases hhead 46 rfl
      · rfl
    · obtain ⟨htake, hdrop⟩ := takeWhile_digits hfraction hstop
      refine ⟨?_, fun u hu => ?_⟩
      · rw [List.cons_append, readFraction, htake, hdrop]
      · obtain rfl : 46 = u := Option.some.inj hu
        rfl
  obtain ⟨htake, hdrop⟩ := takeWhile_digits hwhole hrest
  rw [readMagnitude, written, List.append_assoc, htake, hdrop, hread]
  simp [hne, hexponent]

lemma readSign_digits {digits rest : Units} (hne : digits ≠ [])
    (hdigits : ∀ u ∈ digits, isDigitUnit u = true) :
    readSign (digits ++ rest) = (false, digits ++ rest) := by
  cases digits with
  | nil => exact absurd rfl hne
  | cons u digits =>
    have hu := hdigits u List.mem_cons_self
    simp only [isDigitUnit, Bool.and_eq_true, decide_eq_true_eq] at hu
    rw [List.cons_append, readSign, if_neg (by omega), if_neg (by omega)]

lemma readExponent_decimal (n : ℕ) : readExponent (101 :: 43 :: decimal n) = some (n : ℤ) := by
  have hall : (decimal n).all isDigitUnit = true :=
    List.all_eq_true.mpr fun u hu => isDigitUnit_of_mem_decimal hu
  simp [readExponent, readSign, decimal_ne_nil, hall, digitsValue_decimal]

lemma trimUnits_of_forall {text : Units} (h : ∀ u ∈ text, isBlankPoint u = false) :
    trimUnits text = text := by
  have hhead : text.dropWhile isBlankPoint = text := by
    cases text with
    | nil => rfl
    | cons u text => exact List.dropWhile_cons_of_neg (by simp [h u List.mem_cons_self])
  rw [trimUnits, hhead, List.rdropWhile_eq_self_iff]
  intro hne
  simp [h _ (List.getLast_mem hne)]

/-- A number is read from its digits. -/
lemma toNumber_written {whole fraction exponent : Units} {e : ℤ} (hne : whole ≠ [])
    (hwhole : ∀ u ∈ whole, isDigitUnit u = true) (hfraction : ∀ u ∈ fraction, isDigitUnit u = true)
    (hhead : ∀ u ∈ exponent.head?, u = 101) (hexponent : readExponent exponent = some e)
    (hunits : ∀ u ∈ exponent, isDigitUnit u = true ∨ u ∈ [43, 46, 101]) :
    toNumber (written whole fraction exponent)
      = Double.ofExact (digitsValue (whole ++ fraction) * 10 ^ (e - fraction.length : ℤ)) := by
  have htrim : trimUnits (written whole fraction exponent) = written whole fraction exponent := by
    refine trimUnits_of_forall fun u hu => isBlankPoint_of_numeralUnit ?_
    rw [written, List.mem_append, List.mem_append] at hu
    rcases hu with (hu | hu) | hu
    · exact .inl (hwhole u hu)
    · split_ifs at hu with hnil
      · exact absurd hu List.not_mem_nil
      · rcases List.mem_cons.mp hu with rfl | hu
        · exact .inr (by decide)
        · exact .inl (hfraction u hu)
    · exact hunits u hu
  have hnonempty : written whole fraction exponent ≠ [] := by simp [written, hne]
  have hsign : readSign (written whole fraction exponent) = (false, written whole fraction exponent) := by
    rw [written, List.append_assoc]
    exact readSign_digits hne hwhole
  have hdecimal : readDecimal (written whole fraction exponent)
      = some ((digitsValue (whole ++ fraction) : ℚ) * 10 ^ (e - fraction.length : ℤ)) := by
    simp only [readDecimal, hsign, readMagnitude_written hne hwhole hfraction hhead hexponent,
      Option.map_some, Bool.false_eq_true, if_false]
  simp only [toNumber, htrim, if_neg hnonempty, hdecimal, Option.some_or, Option.bind_some]

lemma toNumber_decimal (n : ℕ) : toNumber (decimal n) = Double.ofExact n := by
  have h := @toNumber_written (decimal n) [] [] 0 (decimal_ne_nil n)
    (fun u => isDigitUnit_of_mem_decimal) (by simp) (by simp) rfl (by simp)
  simpa [written, digitsValue_decimal] using h

lemma exists_significant (digits : Units) :
    ∃ k, digits = digits.rdropWhile (· = 48) ++ List.replicate k 48 := by
  refine ⟨(digits.rtakeWhile (· = 48)).length, ?_⟩
  have hzeros : digits.rtakeWhile (· = 48) = List.replicate (digits.rtakeWhile (· = 48)).length 48 :=
    List.eq_replicate_iff.mpr ⟨rfl, fun u hu => by simpa using List.mem_rtakeWhile_imp hu⟩
  rw [← hzeros, List.rdropWhile_append_rtakeWhile]

lemma toNumber_scientific {n : ℕ} (hn : n ≠ 0) :
    toNumber (scientific (decimal n)) = Double.ofExact n := by
  obtain ⟨k, hk⟩ := exists_significant (decimal n)
  set significant := (decimal n).rdropWhile (· = 48) with hsignificant
  have hvalue : (n : ℚ) = digitsValue significant * 10 ^ k := by
    have hdigits := digitsValue_decimal n
    rw [hk, digitsValue_append_replicate] at hdigits
    exact_mod_cast hdigits.symm
  have hne : significant ≠ [] := by
    intro hnil
    rw [hnil] at hvalue
    exact hn (by exact_mod_cast hvalue.trans (zero_mul _))
  have hdigit : ∀ u ∈ significant, isDigitUnit u = true := by
    intro u hu
    refine isDigitUnit_of_mem_decimal (n := n) ?_
    rw [hk]
    exact List.mem_append_left _ hu
  have hlength : (decimal n).length = significant.length + k := by
    nth_rewrite 1 [hk]
    rw [List.length_append, List.length_replicate]
  have hpos := List.length_pos_of_ne_nil hne
  have h := @toNumber_written (significant.take 1) (significant.drop 1)
    (101 :: 43 :: decimal ((decimal n).length - 1)) ((decimal n).length - 1 : ℕ) (by simp [hne])
    (fun u hu => hdigit u (List.mem_of_mem_take hu)) (fun u hu => hdigit u (List.mem_of_mem_drop hu))
    (by simp) (readExponent_decimal _) (fun u hu => ?_)
  · rw [List.take_append_drop, List.length_drop] at h
    have hpower : (((decimal n).length - 1 : ℕ) : ℤ) - ((significant.length - 1 : ℕ) : ℤ) = (k : ℕ) := by
      omega
    rw [hpower, zpow_natCast, ← hvalue] at h
    exact h
  · rcases List.mem_cons.mp hu with rfl | hu
    · exact .inr (by decide)
    · rcases List.mem_cons.mp hu with rfl | hu
      · exact .inr (by decide)
      · exact .inl (isDigitUnit_of_mem_decimal hu)

lemma mem_scientific {n u : ℕ} (h : u ∈ scientific (decimal n)) :
    isDigitUnit u = true ∨ u ∈ [43, 46, 101] := by
  have hdigit : ∀ u ∈ (decimal n).rdropWhile (· = 48), isDigitUnit u = true := fun u hu =>
    isDigitUnit_of_mem_decimal ((List.rdropWhile_prefix _ _).subset hu)
  simp only [scientific, List.mem_append, List.mem_cons] at h
  rcases h with (h | h) | rfl | rfl | h
  · exact .inl (hdigit u (List.mem_of_mem_take h))
  · split_ifs at h with hnil
    · exact absurd h List.not_mem_nil
    · rcases List.mem_cons.mp h with rfl | h
      · exact .inr (by decide)
      · exact .inl (hdigit u (List.mem_of_mem_drop h))
  · exact .inr (by decide)
  · exact .inr (by decide)
  · exact .inl (isDigitUnit_of_mem_decimal h)

lemma mem_numeral {n u : ℕ} (h : u ∈ numeral n) : isDigitUnit u = true ∨ u ∈ [43, 46, 101] := by
  rw [numeral] at h
  split_ifs at h
  · exact .inl (isDigitUnit_of_mem_decimal h)
  · exact mem_scientific h

/-- The shortened number is read as the number itself. -/
lemma toBinary64_shortest {n : ℕ} (hn : toBinary64 n = n) : toBinary64 (shortest n) = n := by
  rw [shortest]
  cases hfound : (List.range' 1 17).findSome? (shortened n) with
  | none => exact hn
  | some value =>
    obtain ⟨k, -, hk⟩ := List.exists_of_findSome?_eq_some hfound
    simpa using List.find?_some hk

/-- `Number(String(n))`. -/
theorem toNumber_numeral {n : Whole} (hpos : 0 < n.value) :
    toNumber (numeral n.value) = some n.toDouble := by
  have hshortest := toBinary64_shortest n.rounded
  have hne : shortest n.value ≠ 0 := by
    intro hzero
    rw [hzero] at hshortest
    have : (0 : ℚ) = n.value := by simpa [toBinary64, roundHalfEven] using hshortest
    exact hpos.ne (by exact_mod_cast this)
  rw [numeral]
  split_ifs
  · rw [toNumber_decimal, Whole.ofExact hshortest]
  · rw [toNumber_scientific hne, Whole.ofExact hshortest]

end Denn.Web
