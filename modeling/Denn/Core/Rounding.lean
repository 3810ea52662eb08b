import Mathlib.Algebra.Order.Floor.Ring
import Mathlib.Data.Int.Log
import Mathlib.Data.Rat.Floor
import Mathlib.Tactic.FieldSimp
import Mathlib.Tactic.Linarith
import Mathlib.Tactic.Ring

/-!
# Rounding

Rounding to the nearest integer with ties to even, to the nearest double precision number, and of a
double precision number to one decimal. Numbers are exact rationals; a value too large for double
precision is out of scope.
-/

namespace Denn.Core

/-- The nearest integer, the even one of two. -/
def roundHalfEven (x : ℚ) : ℤ :=
  if x - ⌊x⌋ < 1 / 2 then ⌊x⌋
  else if 1 / 2 < x - ⌊x⌋ then ⌊x⌋ + 1
  else if ⌊x⌋ % 2 = 0 then ⌊x⌋ else ⌊x⌋ + 1

lemma abs_roundHalfEven_sub_le (x : ℚ) : |(roundHalfEven x : ℚ) - x| ≤ 1 / 2 := by
  have hfloor := Int.floor_le x
  have hlt := Int.lt_floor_add_one x
  unfold roundHalfEven
  rw [abs_le]
  split_ifs with hbelow habove heven
  · constructor <;> linarith
  · push_cast
    constructor <;> linarith
  · constructor <;> linarith
  · push_cast
    constructor <;> linarith

lemma roundHalfEven_le {x : ℚ} {n : ℤ} (hle : x ≤ n) : roundHalfEven x ≤ n := by
  have hround := (abs_le.mp (abs_roundHalfEven_sub_le x)).2
  have hlt : (roundHalfEven x : ℚ) < ((n + 1 : ℤ) : ℚ) := by
    push_cast
    linarith
  have := Int.cast_lt.mp hlt
  omega

lemma roundHalfEven_nonneg {x : ℚ} (hx : 0 ≤ x) : 0 ≤ roundHalfEven x := by
  have hround := (abs_le.mp (abs_roundHalfEven_sub_le x)).1
  have hlt : ((-1 : ℤ) : ℚ) < (roundHalfEven x : ℚ) := by
    push_cast
    linarith
  have := Int.cast_lt.mp hlt
  omega

lemma roundHalfEven_intCast (n : ℤ) : roundHalfEven n = n := by
  rw [roundHalfEven, Int.floor_intCast, sub_self, if_pos (by norm_num)]

lemma le_roundHalfEven {x : ℚ} {n : ℤ} (hle : (n : ℚ) ≤ x) : n ≤ roundHalfEven x := by
  have hround := (abs_le.mp (abs_roundHalfEven_sub_le x)).1
  have hlt : ((n - 1 : ℤ) : ℚ) < (roundHalfEven x : ℚ) := by
    push_cast
    linarith
  have := Int.cast_lt.mp hlt
  omega

/-- The distance of neighbouring double precision numbers of the size of `x`. -/
def ulp (x : ℚ) : ℚ := 2 ^ max (Int.log 2 |x| - 52) (-1074)

lemma ulp_pos (x : ℚ) : 0 < ulp x := zpow_pos (by norm_num) _

/-- Below a power of two the spacing is 53 binary places finer. -/
lemma ulp_le {x : ℚ} {e : ℤ} (he : -1021 ≤ e) (h : |x| < 2 ^ e) (hx : x ≠ 0) :
    ulp x ≤ 2 ^ (e - 53) := by
  have hlog : Int.log 2 |x| < e :=
    (Int.lt_zpow_iff_log_lt (by norm_num) (abs_pos.mpr hx)).mp (by exact_mod_cast h)
  refine zpow_le_zpow_right₀ (by norm_num) (max_le ?_ ?_) <;> omega

/-- `float(x)`. -/
def toBinary64 (x : ℚ) : ℚ := roundHalfEven (x / ulp x) * ulp x

lemma abs_toBinary64_sub_le (x : ℚ) : |toBinary64 x - x| ≤ ulp x / 2 := by
  have hulp := ulp_pos x
  have hscale : toBinary64 x - x = (roundHalfEven (x / ulp x) - x / ulp x) * ulp x := by
    rw [toBinary64, sub_mul, div_mul_cancel₀ x hulp.ne']
  calc |toBinary64 x - x|
      = |(roundHalfEven (x / ulp x) : ℚ) - x / ulp x| * ulp x := by
        rw [hscale, abs_mul, abs_of_pos hulp]
    _ ≤ 1 / 2 * ulp x :=
        mul_le_mul_of_nonneg_right (abs_roundHalfEven_sub_le _) hulp.le
    _ = ulp x / 2 := by ring

lemma toBinary64_nonneg {x : ℚ} (hx : 0 ≤ x) : 0 ≤ toBinary64 x :=
  mul_nonneg (Int.cast_nonneg (roundHalfEven_nonneg (div_nonneg hx (ulp_pos x).le))) (ulp_pos x).le

/-- A whole number of at most 53 places is not passed by rounding. -/
lemma toBinary64_le {x : ℚ} {n : ℕ} (hx : 0 ≤ x) (hle : x ≤ n) (hn : n < 2 ^ 53) :
    toBinary64 x ≤ n := by
  obtain ⟨e, he⟩ : ∃ e : ℕ, max (Int.log 2 |x| - 52) (-1074) = -(e : ℤ) := by
    have hlog : Int.log 2 |x| < 53 := by
      rcases hx.eq_or_lt with rfl | hpos
      · simp
      · refine (Int.lt_zpow_iff_log_lt (by norm_num) (abs_pos.mpr hpos.ne')).mp ?_
        rw [abs_of_nonneg hx]
        exact hle.trans_lt (by exact_mod_cast hn)
    exact ⟨(-max (Int.log 2 |x| - 52) (-1074)).toNat, by omega⟩
  have hulp : ulp x = (2 ^ e)⁻¹ := by
    rw [ulp, he, zpow_neg, zpow_natCast]
  -- the number is a multiple of the spacing
  have hmultiple : x / ulp x ≤ ((n * 2 ^ e : ℕ) : ℤ) := by
    rw [hulp, div_inv_eq_mul]
    push_cast
    exact mul_le_mul_of_nonneg_right hle (by positivity)
  have hround : (roundHalfEven (x / ulp x) : ℚ) ≤ n * 2 ^ e := by
    exact_mod_cast roundHalfEven_le hmultiple
  calc toBinary64 x = roundHalfEven (x / ulp x) * (2 ^ e)⁻¹ := by rw [toBinary64, hulp]
    _ ≤ n * 2 ^ e * (2 ^ e)⁻¹ := mul_le_mul_of_nonneg_right hround (by positivity)
    _ = n := mul_inv_cancel_right₀ (by positivity) _

/-- Numbers with fewer than 54 binary digits stay as they are. -/
lemma toBinary64_of_lt {k e : ℤ} (hk : |k| < 2 ^ 53) (he : -1074 ≤ e) :
    toBinary64 (k * 2 ^ e) = k * 2 ^ e := by
  rcases eq_or_ne k 0 with rfl | hne
  · simp [toBinary64, roundHalfEven]
  have hpos : (0 : ℚ) < 2 ^ e := zpow_pos two_pos e
  have hx : |(k : ℚ) * 2 ^ e| < 2 ^ (e + 53) := by
    rw [abs_mul, abs_of_pos hpos, zpow_add₀ two_ne_zero, mul_comm]
    refine mul_lt_mul_of_pos_left ?_ hpos
    exact_mod_cast hk
  have hlog : Int.log 2 |(k : ℚ) * 2 ^ e| < e + 53 := by
    refine (Int.lt_zpow_iff_log_lt (by norm_num) (abs_pos.mpr ?_)).mp (by exact_mod_cast hx)
    exact mul_ne_zero (Int.cast_ne_zero.mpr hne) hpos.ne'
  -- the spacing divides the number
  obtain ⟨j, hj⟩ : ∃ j : ℕ, e = max (Int.log 2 |(k : ℚ) * 2 ^ e| - 52) (-1074) + j :=
    ⟨(e - max (Int.log 2 |(k : ℚ) * 2 ^ e| - 52) (-1074)).toNat, by omega⟩
  have hm : (k : ℚ) * 2 ^ e = (k * 2 ^ j : ℤ) * ulp (k * 2 ^ e) := by
    rw [ulp]
    nth_rewrite 1 [hj]
    rw [zpow_add₀ two_ne_zero, zpow_natCast]
    push_cast
    ring
  have hulp := (ulp_pos ((k : ℚ) * 2 ^ e)).ne'
  rw [toBinary64]
  nth_rewrite 1 [hm]
  rw [mul_div_cancel_right₀ _ hulp, roundHalfEven_intCast, ← hm]

lemma toBinary64_of_le {k e : ℤ} (hk : |k| ≤ 2 ^ 53) (he : -1074 ≤ e) :
    toBinary64 (k * 2 ^ e) = k * 2 ^ e := by
  rcases hk.lt_or_eq with hlt | heq
  · exact toBinary64_of_lt hlt he
  · have hhalf : ∃ j : ℤ, k = j * 2 ∧ |j| < 2 ^ 53 := by
      rcases abs_eq (by norm_num) |>.mp heq with rfl | rfl
      · exact ⟨2 ^ 52, by norm_num, by norm_num⟩
      · exact ⟨-2 ^ 52, by norm_num, by norm_num⟩
    obtain ⟨j, rfl, hj⟩ := hhalf
    have hshift : ((j * 2 : ℤ) : ℚ) * 2 ^ e = j * 2 ^ (e + 1) := by
      rw [zpow_add₀ two_ne_zero]
      push_cast
      ring
    rw [hshift, toBinary64_of_lt hj (by omega)]

/-- Rounding leaves at most 53 binary digits, or a power of two. -/
lemma exists_toBinary64 (x : ℚ) :
    ∃ k e : ℤ, toBinary64 x = k * 2 ^ e ∧ |k| ≤ 2 ^ 53 ∧ -1074 ≤ e := by
  refine ⟨roundHalfEven (x / ulp x), _, rfl, ?_, le_max_right _ _⟩
  have hulp := ulp_pos x
  have hbound : |x| ≤ 2 ^ 53 * ulp x := by
    rcases eq_or_ne x 0 with rfl | hne
    · rw [abs_zero]
      exact (mul_pos (by norm_num) hulp).le
    · have hlt : |x| < 2 ^ (Int.log 2 |x| + 1) := Int.lt_zpow_succ_log_self (by norm_num) _
      have hle : (2 : ℚ) ^ (Int.log 2 |x| + 1) ≤ 2 ^ (53 + max (Int.log 2 |x| - 52) (-1074)) :=
        zpow_le_zpow_right₀ (by norm_num) (by omega)
      calc |x| ≤ 2 ^ (Int.log 2 |x| + 1) := by exact_mod_cast hlt.le
        _ ≤ 2 ^ ((53 : ℕ) + max (Int.log 2 |x| - 52) (-1074)) := hle
        _ = 2 ^ 53 * ulp x := by rw [zpow_add₀ two_ne_zero, zpow_natCast, ulp]
  have habs : |x / ulp x| ≤ 2 ^ 53 := by
    rw [abs_div, abs_of_pos hulp, div_le_iff₀ hulp]
    exact hbound
  obtain ⟨hlo, hhi⟩ := abs_le.mp habs
  exact abs_le.mpr ⟨le_roundHalfEven (by exact_mod_cast hlo), roundHalfEven_le (by exact_mod_cast hhi)⟩

lemma toBinary64_idem (x : ℚ) : toBinary64 (toBinary64 x) = toBinary64 x := by
  obtain ⟨k, e, h, hk, he⟩ := exists_toBinary64 x
  rw [h, toBinary64_of_le hk he]

/-- The whole part of a double precision number is one. -/
lemma toBinary64_floor (x : ℚ) : toBinary64 (⌊toBinary64 x⌋ : ℚ) = ⌊toBinary64 x⌋ := by
  obtain ⟨k, e, h, hk, he⟩ := exists_toBinary64 x
  rw [h]
  rcases le_or_gt 0 e with hpos | hneg
  · obtain ⟨n, rfl⟩ := Int.eq_ofNat_of_zero_le hpos
    have hwhole : (k : ℚ) * 2 ^ (n : ℤ) = ((k * 2 ^ n : ℤ) : ℚ) := by
      push_cast
      rw [zpow_natCast]
    rw [hwhole, Int.floor_intCast, ← hwhole, toBinary64_of_le hk he]
  · have hsmall : |⌊(k : ℚ) * 2 ^ e⌋| ≤ 2 ^ 53 := by
      have hle : |(k : ℚ) * 2 ^ e| ≤ 2 ^ 53 := by
        rw [abs_mul, abs_of_pos (zpow_pos two_pos e : (0 : ℚ) < 2 ^ e)]
        calc |(k : ℚ)| * 2 ^ e ≤ |(k : ℚ)| * 1 :=
              mul_le_mul_of_nonneg_left (zpow_le_one_of_nonpos₀ one_le_two hneg.le) (abs_nonneg _)
          _ ≤ 2 ^ 53 := by
              rw [mul_one]
              exact_mod_cast hk
      obtain ⟨hlo, hhi⟩ := abs_le.mp hle
      refine abs_le.mpr ⟨Int.le_floor.mpr (by exact_mod_cast hlo), ?_⟩
      exact_mod_cast (Int.floor_le _).trans hhi
    have := toBinary64_of_le hsmall (by norm_num : (-1074 : ℤ) ≤ 0)
    simpa using this

/-- `round(x, digits)`. -/
def roundDigits (digits : ℕ) (x : ℚ) : ℚ :=
  toBinary64 (roundHalfEven (x * 10 ^ digits) / 10 ^ digits)

lemma roundDigits_nonneg {digits : ℕ} {x : ℚ} (hx : 0 ≤ x) : 0 ≤ roundDigits digits x :=
  toBinary64_nonneg (div_nonneg (Int.cast_nonneg (roundHalfEven_nonneg (by positivity)))
    (by positivity))

lemma roundDigits_le {digits : ℕ} {x : ℚ} {n : ℕ} (hx : 0 ≤ x) (hle : x ≤ n) (hn : n < 2 ^ 53) :
    roundDigits digits x ≤ n := by
  have hround : roundHalfEven (x * 10 ^ digits) ≤ ((n * 10 ^ digits : ℕ) : ℤ) := by
    refine roundHalfEven_le ?_
    push_cast
    exact mul_le_mul_of_nonneg_right hle (by positivity)
  refine toBinary64_le (div_nonneg (Int.cast_nonneg (roundHalfEven_nonneg (by positivity)))
    (by positivity)) ?_ hn
  rw [div_le_iff₀ (by positivity)]
  exact_mod_cast hround

/-- `round(float(x), 1)`. -/
def roundOneDecimal (x : ℚ) : ℚ := roundHalfEven (toBinary64 x * 10) / 10

/-- A fraction of tenths is rounded to a nearest tenth as long as its denominator is small against
    the precision: the fraction is then farther from a tie that it is not, than the conversion to
    double precision can move it. -/
theorem abs_roundOneDecimal_sub_le {x : ℚ} {tenths : ℤ} {n : ℕ} (hn : 0 < n)
    (hx : x = tenths / (10 * n)) (hulp : 10 * n * ulp x < 1) :
    |roundOneDecimal x - x| ≤ 1 / 20 := by
  set r := roundHalfEven (toBinary64 x * 10) with hr
  have hn' : (0 : ℚ) < n := Nat.cast_pos.mpr hn
  have hround := abs_le.mp (abs_roundHalfEven_sub_le (toBinary64 x * 10))
  have hfloat := abs_le.mp (abs_toBinary64_sub_le x)
  rw [← hr] at hround
  have hscaled : x * 10 * n = tenths := by
    rw [hx]
    field_simp
  -- the distance from `r` is at most a half, because both are multiples of `1 / (2 * n)`
  have hupper : (r : ℚ) * n - tenths < n / 2 + 1 / 2 := by
    nlinarith
  have hlower : (tenths : ℚ) - r * n < n / 2 + 1 / 2 := by
    nlinarith
  have hupper' : 2 * (r * n - tenths) ≤ (n : ℤ) := by
    have hcast : ((2 * (r * n - tenths) : ℤ) : ℚ) < ((n + 1 : ℤ) : ℚ) := by
      push_cast
      linarith
    have := Int.cast_lt.mp hcast
    omega
  have hlower' : 2 * (tenths - r * n) ≤ (n : ℤ) := by
    have hcast : ((2 * (tenths - r * n) : ℤ) : ℚ) < ((n + 1 : ℤ) : ℚ) := by
      push_cast
      linarith
    have := Int.cast_lt.mp hcast
    omega
  have hdistance : |((r : ℚ) / 10 - x) * (20 * n)| ≤ n := by
    have hmul : ((r : ℚ) / 10 - x) * (20 * n) = 2 * (r * n - tenths) := by
      rw [← hscaled]
      ring
    rw [hmul, abs_le]
    have h1 : (2 * (r * n - tenths) : ℚ) ≤ n := by exact_mod_cast hupper'
    have h2 : (2 * (tenths - r * n) : ℚ) ≤ n := by exact_mod_cast hlower'
    constructor <;> linarith
  rw [abs_mul, abs_of_pos (by positivity : (0 : ℚ) < 20 * n)] at hdistance
  rw [roundOneDecimal, ← hr]
  have hfinal : |(r : ℚ) / 10 - x| * 20 * n ≤ 1 * n := by linarith
  have := le_of_mul_le_mul_right hfinal hn'
  linarith

end Denn.Core
