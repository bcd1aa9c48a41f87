import Mathlib.Data.Int.Log
import Mathlib.Order.Monotone.Odd
import Mathlib.Algebra.Order.Floor.Ring
import Mathlib.Data.Rat.Floor

namespace Numeric

/-!
# Rounded arithmetic

A float is the rational number it stands for, and an operation on floats is the exact operation
followed by `round`.  A `Rounding` is what a format has to do with its results: it keeps their
order, and it keeps zero and one.  Infinities and NaN are no values here.

* `Rounding.exact` — rational arithmetic.
* `Rounding.nearest p` — `p` bits of precision, round to nearest, ties to even, no bound on the
  exponent; `Rounding.binary64` has 53 bits.
* `truncate` — conversion to an integer towards zero.
-/

/-- What is used of the rounding after a float operation: it keeps the order, and it keeps zero and
    one.  Overflow and NaN are outside of it. -/
structure Rounding where
  round : ℚ → ℚ
  mono : Monotone round
  zero : round 0 = 0
  one : round 1 = 1

/-- A rounding is applied like a function. -/
instance : CoeFun Rounding fun _ => ℚ → ℚ := ⟨Rounding.round⟩

namespace Rounding

/-- No rounding at all. -/
def exact : Rounding := ⟨id, monotone_id, rfl, rfl⟩

variable (fl : Rounding)

/-- Nothing that is not negative is rounded below zero. -/
theorem nonneg {q : ℚ} (h : 0 ≤ q) : 0 ≤ fl q := fl.zero ▸ fl.mono h

/-- Nothing up to one is rounded above it, so a share stays a share. -/
theorem le_one {q : ℚ} (h : q ≤ 1) : fl q ≤ 1 := by
  have hle := fl.mono h
  rwa [fl.one] at hle

/-- An integer times a float: the integer is converted first. -/
def mulInt (n : ℤ) (q : ℚ) : ℚ := fl (fl n * q)

/-- A quotient of two integers. -/
def divNat (m n : ℕ) : ℚ := fl (m / n)

/-- A larger float gives no smaller product with the same number of things. -/
theorem mulInt_mono {n : ℤ} (hn : 0 ≤ n) : Monotone (fl.mulInt n) := by
  intro q r h
  apply fl.mono
  exact mul_le_mul_of_nonneg_left h (fl.nonneg (by exact_mod_cast hn))

end Rounding

/-! ### Conversion to an integer -/

/-- `int(q)`: the digits after the point are cut off. -/
def truncate (q : ℚ) : ℤ := if 0 ≤ q then ⌊q⌋ else ⌈q⌉

/-- Above zero `int` rounds down. -/
theorem truncate_of_nonneg {q : ℚ} (h : 0 ≤ q) : truncate q = ⌊q⌋ := if_pos h

/-- Below zero `int` rounds up, but not past zero. -/
theorem truncate_nonpos {q : ℚ} (h : q ≤ 0) : truncate q ≤ 0 := by
  unfold truncate
  split
  · rename_i h0
    rw [le_antisymm h h0, Int.floor_zero]
  · exact Int.ceil_le.mpr (by exact_mod_cast h)

/-- A bound that is an integer survives the cut. -/
theorem truncate_le {q : ℚ} {n : ℤ} (h : q ≤ n) (hn : 0 ≤ n) : truncate q ≤ n := by
  rcases le_total 0 q with h0 | h0
  · rw [truncate_of_nonneg h0]
    exact (Int.floor_mono h).trans (Int.floor_intCast n).le
  · exact (truncate_nonpos h0).trans hn

/-- The cut leaves a positive integer exactly when there is a whole one. -/
theorem one_le_truncate {q : ℚ} : 1 ≤ truncate q ↔ 1 ≤ q := by
  rcases le_total 0 q with h | h
  · rw [truncate_of_nonneg h, Int.le_floor, Int.cast_one]
  · constructor
    · intro h1
      have := truncate_nonpos h
      omega
    · intro h1
      exact absurd (h1.trans h) (by norm_num)

/-- How many portions of size `p` still fit into `a` next to `r` of them. -/
theorem le_floor_div_iff {p : ℚ} (hp : 0 < p) (a r : ℚ) (m : ℤ) :
    m ≤ ⌊(a - r * p) / p⌋ ↔ (m + r) * p ≤ a := by
  rw [Int.le_floor, le_div_iff₀ hp, le_sub_iff_add_le, add_mul]

/-! ### Round to nearest, ties to even -/

/-- The nearest integer; of two the even one. -/
def roundEven (t : ℚ) : ℤ :=
  if 1 < 2 * Int.fract t ∨ (2 * Int.fract t = 1 ∧ ⌊t⌋ % 2 = 1) then ⌊t⌋ + 1 else ⌊t⌋

/-- The nearest integer is not below the one before the number. -/
theorem floor_le_roundEven (t : ℚ) : ⌊t⌋ ≤ roundEven t := by
  unfold roundEven
  split <;> omega

/-- The nearest integer is not above the one after the number. -/
theorem roundEven_le_floor_add_one (t : ℚ) : roundEven t ≤ ⌊t⌋ + 1 := by
  unfold roundEven
  split <;> omega

/-- The nearest integer is no further than a half away. -/
theorem abs_roundEven_sub_le (t : ℚ) : |(roundEven t : ℚ) - t| ≤ 1 / 2 := by
  have hfract : t - ⌊t⌋ = Int.fract t := rfl
  have hlt := Int.fract_lt_one t
  have hnonneg := Int.fract_nonneg t
  rw [abs_le]
  unfold roundEven
  split
  · rename_i hup
    push_cast
    rcases hup with hup | ⟨hup, _⟩ <;> constructor <;> linarith
  · rename_i hdown
    have hle : 2 * Int.fract t ≤ 1 := not_lt.mp fun h => hdown (Or.inl h)
    constructor <;> linarith

/-- An integer is nearest to itself. -/
@[simp] theorem roundEven_intCast (n : ℤ) : roundEven n = n := by
  unfold roundEven
  rw [Int.fract_intCast, Int.floor_intCast, if_neg (by norm_num)]

/-- Rounding to the nearest integer keeps the order.  The ties are where it could fail, and there
    both numbers are between the same two integers. -/
theorem roundEven_mono {t u : ℚ} (h : t ≤ u) : roundEven t ≤ roundEven u := by
  rcases (Int.floor_mono h).lt_or_eq with hlt | heq
  · calc roundEven t ≤ ⌊t⌋ + 1 := roundEven_le_floor_add_one t
      _ ≤ ⌊u⌋ := hlt
      _ ≤ roundEven u := floor_le_roundEven u
  · -- between the same two integers the fractional parts decide
    have hfract : Int.fract t ≤ Int.fract u := by
      unfold Int.fract
      rw [heq]
      exact sub_le_sub_right h _
    unfold roundEven
    rw [heq]
    split
    · rename_i ht
      rw [if_pos]
      rcases ht with ht | ⟨ht, hodd⟩
      · exact Or.inl (ht.trans_le (mul_le_mul_of_nonneg_left hfract zero_le_two))
      · rcases hfract.lt_or_eq with hlt | heq'
        · exact Or.inl (ht ▸ mul_lt_mul_of_pos_left hlt two_pos)
        · exact Or.inr ⟨heq' ▸ ht, hodd⟩
    · split <;> omega

/-- The unit in the last place of `p` bits. -/
def ulp (p : ℕ) (q : ℚ) : ℚ := 2 ^ (Int.log 2 q - (p - 1 : ℤ))

/-- The last place has some weight at every size. -/
theorem ulp_pos (p : ℕ) (q : ℚ) : 0 < ulp p q := by
  unfold ulp
  exact zpow_pos (by norm_num) _

/-- A positive number rounded to `p` bits. -/
def roundTo (p : ℕ) (q : ℚ) : ℚ := roundEven (q / ulp p q) * ulp p q

/-- A power of two that is a multiple of the unit is a bound that rounding keeps. -/
private theorem zpow_eq_mul_ulp {p : ℕ} {q : ℚ} {e : ℤ} (h : Int.log 2 q ≤ e) (hp : 1 ≤ p) :
    ∃ n : ℤ, (2 : ℚ) ^ e = n * ulp p q := by
  refine ⟨2 ^ (e - Int.log 2 q + (p - 1 : ℤ)).toNat, ?_⟩
  have hnn : 0 ≤ e - Int.log 2 q + (p - 1 : ℤ) := by omega
  unfold ulp
  rw [Int.cast_pow, Int.cast_ofNat, ← zpow_natCast, Int.toNat_of_nonneg hnn,
    ← zpow_add₀ (by norm_num)]
  congr 1
  ring

/-- No number is rounded beyond the next power of two. -/
private theorem roundTo_le_zpow {p : ℕ} (hp : 1 ≤ p) {q : ℚ} :
    roundTo p q ≤ 2 ^ (Int.log 2 q + 1) := by
  obtain ⟨n, hn⟩ := zpow_eq_mul_ulp (p := p) (q := q) (e := Int.log 2 q + 1) (by omega) hp
  have hq : q / ulp p q ≤ n := by
    rw [div_le_iff₀ (ulp_pos p q), ← hn]
    exact (Int.lt_zpow_succ_log_self (b := 2) (by norm_num) q).le
  have hr := roundEven_mono hq
  rw [roundEven_intCast] at hr
  unfold roundTo
  rw [hn]
  exact mul_le_mul_of_nonneg_right (by exact_mod_cast hr) (ulp_pos p q).le

/-- No number is rounded below the last power of two. -/
private theorem zpow_le_roundTo {p : ℕ} (hp : 1 ≤ p) {q : ℚ} (h : 0 < q) :
    (2 : ℚ) ^ Int.log 2 q ≤ roundTo p q := by
  obtain ⟨n, hn⟩ := zpow_eq_mul_ulp (p := p) (q := q) (e := Int.log 2 q) le_rfl hp
  have hq : (n : ℚ) ≤ q / ulp p q := by
    rw [le_div_iff₀ (ulp_pos p q), ← hn]
    exact Int.zpow_log_le_self (by norm_num) h
  have hr := roundEven_mono hq
  rw [roundEven_intCast] at hr
  unfold roundTo
  rw [hn]
  exact mul_le_mul_of_nonneg_right (by exact_mod_cast hr) (ulp_pos p q).le

/-- The sign of a magnitude survives. -/
theorem roundTo_nonneg (p : ℕ) {q : ℚ} (h : 0 ≤ q) : 0 ≤ roundTo p q := by
  have hr := roundEven_mono (show ((0 : ℤ) : ℚ) ≤ q / ulp p q by
    rw [Int.cast_zero]
    exact div_nonneg h (ulp_pos p q).le)
  rw [roundEven_intCast] at hr
  exact mul_nonneg (by exact_mod_cast hr) (ulp_pos p q).le

/-- Zero is a float. -/
@[simp] theorem roundTo_zero (p : ℕ) : roundTo p 0 = 0 := by
  have h := roundEven_intCast 0
  rw [Int.cast_zero] at h
  unfold roundTo
  rw [zero_div, h, Int.cast_zero, zero_mul]

/-- One is a float. -/
theorem roundTo_one {p : ℕ} (hp : 1 ≤ p) : roundTo p 1 = 1 := by
  obtain ⟨n, hn⟩ := zpow_eq_mul_ulp (p := p) (q := 1) (e := 0) (by simp) hp
  rw [zpow_zero] at hn
  have hq : 1 / ulp p 1 = n := (div_eq_iff (ulp_pos p 1).ne').mpr hn
  unfold roundTo
  rw [hq, roundEven_intCast]
  exact hn.symm

/-- Rounding keeps the order: within a binade by the integers, across binades by the power of two
    between them. -/
theorem roundTo_mono {p : ℕ} (hp : 1 ≤ p) {q r : ℚ} (hq : 0 ≤ q) (h : q ≤ r) :
    roundTo p q ≤ roundTo p r := by
  rcases hq.lt_or_eq with hpos | rfl
  swap
  · rw [roundTo_zero]
    exact roundTo_nonneg p h
  rcases (Int.log_mono_right (b := 2) hpos h).lt_or_eq with hlt | heq
  · calc roundTo p q ≤ 2 ^ (Int.log 2 q + 1) := roundTo_le_zpow hp
      _ ≤ 2 ^ Int.log 2 r := zpow_le_zpow_right₀ (by norm_num) hlt
      _ ≤ roundTo p r := zpow_le_roundTo hp (hpos.trans_le h)
  · have hulp : ulp p q = ulp p r := by
      unfold ulp
      rw [heq]
    have hr : roundEven (q / ulp p r) ≤ roundEven (r / ulp p r) :=
      roundEven_mono (div_le_div_of_nonneg_right h (ulp_pos p r).le)
    unfold roundTo
    rw [hulp]
    exact mul_le_mul_of_nonneg_right (by exact_mod_cast hr) (ulp_pos p r).le

/-- Sign and magnitude: a negative number is rounded as its opposite. -/
def roundSigned (p : ℕ) (q : ℚ) : ℚ := if 0 ≤ q then roundTo p q else -roundTo p (-q)

/-- Rounding does not depend on the sign. -/
theorem roundSigned_neg (p : ℕ) (q : ℚ) : roundSigned p (-q) = -roundSigned p q := by
  unfold roundSigned
  rcases lt_trichotomy q 0 with h | rfl | h
  · rw [if_pos (by linarith), if_neg (by linarith), neg_neg]
  · simp
  · rw [if_neg (by linarith), if_pos h.le, neg_neg]

/-- With signs, too, rounding keeps the order: it is an odd function that does so above zero. -/
theorem roundSigned_mono {p : ℕ} (hp : 1 ≤ p) : Monotone (roundSigned p) := by
  apply monotone_of_odd_of_monotoneOn_nonneg (roundSigned_neg p)
  intro q hq r hr h
  unfold roundSigned
  rw [if_pos (Set.mem_Ici.mp hq), if_pos (Set.mem_Ici.mp hr)]
  exact roundTo_mono hp (Set.mem_Ici.mp hq) h

namespace Rounding

/-- `p + 1` bits of precision, round to nearest, ties to even. -/
def nearest (p : ℕ) : Rounding where
  round := roundSigned (p + 1)
  mono := roundSigned_mono (by omega)
  zero := by simp [roundSigned]
  one := by
    unfold roundSigned
    rw [if_pos (by norm_num), roundTo_one (by omega)]

/-- The precision of a double. -/
def binary64 : Rounding := nearest 52

/-- `round(q, n)`: the nearest number with `n` digits after the point, as a float. -/
def digits (fl : Rounding) (n : ℕ) (q : ℚ) : ℚ := fl (roundEven (q * 10 ^ n) / 10 ^ n)

/-- A larger number has no smaller figure written down for it. -/
theorem digits_mono (fl : Rounding) (n : ℕ) : Monotone (fl.digits n) := by
  intro q r h
  have hpos : (0 : ℚ) < 10 ^ n := by positivity
  apply fl.mono
  apply div_le_div_of_nonneg_right _ hpos.le
  exact_mod_cast roundEven_mono (mul_le_mul_of_nonneg_right h hpos.le)

/-- An integer has no digits to lose, and is only converted to a float. -/
theorem digits_intCast (fl : Rounding) (n : ℕ) (m : ℤ) : fl.digits n m = fl m := by
  have hpos : (0 : ℚ) < 10 ^ n := by positivity
  have hcast : (m : ℚ) * 10 ^ n = ((m * 10 ^ n : ℤ) : ℚ) := by push_cast; rfl
  unfold digits
  rw [hcast, roundEven_intCast, ← hcast, mul_div_assoc, div_self hpos.ne', mul_one]

/-- What is not negative is not written down as negative. -/
theorem digits_nonneg (fl : Rounding) (n : ℕ) {q : ℚ} (h : 0 ≤ q) : 0 ≤ fl.digits n q := by
  have hzero := fl.digits_intCast n 0
  rw [Int.cast_zero, fl.zero] at hzero
  exact hzero ▸ fl.digits_mono n h

/-- Apart from the conversion to a float, `n` digits are within half of the last one. -/
theorem exact_digits (n : ℕ) (q : ℚ) : |exact.digits n q - q| ≤ 1 / 2 / 10 ^ n := by
  have hpos : (0 : ℚ) < 10 ^ n := by positivity
  have hround := abs_roundEven_sub_le (q * 10 ^ n)
  have hsub : exact.digits n q - q = (roundEven (q * 10 ^ n) - q * 10 ^ n) / 10 ^ n := by
    show (roundEven (q * 10 ^ n) : ℚ) / 10 ^ n - q = _
    field_simp
  rw [hsub, abs_div, abs_of_pos hpos]
  exact div_le_div_of_nonneg_right hround hpos.le

-- ten times a tenth, the latter as `1.0 - 0.9`, stays below one
example : binary64.mulInt 10 (binary64 (1 - binary64.divNat 9 10)) < 1 := by decide +kernel

end Rounding

end Numeric
