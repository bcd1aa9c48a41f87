import SmartDialer.Lib.ScoreInterval
import Mathlib.Data.Nat.Cast.Order.Field

namespace SmartDialer

open Numeric

/-!
# `pacing/estimators.py`

The Wilson interval of an answer rate, over the reals.  Its two ends are clamped one by one, the
lower one at a hundredth from below and the upper one at one from above.

* `wilsonBounds_eq` — before the clamps the pair are the ends of the score interval.
* `wilsonBounds_upper` — the upper end as a divisor.
* `wilsonBounds_ordered_iff` — when the clamps leave an interval.
-/

/-- `wilson_bounds(phat, n, z)`. -/
noncomputable def wilsonBounds (phat : ℝ) (n : ℕ) (z : ℝ) : ℝ × ℝ :=
  if n = 0 then (5 / 100, 1)
  else
    let denom := 1 + z * z / n
    let centre := phat + z * z / (2 * n)
    let margin := z * √(phat * (1 - phat) / n + z * z / (4 * n * n))
    (max (1 / 100) ((centre - margin) / denom), min 1 ((centre + margin) / denom))

/-- The pair of a campaign without samples. -/
@[simp] theorem wilsonBounds_zero (phat z : ℝ) : wilsonBounds phat 0 z = (5 / 100, 1) := if_pos rfl

/-- The margin is the root of the discriminant. -/
theorem margin_eq {phat z : ℝ} {n : ℕ} (hn : n ≠ 0) (hz : 0 < z) :
    z * √(phat * (1 - phat) / n + z * z / (4 * n * n)) =
      √(phat * (1 - phat) * (z * z / n) + (z * z / n) ^ 2 / 4) := by
  have hn' : (n : ℝ) ≠ 0 := Nat.cast_ne_zero.mpr hn
  rw [show phat * (1 - phat) * (z * z / n) + (z * z / n) ^ 2 / 4 =
    z ^ 2 * (phat * (1 - phat) / n + z * z / (4 * n * n)) by field_simp,
    Real.sqrt_mul (sq_nonneg z), Real.sqrt_sq hz.le]

/-- Written with the weight `z² / n`, the two ends are those of the score interval, cut off at
    `0.01` below and at `1` above. -/
theorem wilsonBounds_eq {phat z : ℝ} {n : ℕ} (hp0 : 0 ≤ phat) (hp1 : phat ≤ 1) (hn : n ≠ 0)
    (hz : 0 < z) : wilsonBounds phat n z =
      (max (1 / 100) (scoreLower phat (z * z / n)), min 1 (scoreUpper phat (z * z / n))) := by
  have hcentre : z * z / (2 * n) = z * z / n / 2 := by rw [div_div, mul_comm (n : ℝ)]
  have hc : 0 ≤ z * z / n := div_nonneg (mul_pos hz hz).le n.cast_nonneg
  unfold wilsonBounds
  rw [scoreLower_eq hp0 hp1 hc, scoreUpper_eq hp0 hp1 hc, if_neg hn, margin_eq hn hz, hcentre]

/-! ### The rate of a sample -/

/-- The rate of `k` answers in `n` calls. -/
theorem rate_nonneg (k n : ℕ) : (0 : ℝ) ≤ k / n := div_nonneg k.cast_nonneg n.cast_nonneg

/-- There are no more answers than samples. -/
theorem rate_le_one {k n : ℕ} (h : k ≤ n) : (k / n : ℝ) ≤ 1 :=
  div_le_one_of_le₀ (Nat.cast_le.mpr h) n.cast_nonneg

/-- The weight of the quantile in a sample. -/
theorem weight_pos {z : ℝ} {n : ℕ} (hz : 0 < z) (hn : n ≠ 0) : 0 < z * z / n :=
  div_pos (mul_pos hz hz) (Nat.cast_pos.mpr (Nat.pos_of_ne_zero hn))

/-- More samples make the weight of the prior smaller. -/
theorem weight_antitone {z : ℝ} {m n : ℕ} (hz : 0 < z) (hm : m ≠ 0) (h : m ≤ n) :
    z * z / n ≤ z * z / m :=
  div_le_div_of_nonneg_left (mul_pos hz hz).le (Nat.cast_pos.mpr (Nat.pos_of_ne_zero hm))
    (Nat.cast_le.mpr h)

/-- The cap at one is never what decides. -/
theorem wilsonBounds_snd {phat z : ℝ} {n : ℕ} (hp0 : 0 ≤ phat) (hp1 : phat ≤ 1) (hn : n ≠ 0)
    (hz : 0 < z) : (wilsonBounds phat n z).2 = scoreUpper phat (z * z / n) := by
  rw [wilsonBounds_eq hp0 hp1 hn hz]
  exact min_eq_right (scoreUpper_le_one hp0 hp1 (weight_pos hz hn).le)

/-- More calls with the same answers lower the upper end. -/
theorem wilsonBounds_snd_lt {z : ℝ} {k n m : ℕ} (hk : k ≤ n) (hnm : n < m) (hz : 0 < z) :
    (wilsonBounds (k / m) m z).2 < (wilsonBounds (k / n) n z).2 := by
  have hm : m ≠ 0 := by omega
  have hm' : (0 : ℝ) < m := Nat.cast_pos.mpr (Nat.pos_of_ne_zero hm)
  have hlt : (k / m : ℝ) < 1 := (div_lt_one hm').mpr (Nat.cast_lt.mpr (by omega))
  rw [wilsonBounds_snd (rate_nonneg k m) hlt.le hm hz]
  rcases Nat.eq_zero_or_pos n with rfl | hn
  · -- without samples the upper end is one
    rw [wilsonBounds_zero]
    exact scoreUpper_lt_one (rate_nonneg k m) hlt (weight_pos hz hm).le
  · have hn' : (0 : ℝ) < n := Nat.cast_pos.mpr hn
    have hw : z * z / m < z * z / n :=
      div_lt_div_of_pos_left (mul_pos hz hz) hn' (Nat.cast_lt.mpr hnm)
    have hrate : (k / m : ℝ) ≤ k / n :=
      div_le_div_of_nonneg_left k.cast_nonneg hn' (Nat.cast_le.mpr hnm.le)
    rw [wilsonBounds_snd (rate_nonneg k n) (rate_le_one hk) hn.ne' hz]
    -- the weight falls strictly, the rate does not rise
    calc scoreUpper (k / m) (z * z / m)
        < scoreUpper (k / m) (z * z / n) :=
          scoreUpper_strictMono_right (rate_nonneg k m) hlt (weight_pos hz hm) hw
      _ ≤ scoreUpper (k / n) (z * z / n) :=
          scoreUpper_mono_left (rate_nonneg k m) hrate (rate_le_one hk) (weight_pos hz hn.ne').le

/-! ### The upper end -/

/-- The upper end is a safe divisor: positive, at most one, at least the rate itself; it does not
    fall with more answers, nor rise with a larger sample of the same rate, and without samples it
    is as large as it can be. -/
theorem wilsonBounds_upper (z : ℝ) (hz : 0 < z) (n : ℕ) (hn : 1 ≤ n) (k : ℕ) (hk : k ≤ n) :
    k / n ≤ (wilsonBounds (k / n) n z).2 ∧ (wilsonBounds (k / n) n z).2 ≤ 1 ∧
      0 < (wilsonBounds (k / n) n z).2 ∧
      (∀ k' : ℕ, k ≤ k' → k' ≤ n →
        (wilsonBounds (k / n) n z).2 ≤ (wilsonBounds (k' / n) n z).2) ∧
      (∀ n', n ≤ n' → (wilsonBounds (k / n) n' z).2 ≤ (wilsonBounds (k / n) n z).2) ∧
      ∀ phat, (wilsonBounds (k / n) n z).2 ≤ (wilsonBounds phat 0 z).2 := by
  have hn0 : n ≠ 0 := Nat.one_le_iff_ne_zero.mp hn
  have hp0 := rate_nonneg k n
  have hp1 := rate_le_one hk
  have hc := weight_pos hz hn0
  have hle := scoreUpper_le_one hp0 hp1 hc.le
  rw [wilsonBounds_snd hp0 hp1 hn0 hz]
  refine ⟨self_le_scoreUpper hp0 hp1 hc.le, hle, scoreUpper_pos hp0 hp1 hc, ?_, ?_, ?_⟩
  · intro k' hkk' hk'
    rw [wilsonBounds_snd (rate_nonneg k' n) (rate_le_one hk') hn0 hz]
    apply scoreUpper_mono_left hp0 _ (rate_le_one hk') hc.le
    exact div_le_div_of_nonneg_right (Nat.cast_le.mpr hkk') n.cast_nonneg
  · intro n' hnn'
    have hn0' : n' ≠ 0 := by omega
    rw [wilsonBounds_snd hp0 hp1 hn0' hz]
    exact scoreUpper_mono_right hp0 hp1 (weight_pos hz hn0').le (weight_antitone hz hn0 hnn')
  · intro phat
    rw [wilsonBounds_zero]
    exact hle

/-- One answer in four calls. -/
theorem wilsonBounds_upper_quarter : (0 : ℝ) < (wilsonBounds ((1 : ℕ) / (4 : ℕ)) 4 2).2 :=
  (wilsonBounds_upper 2 (by norm_num) 4 (by norm_num) 1 (by norm_num)).2.2.1

/-! ### Both ends -/

/-- Only the floor of the lower end can put it above the upper one. -/
theorem wilsonBounds_fst_le_snd {phat z : ℝ} {n : ℕ} (hp0 : 0 ≤ phat) (hp1 : phat ≤ 1)
    (hn : n ≠ 0) (hz : 0 < z) : (wilsonBounds phat n z).1 ≤ (wilsonBounds phat n z).2 ↔
      1 / 100 ≤ phat ∨ (1 / 100 - phat) ^ 2 ≤ z * z / n * (1 / 100) * (1 - 1 / 100) := by
  have hc := (weight_pos hz hn).le
  have hle := (scoreLower_le_self hp0 hp1 hc).trans (self_le_scoreUpper hp0 hp1 hc)
  rw [wilsonBounds_snd hp0 hp1 hn hz, wilsonBounds_eq hp0 hp1 hn hz, max_le_iff, and_iff_left hle,
    le_scoreUpper_iff hp0 hp1 hc, mem_scoreSet]

/-- With no answer in a whole window the upper end falls below the floor of the lower one. -/
theorem wilsonBounds_crossed :
    (wilsonBounds ((0 : ℕ) / (300 : ℕ)) 300 (12816 / 10000)).2 <
      (wilsonBounds ((0 : ℕ) / (300 : ℕ)) 300 (12816 / 10000)).1 := by
  rw [← not_le, wilsonBounds_fst_le_snd (rate_nonneg 0 300) (rate_le_one (by norm_num))
    (by norm_num) (by norm_num)]
  norm_num

/-- The two ends are an interval exactly when a hundredth of the calls were answered, or the sample
    is small enough for its shortfall.  The upper end tends to zero with the sample when nobody
    answers, and the floor under the lower end does not follow it. -/
theorem wilsonBounds_ordered_iff (z : ℝ) (hz : 0 < z) (n k : ℕ) (hk : k ≤ n) :
    (wilsonBounds (k / n) n z).1 ≤ (wilsonBounds (k / n) n z).2 ↔
      n ≤ 100 * k ∨ (n - 100 * k : ℝ) ^ 2 ≤ 99 * z ^ 2 * n := by
  rcases Nat.eq_zero_or_pos n with rfl | hn
  · simp
    norm_num
  have hn' : (0 : ℝ) < n := Nat.cast_pos.mpr hn
  rw [wilsonBounds_fst_le_snd (rate_nonneg k n) (rate_le_one hk) hn.ne' hz]
  apply or_congr
  · rw [le_div_iff₀ hn', ← Nat.cast_le (α := ℝ)]
    push_cast
    constructor <;> intro h <;> linarith
  · -- both sides multiplied by ten thousand times the square of the sample size
    have hl : (1 / 100 - k / n : ℝ) ^ 2 = (n - 100 * k) ^ 2 / (10000 * n ^ 2) := by
      field_simp
      ring
    have hr : z * z / n * (1 / 100) * (1 - 1 / 100) = 99 * z ^ 2 * n / (10000 * n ^ 2) := by
      field_simp
      ring
    rw [hl, hr, div_le_div_iff_of_pos_right (by positivity)]

/-- Half of a hundred calls answered. -/
theorem wilsonBounds_ordered_iff_half :
    (wilsonBounds ((50 : ℕ) / (100 : ℕ)) 100 1).1 ≤ (wilsonBounds ((50 : ℕ) / (100 : ℕ)) 100 1).2 :=
  (wilsonBounds_ordered_iff 1 (by norm_num) 100 50 (by norm_num)).mpr (Or.inl (by norm_num))

end SmartDialer
