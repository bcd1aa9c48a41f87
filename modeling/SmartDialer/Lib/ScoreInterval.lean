import Mathlib.Analysis.Real.Sqrt
import Mathlib.Tactic.Linarith

namespace Numeric

/-!
# Score intervals

A sample with success rate `p` does not exclude the rate `u` when `(u - p)² ≤ c · u · (1 - u)`;
`c` is the square of the quantile over the size of the sample.  The rates that are not excluded
form an interval, and its ends are the roots of the quadratic (`scoreLower_eq`, `scoreUpper_eq`).
Everything else about the ends is read off the set: it contains `p`, it grows with `c`, and what it
contains above a larger `q` is not excluded by `q` either.
-/

/-- The rates that a sample does not exclude. -/
def scoreSet (p c : ℝ) : Set ℝ := fun u => (u - p) ^ 2 ≤ c * u * (1 - u)

/-- The least of them. -/
noncomputable def scoreLower (p c : ℝ) : ℝ := sInf (scoreSet p c)

/-- The greatest of them. -/
noncomputable def scoreUpper (p c : ℝ) : ℝ := sSup (scoreSet p c)

/-- The defining inequality, from which every bound below is read off. -/
theorem mem_scoreSet {p c u : ℝ} : u ∈ scoreSet p c ↔ (u - p) ^ 2 ≤ c * u * (1 - u) := Iff.rfl

/-- Completing the square. -/
theorem mem_scoreSet_iff_sq {p c u : ℝ} (hc : 0 ≤ c) :
    u ∈ scoreSet p c ↔ ((1 + c) * u - (p + c / 2)) ^ 2 ≤ p * (1 - p) * c + c ^ 2 / 4 := by
  have hpos : 0 < 1 + c := by linarith
  have hident : ((1 + c) * u - (p + c / 2)) ^ 2 - (p * (1 - p) * c + c ^ 2 / 4) =
      (1 + c) * ((u - p) ^ 2 - c * u * (1 - u)) := by ring
  rw [mem_scoreSet, ← sub_nonpos, ← sub_nonpos (b := p * (1 - p) * c + c ^ 2 / 4), hident]
  constructor
  · exact mul_nonpos_of_nonneg_of_nonpos hpos.le
  · intro h
    exact nonpos_of_mul_nonpos_right h hpos

section

variable {p c u : ℝ} (hp0 : 0 ≤ p) (hp1 : p ≤ 1) (hc : 0 ≤ c)
include hp0 hp1 hc

/-- The discriminant of the quadratic. -/
theorem scoreDisc_nonneg : 0 ≤ p * (1 - p) * c + c ^ 2 / 4 := by
  have := mul_nonneg (mul_nonneg hp0 (sub_nonneg.mpr hp1)) hc
  positivity

/-- The rates that are not excluded lie between the two roots. -/
theorem scoreSet_eq_Icc : scoreSet p c =
    Set.Icc ((p + c / 2 - √(p * (1 - p) * c + c ^ 2 / 4)) / (1 + c))
      ((p + c / 2 + √(p * (1 - p) * c + c ^ 2 / 4)) / (1 + c)) := by
  have hpos : 0 < 1 + c := by linarith
  have hsq := Real.sq_sqrt (scoreDisc_nonneg hp0 hp1 hc)
  ext u
  -- the completed square is at most the square of the root
  rw [Set.mem_Icc, mem_scoreSet_iff_sq hc, div_le_iff₀ hpos, le_div_iff₀ hpos, ← hsq, sq_le_sq,
    abs_of_nonneg (Real.sqrt_nonneg _), abs_le, hsq]
  constructor
  · rintro ⟨h1, h2⟩
    constructor <;> linarith
  · rintro ⟨h1, h2⟩
    constructor <;> linarith

/-- The observed rate is always in the set, so the set has bounds on both sides of it. -/
theorem self_mem_scoreSet : p ∈ scoreSet p c := by
  rw [mem_scoreSet, sub_self, zero_pow two_ne_zero]
  exact mul_nonneg (mul_nonneg hc hp0) (sub_nonneg.mpr hp1)

/-- The two roots of the quadratic come in this order, since the denominator is positive. -/
private theorem roots_le : (p + c / 2 - √(p * (1 - p) * c + c ^ 2 / 4)) / (1 + c) ≤
    (p + c / 2 + √(p * (1 - p) * c + c ^ 2 / 4)) / (1 + c) := by
  apply Set.nonempty_Icc.mp
  rw [← scoreSet_eq_Icc hp0 hp1 hc]
  exact ⟨p, self_mem_scoreSet hp0 hp1 hc⟩

/-- The lower bound is the smaller root, wherever the observed rate lies. -/
theorem scoreLower_eq :
    scoreLower p c = (p + c / 2 - √(p * (1 - p) * c + c ^ 2 / 4)) / (1 + c) := by
  unfold scoreLower
  rw [scoreSet_eq_Icc hp0 hp1 hc]
  exact csInf_Icc (roots_le hp0 hp1 hc)

/-- The upper bound is the larger root, wherever the observed rate lies. -/
theorem scoreUpper_eq :
    scoreUpper p c = (p + c / 2 + √(p * (1 - p) * c + c ^ 2 / 4)) / (1 + c) := by
  unfold scoreUpper
  rw [scoreSet_eq_Icc hp0 hp1 hc]
  exact csSup_Icc (roots_le hp0 hp1 hc)

/-- The set is exactly the interval between the two bounds. -/
theorem mem_scoreSet_iff : u ∈ scoreSet p c ↔ scoreLower p c ≤ u ∧ u ≤ scoreUpper p c := by
  rw [scoreLower_eq hp0 hp1 hc, scoreUpper_eq hp0 hp1 hc, scoreSet_eq_Icc hp0 hp1 hc]
  exact Set.mem_Icc

/-- The lower bound never exceeds the observed rate. -/
theorem scoreLower_le_self : scoreLower p c ≤ p :=
  ((mem_scoreSet_iff hp0 hp1 hc).mp (self_mem_scoreSet hp0 hp1 hc)).1

/-- The upper bound never falls below the observed rate. -/
theorem self_le_scoreUpper : p ≤ scoreUpper p c :=
  ((mem_scoreSet_iff hp0 hp1 hc).mp (self_mem_scoreSet hp0 hp1 hc)).2

/-- The upper bound solves the inequality itself. -/
theorem scoreUpper_mem : scoreUpper p c ∈ scoreSet p c :=
  (mem_scoreSet_iff hp0 hp1 hc).mpr
    ⟨(scoreLower_le_self hp0 hp1 hc).trans (self_le_scoreUpper hp0 hp1 hc), le_rfl⟩

/-- What lies below the upper end lies below `p` or is not excluded. -/
theorem le_scoreUpper_iff : u ≤ scoreUpper p c ↔ u ≤ p ∨ u ∈ scoreSet p c := by
  rw [mem_scoreSet_iff hp0 hp1 hc]
  have hlow := scoreLower_le_self hp0 hp1 hc
  have hup := self_le_scoreUpper hp0 hp1 hc
  constructor
  · intro h
    rcases le_total u p with hu | hu
    · exact Or.inl hu
    · exact Or.inr ⟨hlow.trans hu, h⟩
  · rintro (h | h)
    · exact h.trans hup
    · exact h.2

/-- What lies strictly inside lies strictly below the upper end. -/
theorem lt_scoreUpper (h : (u - p) ^ 2 < c * u * (1 - u)) : u < scoreUpper p c := by
  have hpos : 0 < 1 + c := by linarith
  have hsq : ((1 + c) * u - (p + c / 2)) ^ 2 < p * (1 - p) * c + c ^ 2 / 4 := by
    have hgap := mul_pos hpos (sub_pos.mpr h)
    linarith
  have hroot := Real.lt_sqrt_of_sq_lt hsq
  rw [scoreUpper_eq hp0 hp1 hc, lt_div_iff₀ hpos]
  linarith

end

/-- Even with no success at all the upper bound leaves room for one. -/
theorem scoreUpper_pos {p c : ℝ} (hp0 : 0 ≤ p) (hp1 : p ≤ 1) (hc : 0 < c) :
    0 < scoreUpper p c := by
  have := Real.sqrt_nonneg (p * (1 - p) * c + c ^ 2 / 4)
  rw [scoreUpper_eq hp0 hp1 hc.le]
  positivity

/-- Nothing above one is left open. -/
theorem le_one_of_mem_scoreSet {p c u : ℝ} (hp1 : p ≤ 1) (hc : 0 ≤ c) (h : u ∈ scoreSet p c) :
    u ≤ 1 := by
  by_contra hu
  have hneg : c * u * (1 - u) ≤ 0 :=
    mul_nonpos_of_nonneg_of_nonpos (mul_nonneg hc (by linarith)) (by linarith)
  have hsq : 0 < (u - p) ^ 2 := pow_pos (by linarith) 2
  exact absurd (mem_scoreSet.mp h) (by linarith)

/-- The upper bound is a rate. -/
theorem scoreUpper_le_one {p c : ℝ} (hp0 : 0 ≤ p) (hp1 : p ≤ 1) (hc : 0 ≤ c) :
    scoreUpper p c ≤ 1 :=
  le_one_of_mem_scoreSet hp1 hc (scoreUpper_mem hp0 hp1 hc)

/-- A better sample raises the upper end. -/
theorem scoreUpper_mono_left {p q c : ℝ} (hp0 : 0 ≤ p) (hpq : p ≤ q) (hq1 : q ≤ 1) (hc : 0 ≤ c) :
    scoreUpper p c ≤ scoreUpper q c := by
  have hmem := scoreUpper_mem hp0 (hpq.trans hq1) hc
  rw [le_scoreUpper_iff (hp0.trans hpq) hq1 hc]
  rcases le_total (scoreUpper p c) q with h | h
  · exact Or.inl h
  · -- between `q` and the end the distance only becomes smaller
    right
    apply le_trans _ (mem_scoreSet.mp hmem)
    exact pow_le_pow_left₀ (sub_nonneg.mpr h) (by linarith) 2

/-- A smaller sample raises the upper end. -/
theorem scoreUpper_mono_right {p c d : ℝ} (hp0 : 0 ≤ p) (hp1 : p ≤ 1) (hc : 0 ≤ c) (hcd : c ≤ d) :
    scoreUpper p c ≤ scoreUpper p d := by
  have hd := hc.trans hcd
  have hmem := scoreUpper_mem hp0 hp1 hc
  have hu0 : 0 ≤ scoreUpper p c := hp0.trans (self_le_scoreUpper hp0 hp1 hc)
  have hu1 : 0 ≤ 1 - scoreUpper p c := sub_nonneg.mpr (scoreUpper_le_one hp0 hp1 hc)
  rw [le_scoreUpper_iff hp0 hp1 hd]
  right
  -- the larger weight excludes no more rates
  apply (mem_scoreSet.mp hmem).trans
  exact mul_le_mul_of_nonneg_right (mul_le_mul_of_nonneg_right hcd hu0) hu1

/-- A rate below one keeps the upper end below one. -/
theorem scoreUpper_lt_one {p c : ℝ} (hp0 : 0 ≤ p) (hp1 : p < 1) (hc : 0 ≤ c) :
    scoreUpper p c < 1 := by
  apply lt_of_le_of_ne (scoreUpper_le_one hp0 hp1.le hc)
  intro heq
  have hmem := mem_scoreSet.mp (scoreUpper_mem hp0 hp1.le hc)
  -- at one the right-hand side vanishes
  rw [heq, sub_self, mul_zero] at hmem
  exact absurd hmem (not_le.mpr (pow_pos (sub_pos.mpr hp1) 2))

/-- With a wider margin, that is with fewer samples, the upper bound is strictly higher, unless the
    observed rate is already one. -/
theorem scoreUpper_strictMono_right {p c d : ℝ} (hp0 : 0 ≤ p) (hp1 : p < 1) (hc : 0 < c)
    (hcd : c < d) : scoreUpper p c < scoreUpper p d := by
  apply lt_scoreUpper hp0 hp1.le (hc.trans hcd).le
  apply lt_of_le_of_lt (mem_scoreSet.mp (scoreUpper_mem hp0 hp1.le hc.le))
  have hu1 : 0 < 1 - scoreUpper p c := sub_pos.mpr (scoreUpper_lt_one hp0 hp1 hc.le)
  exact mul_lt_mul_of_pos_right (mul_lt_mul_of_pos_right hcd (scoreUpper_pos hp0 hp1.le hc)) hu1

end Numeric
