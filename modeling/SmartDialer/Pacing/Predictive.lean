import SmartDialer.Domain.Models

namespace SmartDialer

open Numeric

/-!
# `pacing/predictive.py`

The engine asks for as many calls as, together with the ringing ones, are expected to find no more
borrowers than there are agents now and agents about to become free.  The answer rate is assumed
at its upper bound.

* `decide_exact` — without rounding, both divisions succeed and the request is a floor.
* `decide_greatest` — the request is the largest one that fits, and it moves the safe way with
  each of its inputs.
-/

/-- What Python raises for a float divided by zero. -/
inductive ArithmeticError where
  | ZeroDivisionError
  deriving DecidableEq, Repr

/-- `a / b` on floats. -/
def floatDiv (fl : Rounding) (a b : ℚ) : Except ArithmeticError ℚ :=
  if b = 0 then .error .ZeroDivisionError else .ok (fl (a / b))

/-- Dividing by a positive number does not raise. -/
theorem floatDiv_of_pos (fl : Rounding) (a : ℚ) {b : ℚ} (h : 0 < b) :
    floatDiv fl a b = .ok (fl (a / b)) := if_neg h.ne'

namespace PredictivePacing

/-- The answer rate that the engine assumes. -/
def p_hi (fl : Rounding) (s : Snapshot) : ℚ := max (fl (1 / 100)) (min 1 s.stats.answer_rate_ub)

/-- `PredictivePacing.decide`. -/
def decide (fl : Rounding) (s : Snapshot) : Except ArithmeticError PacingRequest := do
  let p_hi := p_hi fl s
  let freeing ←
    if s.stats.avg_talk_s > 0 then do
      let ratio ← floatDiv fl s.stats.avg_setup_s s.stats.avg_talk_s
      pure (fl.mulInt s.calls_connected ratio)
    else pure 0
  let expected_answers := fl.mulInt s.calls_ringing p_hi
  let capacity := fl (fl (fl s.agents_available + freeing) - expected_answers)
  let n := max 0 ⌊← floatDiv fl capacity p_hi⌋
  return ⟨s.campaign_id, n⟩

/-- The agents expected to become free while a new call is set up. -/
def freeing (s : Snapshot) : ℚ :=
  if s.stats.avg_talk_s > 0 then s.calls_connected * (s.stats.avg_setup_s / s.stats.avg_talk_s)
  else 0

/-- The counts and averages are no negative numbers. -/
structure NonNegative (s : Snapshot) : Prop extends s.Counted where
  calls_connected : 0 ≤ s.calls_connected
  avg_setup : 0 ≤ s.stats.avg_setup_s
  avg_talk : 0 ≤ s.stats.avg_talk_s

/-- Would `m` new calls fit? -/
def Fits (s : Snapshot) (m : ℕ) : Prop :=
  (m + s.calls_ringing) * p_hi .exact s ≤ s.agents_available + freeing s

/-- The pessimistic answer rate is clamped away from zero, so the engine may divide by it. -/
theorem p_hi_pos (s : Snapshot) : 0 < p_hi .exact s :=
  (show (0 : ℚ) < 1 / 100 by norm_num).trans_le (le_max_left _ _)

/-- A higher estimate of the answer rate gives a higher clamped rate. -/
theorem p_hi_mono {s t : Snapshot} (h : s.stats.answer_rate_ub ≤ t.stats.answer_rate_ub) :
    p_hi .exact s ≤ p_hi .exact t :=
  max_le_max_left _ (min_le_min_left _ h)

/-- The request without rounding. -/
def request (s : Snapshot) : ℤ :=
  max 0 ⌊(s.agents_available + freeing s - s.calls_ringing * p_hi .exact s) / p_hi .exact s⌋

/-- In exact arithmetic nothing raises, and the engine asks for `request`. -/
theorem decide_exact (s : Snapshot) : decide .exact s = .ok ⟨s.campaign_id, request s⟩ := by
  unfold decide request freeing
  -- neither division can raise: the one is guarded, and the other divides by at least `1 / 100`
  by_cases h : s.stats.avg_talk_s > 0
  · rw [if_pos h, if_pos h, floatDiv_of_pos _ _ h]
    show (floatDiv .exact _ _ >>= _) = _
    rw [floatDiv_of_pos _ _ (p_hi_pos s)]
    rfl
  · rw [if_neg h, if_neg h]
    show (floatDiv .exact _ _ >>= _) = _
    rw [floatDiv_of_pos _ _ (p_hi_pos s)]
    rfl

/-- A number of new calls fits exactly when it is at most the floor that the engine computes. -/
theorem fits_iff {s : Snapshot} {m : ℕ} :
    Fits s m ↔ (m : ℤ) ≤ ⌊(s.agents_available + freeing s - s.calls_ringing * p_hi .exact s) /
      p_hi .exact s⌋ := by
  rw [le_floor_div_iff (p_hi_pos s), Int.cast_natCast]
  rfl

/-- What fits for more calls fits for fewer. -/
theorem Fits.antitone {s : Snapshot} {m m' : ℕ} (h : Fits s m) (hle : m' ≤ m) : Fits s m' := by
  rw [fits_iff] at h ⊢
  exact (by exact_mod_cast hle : (m' : ℤ) ≤ m).trans h

/-- More connected calls free no fewer agents, where the timings stay the same. -/
theorem freeing_mono {s t : Snapshot} (ht : NonNegative t)
    (hconn : s.calls_connected ≤ t.calls_connected)
    (hsetup : s.stats.avg_setup_s = t.stats.avg_setup_s)
    (htalk : s.stats.avg_talk_s = t.stats.avg_talk_s) : freeing s ≤ freeing t := by
  unfold freeing
  rw [hsetup, htalk]
  split
  · apply mul_le_mul_of_nonneg_right (by exact_mod_cast hconn)
    exact div_nonneg ht.avg_setup ht.avg_talk
  · exact le_rfl

/-- What fits stays fitting when the rate or the ringing calls go down, or the capacity up. -/
theorem Fits.mono {s t : Snapshot} {m : ℕ} (h : Fits s m) (ht : NonNegative t)
    (hub : t.stats.answer_rate_ub ≤ s.stats.answer_rate_ub)
    (hringing : t.calls_ringing ≤ s.calls_ringing)
    (havail : s.agents_available ≤ t.agents_available)
    (hfree : freeing s ≤ freeing t) : Fits t m := by
  have hring : (m + t.calls_ringing : ℚ) ≤ m + s.calls_ringing := by
    have : (t.calls_ringing : ℚ) ≤ s.calls_ringing := by exact_mod_cast hringing
    linarith
  have hnonneg : (0 : ℚ) ≤ m + s.calls_ringing := by
    have : (0 : ℚ) ≤ s.calls_ringing := by exact_mod_cast ht.ringing.trans hringing
    positivity
  have havail' : (s.agents_available : ℚ) ≤ t.agents_available := by exact_mod_cast havail
  calc (m + t.calls_ringing) * p_hi .exact t
      ≤ (m + s.calls_ringing) * p_hi .exact s :=
        mul_le_mul hring (p_hi_mono hub) (p_hi_pos t).le hnonneg
    _ ≤ s.agents_available + freeing s := h
    _ ≤ t.agents_available + freeing t := add_le_add havail' hfree

/-- A positive request fits, and no larger one does. -/
theorem le_request_iff {s : Snapshot} {m : ℕ} (hm : 0 < m) : (m : ℤ) ≤ request s ↔ Fits s m := by
  rw [fits_iff]
  unfold request
  omega

/-- The request is the largest number of calls that fits, zero if none does.  It does not grow with
    the answer rate or the ringing calls, nor shrink with the free agents or the connected calls. -/
theorem decide_greatest (s : Snapshot) :
    ∃ n : ℕ, decide .exact s = .ok ⟨s.campaign_id, n⟩ ∧
      (IsGreatest {m : ℕ | Fits s m} n ∨ (∀ m, ¬ Fits s m) ∧ n = 0) ∧
      ∀ t, NonNegative t → t.stats.answer_rate_ub ≤ s.stats.answer_rate_ub →
        t.calls_ringing ≤ s.calls_ringing → s.agents_available ≤ t.agents_available →
        s.calls_connected ≤ t.calls_connected →
        s.stats.avg_setup_s = t.stats.avg_setup_s → s.stats.avg_talk_s = t.stats.avg_talk_s →
        ∃ n' : ℕ, decide .exact t = .ok ⟨t.campaign_id, n'⟩ ∧ n ≤ n' := by
  have hnat (t : Snapshot) : ((request t).toNat : ℤ) = request t :=
    Int.toNat_of_nonneg (le_max_left _ _)
  refine ⟨(request s).toNat, ?_, ?_, ?_⟩
  · rw [hnat]
    exact decide_exact s
  · by_cases hfit : Fits s 0
    · left
      constructor
      · rcases Nat.eq_zero_or_pos (request s).toNat with h0 | hpos
        · rwa [h0]
        · exact (le_request_iff hpos).mp (hnat s).le
      · intro m hm
        rcases Nat.eq_zero_or_pos m with rfl | hpos
        · exact Nat.zero_le _
        · have := (le_request_iff hpos).mpr hm
          omega
    · -- the calls that ring are too many as it is
      right
      have hnone (m : ℕ) : ¬ Fits s m := fun h => hfit (h.antitone (Nat.zero_le m))
      refine ⟨hnone, ?_⟩
      by_contra h0
      exact hnone _ ((le_request_iff (Nat.pos_of_ne_zero h0)).mp (hnat s).le)
  · intro t ht hub hringing havail hconn hsetup htalk
    refine ⟨(request t).toNat, ?_, ?_⟩
    · rw [hnat]
      exact decide_exact t
    · rcases Nat.eq_zero_or_pos (request s).toNat with h0 | hpos
      · omega
      · -- what fits the one snapshot fits the other, so its maximum is no smaller
        have hfit := (le_request_iff hpos).mp (hnat s).le
        have hle := (le_request_iff hpos).mpr
          (hfit.mono ht hub hringing havail (freeing_mono ht hconn hsetup htalk))
        omega

/-- Ten agents free, forty talking for two minutes, six calls ringing, three seconds to set up. -/
def workedSnapshot (answer_rate_ub : ℚ) : Snapshot where
  campaign_id := 1
  ts := 0
  agents_available := 10
  agents_reserved := 0
  agents_dialing := 0
  agents_connected := 0
  agents_wrapup := 0
  calls_ringing := 6
  calls_connected := 40
  campaign_active := true
  stats := ⟨3 / 20, answer_rate_ub, 1 / 5, 200, 3, 120, 0⟩
  provider_health := []

example : decide .exact (workedSnapshot (1 / 4)) = .ok ⟨1, 38⟩ := by decide +kernel

/-- The snapshot of the worked example is one that the database can produce. -/
theorem workedSnapshot_nonNegative (ub : ℚ) : NonNegative (workedSnapshot ub) := by
  constructor
  · constructor <;> norm_num [workedSnapshot]
  · norm_num [workedSnapshot]
  · norm_num [workedSnapshot]
  · norm_num [workedSnapshot]

/-- A rate of three fifths instead of a fifth asks for no more. -/
theorem decide_greatest_worked : ∃ n n' : ℕ,
    decide .exact (workedSnapshot (3 / 5)) = .ok ⟨1, n⟩ ∧
    decide .exact (workedSnapshot (1 / 5)) = .ok ⟨1, n'⟩ ∧ n ≤ n' := by
  obtain ⟨n, hn, -, hmono⟩ := decide_greatest (workedSnapshot (3 / 5))
  obtain ⟨n', hn', hle⟩ := hmono (workedSnapshot (1 / 5)) (workedSnapshot_nonNegative _)
    (by norm_num [workedSnapshot]) le_rfl le_rfl le_rfl rfl rfl
  exact ⟨n, n', hn, hn', hle⟩

end PredictivePacing

end SmartDialer
