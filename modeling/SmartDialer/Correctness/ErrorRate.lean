import SmartDialer.Correctness.Trip
import SmartDialer.Providers.Registry
import Mathlib.Data.List.Induction

namespace SmartDialer

open Numeric Relational

/-!
# What the error rate of a breaker is about

`error_rate` goes over all results that the breaker holds, and it is `record` that drops old ones.
So results outside the window count until the next one comes in, and the ones that a closing
breaker has cleared do not count although they are in the window.

* `held_suffix` — the breaker holds the last results.
* `errorRate_eq_iff` — when that makes no difference at a time, and when at all later times.
* `errorRate_idle` — a provider without new results keeps its error rate, whoever asks.

Arithmetic is exact here, as in the definition of the rate.
-/

namespace CircuitBreaker

/-- All results recorded by the calls, oldest first. -/
def results (calls : List (ℚ × Call)) : List (ℚ × Bool) := calls.flatMap recorded

/-- Recorded in `[t - window_s, t]`. -/
def inWindow (window_s t : ℚ) (e : ℚ × Bool) : Bool := decide (t - window_s ≤ e.1 ∧ e.1 ≤ t)

/-- The failing fraction. -/
def rate (l : List (ℚ × Bool)) : ℚ := fraction (fun e => !e.2) l

/-- The results in the window that a breaker holding `held` does not have. -/
def missed (window_s t : ℚ) (all held : List (ℚ × Bool)) : List (ℚ × Bool) :=
  (all.take (all.length - held.length)).filter (inWindow window_s t)

/-- The results that it has and that are not in the window. -/
def stale (window_s t : ℚ) (held : List (ℚ × Bool)) : List (ℚ × Bool) :=
  held.filter fun e => !inWindow window_s t e

/-- Without rounding, `error_rate` is the failing fraction of what the breaker holds, in the window
    or not. -/
theorem errorRate_eq_rate (b : CircuitBreaker) : b.errorRate .exact = rate b.events := by
  unfold errorRate rate
  split
  · rename_i h
    rw [h, fraction_nil]
  · rfl

/-- The failing fraction is zero exactly when nothing has failed. -/
theorem rate_eq_zero_iff {l : List (ℚ × Bool)} : rate l = 0 ↔ ∀ e ∈ l, e.2 = true := by
  unfold rate
  rw [fraction_eq_zero_iff]
  simp

/-! ### The results that are held -/

/-- A breaker holds the last of its results. -/
theorem held_suffix (b : CircuitBreaker) (hb : b.events = []) (calls : List (ℚ × Call)) :
    (run (call .exact) b calls).events <:+ results calls := by
  induction calls using List.reverseRecOn with
  | nil => rw [run_nil, hb]; exact List.nil_suffix
  | append_singleton calls c ih =>
    obtain ⟨t, kind⟩ := c
    rw [run_concat, results, List.flatMap_append]
    cases kind with
    | allow =>
      show ((run (call .exact) b calls).allow .exact t).2.events <:+ results calls ++ []
      rw [allow_events, List.append_nil]
      exact ih
    | record ok =>
      show ((run (call .exact) b calls).record .exact t ok).events <:+ results calls ++ [(t, ok)]
      rw [record_events]
      split
      · exact List.nil_suffix
      · -- the new result comes behind the old ones, and the front is dropped
        rw [taken_events]
        obtain ⟨front, hfront⟩ := ih
        exact (List.dropWhile_suffix _).trans ⟨front, by rw [← hfront, List.append_assoc]⟩

/-- The times of the results are times of calls, in their order. -/
theorem results_times (calls : List (ℚ × Call)) :
    ((results calls).map Prod.fst).Sublist (calls.map Prod.fst) := by
  induction calls with
  | nil => exact List.Sublist.slnil
  | cons c calls ih =>
    obtain ⟨t, kind⟩ := c
    cases kind with
    | allow => exact ih.cons t
    | record ok => exact ih.cons_cons t

/-- Up to time `t` the results are in order, and none is later. -/
theorem results_sorted {calls : List (ℚ × Call)} {t : ℚ}
    (htimes : (calls.map Prod.fst ++ [t]).Pairwise (· ≤ ·)) :
    ((results calls).Pairwise fun e f => e.1 ≤ f.1) ∧ ∀ e ∈ results calls, e.1 ≤ t := by
  have hsub := (results_times calls).append_right [t]
  obtain ⟨hpair, _, hlast⟩ := List.pairwise_append.mp (htimes.sublist hsub)
  exact ⟨List.pairwise_map.mp hpair, fun e he => hlast e.1 (List.mem_map_of_mem he) t (by simp)⟩

/-! ### The rate at one time -/

section

variable {window_s t : ℚ} {all held : List (ℚ × Bool)}

/-- Old results and cleared ones make no difference just if they fail as often as the rest. -/
theorem rate_held_eq_iff (hsuffix : held <:+ all) (hsorted : all.Pairwise fun e f => e.1 ≤ f.1)
    (hpast : ∀ e ∈ all, e.1 ≤ t) :
    rate held = rate (all.filter (inWindow window_s t)) ↔
      (stale window_s t held ≠ [] →
        rate (stale window_s t held) = rate (held.filter (inWindow window_s t))) ∧
      (missed window_s t all held ≠ [] → rate (missed window_s t all held) = rate held) := by
  obtain ⟨gone, rfl⟩ := hsuffix
  have hmissed : missed window_s t (gone ++ held) held = gone.filter (inWindow window_s t) := by
    simp [missed]
  rw [hmissed, List.filter_append]
  by_cases hgone : gone.filter (inWindow window_s t) = []
  · -- the window is within what is held
    have hparts : rate held = rate (stale window_s t held ++ held.filter (inWindow window_s t)) :=
      fraction_filter (inWindow window_s t)
    rw [hgone, List.nil_append, hparts]
    unfold rate
    rw [fraction_append_eq_right_iff]
    simp
  · -- a result in the window is younger than all that are not held, so these are in it as well
    obtain ⟨e, he⟩ := List.exists_mem_of_ne_nil _ hgone
    obtain ⟨hmem, hin⟩ := List.mem_filter.mp he
    have hall : ∀ f ∈ held, inWindow window_s t f = true := by
      intro f hf
      have hle := (List.pairwise_append.mp hsorted).2.2 e hmem f hf
      simp only [inWindow, decide_eq_true_eq] at hin ⊢
      exact ⟨hin.1.trans hle, hpast f (List.mem_append_right gone hf)⟩
    have hstale : stale window_s t held = [] := by
      rw [stale, List.filter_eq_nil_iff]
      intro f hf
      simp [hall f hf]
    rw [hstale, List.filter_eq_self.mpr hall, eq_comm]
    unfold rate
    rw [fraction_append_eq_right_iff]
    simp

/-- **From now on.** The rate of what is held is the one of the window at all later times just if
    neither a result that is held nor one in the window has failed. -/
theorem rate_held_eq_forever_iff (hpast : ∀ e ∈ all, e.1 ≤ t) :
    (∀ u, t ≤ u → rate held = rate (all.filter (inWindow window_s u))) ↔
      (∀ e ∈ held, e.2 = true) ∧ ∀ e ∈ all, inWindow window_s t e = true → e.2 = true := by
  constructor
  · intro h
    -- at last nothing is in the window
    have hempty : all.filter (inWindow window_s (t + |window_s| + 1)) = [] := by
      rw [List.filter_eq_nil_iff]
      intro e he
      have hle := hpast e he
      have habs := le_abs_self window_s
      simp only [inWindow, decide_eq_true_eq, not_and]
      intro hlate
      linarith
    have hheld : rate held = 0 := by
      rw [h (t + |window_s| + 1) (by linarith [abs_nonneg window_s]), hempty]
      exact fraction_nil _
    refine ⟨rate_eq_zero_iff.mp hheld, fun e he hin => ?_⟩
    have hnow := (h t le_rfl).symm.trans hheld
    exact rate_eq_zero_iff.mp hnow e (List.mem_filter.mpr ⟨he, hin⟩)
  · rintro ⟨hheld, hwindow⟩ u hu
    rw [rate_eq_zero_iff.mpr hheld, eq_comm, rate_eq_zero_iff]
    intro e he
    obtain ⟨hmem, hin⟩ := List.mem_filter.mp he
    refine hwindow e hmem ?_
    simp only [inWindow, decide_eq_true_eq] at hin ⊢
    exact ⟨(sub_le_sub_right hu _).trans hin.1, hpast e hmem⟩

end

/-! ### The score -/

/-- The score of a provider whose breaker is not open, once it has been asked. -/
theorem score_eq {p : Provider} {t : ℚ} (h : (p.health .exact t).1.open_circuit = false) :
    (p.health .exact t).1.score .exact = 1 - rate p.breaker.events := by
  have hrate : (p.health .exact t).1.error_rate = rate p.breaker.events := by
    show (p.breaker.allow .exact t).2.errorRate .exact = _
    rw [allow_errorRate, errorRate_eq_rate]
  have hle : rate p.breaker.events ≤ 1 := fraction_le_one
  unfold HealthSnapshot.score
  rw [h, hrate]
  show max 0 (1 - rate p.breaker.events) = _
  exact max_eq_right (by linarith)

/-- Asking a breaker, however often, leaves its error rate. -/
theorem errorRate_idle (fl : Rounding) (b : CircuitBreaker) (times : List ℚ) :
    (run (call fl) b (times.map fun t => (t, .allow))).errorRate fl = b.errorRate fl := by
  induction times generalizing b with
  | nil => rfl
  | cons t times ih =>
    rw [List.map_cons, run_cons, ih]
    exact allow_errorRate

/-- **The error rate.** After any calls, at a time `t` that is not before them:
    * `error_rate` is the failing fraction of the results in `[t - window_s, t]` exactly if the
      older ones that the breaker still holds fail in the same proportion as those it holds of the
      window, and those of the window that it has cleared in the same as those it holds;
    * the same decides about the score of a provider that is not open;
    * it is that fraction from `t` on exactly if no result that is held, and none of the last
      `window_s`, has failed.

    The breaker trims its results when it records one and not when it is asked, and forgets all of
    them when it closes. -/
theorem errorRate_eq_iff (window_s threshold : ℚ) (min_calls : ℤ) (cooldown_s : ℚ)
    (half_open_probes : ℤ) (calls : List (ℚ × Call)) (t : ℚ)
    (htimes : (calls.map Prod.fst ++ [t]).Pairwise (· ≤ ·)) :
    let b := run (call .exact) (new window_s threshold min_calls cooldown_s half_open_probes) calls
    let all := results calls
    let NoDifference := (stale window_s t b.events ≠ [] →
        rate (stale window_s t b.events) = rate (b.events.filter (inWindow window_s t))) ∧
      (missed window_s t all b.events ≠ [] →
        rate (missed window_s t all b.events) = rate b.events)
    (b.errorRate .exact = rate (all.filter (inWindow window_s t)) ↔ NoDifference) ∧
      (∀ name p95_setup_s, let p : Provider := ⟨name, p95_setup_s, b⟩
        (p.health .exact t).1.open_circuit = false →
          ((p.health .exact t).1.score .exact = 1 - rate (all.filter (inWindow window_s t)) ↔
            NoDifference)) ∧
      ((∀ u, t ≤ u → b.errorRate .exact = rate (all.filter (inWindow window_s u))) ↔
        (∀ e ∈ b.events, e.2 = true) ∧ ∀ e ∈ all, inWindow window_s t e = true → e.2 = true) := by
  intro b all NoDifference
  have hsuffix : b.events <:+ all := held_suffix _ rfl calls
  obtain ⟨hsorted, hpast⟩ := results_sorted htimes
  have hnow : rate b.events = rate (all.filter (inWindow window_s t)) ↔ NoDifference :=
    rate_held_eq_iff hsuffix hsorted hpast
  rw [errorRate_eq_rate]
  refine ⟨hnow, ?_, rate_held_eq_forever_iff hpast⟩
  intro name p95_setup_s p hclosed
  rw [score_eq hclosed, sub_right_inj]
  exact hnow

/-- One of four calls fails, and three seconds later the rate is a quarter. -/
theorem errorRate_eq_iff_recent :
    let calls := [((1 : ℚ), Call.record true), (2, .record false), (2, .record true),
      (4, .record true)]
    (run (call .exact) default calls).errorRate .exact = rate ((results calls).filter
      (inWindow 10 7)) := by
  intro calls
  exact (errorRate_eq_iff 10 (1 / 4) 10 15 3 calls 7 (by decide)).1.mpr (by decide +kernel)

/-- One failure, and nothing for an hour. -/
theorem errorRate_stale :
    let calls := [((0 : ℚ), Call.record false)]
    let b := run (call .exact) default calls
    let p : Provider := ⟨"mock_a", 1, b⟩
    b.errorRate .exact = 1 ∧ rate ((results calls).filter (inWindow 10 3600)) = 0 ∧
      (p.health .exact 3600).1.open_circuit = false ∧
      (p.health .exact 3600).1.score .exact = 0 := by
  decide +kernel

end CircuitBreaker

end SmartDialer
