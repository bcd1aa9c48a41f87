import SmartDialer.Lib.Countdown
import SmartDialer.Safety.Controller
import SmartDialer.Pacing.Progressive

namespace SmartDialer

open Numeric Relational

/-!
# The cooldown after a breach

Between two ticks the controller only remembers `cooldown_ticks_left`, and that is a countdown set
by breaches of the abandon budget (`cooldown_run`).  A breach in tick `j` is the fifth rule's
affair in that tick, and the second rule's in the following ones: the counter is set before it is
counted down for the first time.
-/

variable {fl : Rounding}

/-- One tick of a controller. -/
def SafetyContext.step (ctx : SafetyContext fl) (t : PacingRequest × Snapshot) :
    SafetyContext fl := (evaluate t.1 t.2 ctx).2

/-- The context before tick `i` of a controller that starts without cooldown. -/
def contextBefore (limits : SafetyLimits fl) (ticks : List (PacingRequest × Snapshot)) (i : ℕ) :
    SafetyContext fl := run SafetyContext.step ⟨limits, 0⟩ (ticks.take i)

/-- The limits are those of the start after any number of ticks. -/
theorem run_step_limits (ctx : SafetyContext fl) (ticks : List (PacingRequest × Snapshot)) :
    (run SafetyContext.step ctx ticks).limits = ctx.limits :=
  invariant_run (I := fun c => c.limits = ctx.limits)
    (fun c t h => (evaluate_limits t.1 t.2 c).trans h) rfl ticks

/-- The counter after a tick. -/
theorem step_cooldown (ctx : SafetyContext fl) (t : PacingRequest × Snapshot) {c N : ℕ}
    (hc : ctx.cooldown_ticks_left = c) (hN : ctx.limits.cooldown_ticks_after_breach = N) :
    (ctx.step t).cooldown_ticks_left = countdown N c (decide (Breach ctx.limits t.2)) := by
  have htick : ∀ d : SafetyContext fl, ∀ m : ℕ, d.cooldown_ticks_left = m →
      d.tick.cooldown_ticks_left = ((m - 1 : ℕ) : ℤ) := by
    intro d m hm
    unfold SafetyContext.tick
    split
    · show d.cooldown_ticks_left - 1 = _
      omega
    · omega
  unfold SafetyContext.step
  rw [evaluate_ctx]
  unfold SafetyContext.afterRules countdown
  by_cases h : Breach ctx.limits t.2
  · -- the breach sets the counter before the tick counts it down
    rw [if_pos h, if_pos (by simpa using h)]
    exact htick ctx.tripCooldown N hN
  · rw [if_neg h, if_neg (by simpa using h)]
    exact htick ctx c hc

/-- **Refinement.** The counter of the controller is a countdown that the breaches set. -/
theorem cooldown_run (limits : SafetyLimits fl) {N : ℕ}
    (hN : limits.cooldown_ticks_after_breach = N) (ticks : List (PacingRequest × Snapshot)) :
    (run SafetyContext.step (⟨limits, 0⟩ : SafetyContext fl) ticks).cooldown_ticks_left
      = run (countdown N) 0 (ticks.map fun t => decide (Breach limits t.2)) := by
  induction ticks using List.reverseRecOn with
  | nil => rfl
  | append_singleton ticks t ih =>
    have hlimits := run_step_limits (⟨limits, 0⟩ : SafetyContext fl) ticks
    rw [run_concat, List.map_append, List.map_singleton, run_concat]
    have hstep := step_cooldown _ t ih (by rw [hlimits]; exact hN)
    rw [hlimits] at hstep
    exact hstep

/-- The counter before tick `i`, by the breaches before it. -/
theorem lt_cooldown_iff (limits : SafetyLimits fl) {N : ℕ}
    (hN : limits.cooldown_ticks_after_breach = N) (ticks : List (PacingRequest × Snapshot)) {i : ℕ}
    (hi : i < ticks.length) :
    0 < (contextBefore limits ticks i).cooldown_ticks_left ↔
      ∃ j t, ticks[j]? = some t ∧ j < i ∧ i < j + N ∧ Breach limits t.2 := by
  unfold contextBefore
  rw [cooldown_run limits hN, Int.natCast_pos, lt_run_countdown, List.length_map,
    List.length_take, min_eq_left hi.le, add_zero]
  constructor
  · rintro ⟨j, hj, hlt⟩
    rw [List.getElem?_map, Option.map_eq_some_iff] at hj
    obtain ⟨t, ht, hbreach⟩ := hj
    -- the breach is one of the first `i` ticks
    have hji : j < i := by
      have := (List.getElem?_eq_some_iff.mp ht).1
      rw [List.length_take] at this
      omega
    rw [List.getElem?_take_of_lt hji] at ht
    exact ⟨j, t, ht, hji, hlt, by simpa using hbreach⟩
  · rintro ⟨j, t, ht, hji, hlt, hbreach⟩
    refine ⟨j, ?_, hlt⟩
    rw [List.getElem?_map, List.getElem?_take_of_lt hji, ht]
    simpa using hbreach

/-! ### Decisions -/

/-- Does the second rule take part in a decision? -/
def CooldownFires (d : SafetyDecision) : Prop := ∃ a ∈ d.rules_applied, a.rule = "s2_cooldown"

/-- Among the answers the second rule is found by its name. -/
theorem mem_answers_cooldown (req : PacingRequest) (s : Snapshot) (ctx : SafetyContext fl)
    (cap : Cap) : ("s2_cooldown", cap) ∈ answers req s ctx ↔ s2Cooldown req s ctx = cap := by
  simp [answers, RULES, Rule.reading, eq_comm]

/-- The second rule takes part exactly while the cooldown runs. -/
theorem cooldownFires_iff (req : PacingRequest) (s : Snapshot) (ctx : SafetyContext fl) :
    CooldownFires (evaluate req s ctx).1 ↔ 0 < ctx.cooldown_ticks_left := by
  unfold CooldownFires
  simp only [mem_rules_applied]
  constructor
  · rintro ⟨⟨rule, cap, reason⟩, ha, rfl⟩
    rw [mem_answers_cooldown] at ha
    unfold s2Cooldown at ha
    split at ha
    · assumption
    · cases ha
  · intro h
    refine ⟨⟨"s2_cooldown", min req.n s.progressiveCap, .COOLDOWN_FORCED_PROGRESSIVE⟩, ?_, rfl⟩
    rw [mem_answers_cooldown]
    exact if_pos h

/-- Under a cooldown or a breach no more is approved than the progressive engine would ask for. -/
theorem approved_le_progressive (req : PacingRequest) (s : Snapshot) (ctx : SafetyContext fl)
    (h : 0 < ctx.cooldown_ticks_left ∨ Breach ctx.limits s) :
    (evaluate req s ctx).1.approved ≤ (ProgressivePacing.decide s).n := by
  have hcap : max 0 (min req.n s.progressiveCap) ≤ (ProgressivePacing.decide s).n := by
    apply max_le (le_max_left _ _)
    exact min_le_right _ _
  refine le_trans ?_ hcap
  rcases h with h | h
  · exact approved_le_of_cap req s ctx (r := ("s2_cooldown", .reading s2Cooldown)) (by simp [RULES])
      (if_pos h)
  · exact approved_le_of_cap req s ctx (r := ("s5_abandon_budget", s5AbandonBudget))
      (by simp [RULES]) (congrArg Prod.fst (s5AbandonBudget_of_breach req h))

/-- **Cooldown window.** For every sequence of ticks with at least one tick of cooldown after a
    breach, the cooldown rule fires in exactly those ticks that have a breach less than the
    cooldown before them; and in these ticks and the ones with a breach themselves no more is
    approved than the progressive engine asks for. -/
theorem cooldown_window (limits : SafetyLimits fl) (hN : 1 ≤ limits.cooldown_ticks_after_breach)
    (ticks : List (PacingRequest × Snapshot)) (i : ℕ) (req : PacingRequest) (s : Snapshot)
    (hi : ticks[i]? = some (req, s)) :
    (CooldownFires (evaluate req s (contextBefore limits ticks i)).1 ↔
      ∃ (j : ℕ) (t : PacingRequest × Snapshot), ticks[j]? = some t ∧
        (i : ℤ) - limits.cooldown_ticks_after_breach < j ∧ j < i ∧
        t.2.stats.abandon_rate_5m > limits.max_abandon_rate) ∧
    ((∃ (j : ℕ) (t : PacingRequest × Snapshot), ticks[j]? = some t ∧
        (i : ℤ) - limits.cooldown_ticks_after_breach < j ∧ j ≤ i ∧
        t.2.stats.abandon_rate_5m > limits.max_abandon_rate) →
      (evaluate req s (contextBefore limits ticks i)).1.approved
        ≤ (ProgressivePacing.decide s).n) := by
  obtain ⟨N, hN'⟩ := Int.eq_ofNat_of_zero_le (show 0 ≤ limits.cooldown_ticks_after_breach by omega)
  have hlt := (List.getElem?_eq_some_iff.mp hi).1
  have hwindow := lt_cooldown_iff limits hN' ticks hlt
  have hlimits : (contextBefore limits ticks i).limits = limits := run_step_limits _ _
  rw [hN']
  constructor
  · rw [cooldownFires_iff, hwindow]
    constructor
    · rintro ⟨j, t, ht, hji, hiN, hbreach⟩
      exact ⟨j, t, ht, by omega, hji, hbreach⟩
    · rintro ⟨j, t, ht, hiN, hji, hbreach⟩
      exact ⟨j, t, ht, hji, by omega, hbreach⟩
  · rintro ⟨j, t, ht, hiN, hji, hbreach⟩
    apply approved_le_progressive
    rcases hji.lt_or_eq with hji | rfl
    · exact Or.inl (hwindow.mpr ⟨j, t, ht, hji, by omega, hbreach⟩)
    · -- the breaching tick itself is capped by the fifth rule
      rw [hi, Option.some.injEq] at ht
      subst ht
      rw [hlimits]
      exact Or.inr hbreach

/-- A breach and then a calm tick of ten idle agents, with a large request in both. -/
def breachTicks : List (PacingRequest × Snapshot) :=
  [(⟨7, 50⟩, .ofCounts 10 0 0 100 (9 / 100)), (⟨7, 50⟩, .ofCounts 10 0 0 100 0)]

/-- The tick after a breach, under the default limits. -/
theorem cooldown_window_breachTicks :
    CooldownFires (evaluate ⟨7, 50⟩ (.ofCounts 10 0 0 100 0)
      (contextBefore (SafetyLimits.new .binary64 (.default .binary64)) breachTicks 1)).1 ∧
    (evaluate ⟨7, 50⟩ (.ofCounts 10 0 0 100 0)
      (contextBefore (SafetyLimits.new .binary64 (.default .binary64)) breachTicks 1)).1.approved
        ≤ 10 := by
  have h := cooldown_window (SafetyLimits.new .binary64 (.default .binary64)) (by decide)
    breachTicks 1 ⟨7, 50⟩ (.ofCounts 10 0 0 100 0) rfl
  have hbreach : (Snapshot.ofCounts 10 0 0 100 (9 / 100)).stats.abandon_rate_5m
      > (SafetyLimits.new .binary64 (.default .binary64)).max_abandon_rate := by decide +kernel
  exact ⟨h.1.mpr ⟨0, _, rfl, by decide, by decide, hbreach⟩,
    h.2 ⟨0, _, rfl, by decide, by decide, hbreach⟩⟩

end SmartDialer
