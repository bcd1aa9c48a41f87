import SmartDialer.Safety.Controller

namespace SmartDialer

open Numeric

/-!
# The compiled-in ceiling of the overdial ratio

`__post_init__` clamps `max_overdial_ratio` to `abs_max_overdial_ratio`, which is a field like any
other: the constructor keeps whatever it is given for it.  `withinCompiledCeiling_iff` says for
which arguments the controller stays within twice the staffed agents all the same.
-/

variable {fl : Rounding}

/-- Whatever is approved under the limits, the calls in flight stay within twice the staff. -/
def WithinCompiledCeiling (limits : SafetyLimits fl) : Prop :=
  ∀ (ctx : SafetyContext fl) (req : PacingRequest) (s : Snapshot), ctx.limits = limits →
    s.Counted → 0 < (evaluate req s ctx).1.approved →
    (evaluate req s ctx).1.approved + s.agent_bound_inflight + s.calls_ringing
      ≤ 2 * s.agents_staffed

/-! ### What an approval implies -/

section

variable {req : PacingRequest} {s : Snapshot} {ctx : SafetyContext fl}

/-- Rule S1: calls are approved only while some agent is available. -/
theorem available_of_approved (h : 0 < (evaluate req s ctx).1.approved) :
    1 ≤ s.agents_available := by
  by_contra hs
  have hle := approved_le_of_cap req s ctx
    (r := ("s1_no_agents", .reading fun _ s _ => s1NoAgents s)) (by simp [RULES])
    (if_pos (show s.agents_available ≤ 0 by omega))
  omega

/-- Rule S6: with what is already under way, an approval stays below the overdial ceiling. -/
theorem approved_le_overdial (h : 0 < (evaluate req s ctx).1.approved) :
    (evaluate req s ctx).1.approved
      ≤ overdialCeiling ctx.limits s - s.agent_bound_inflight - s.calls_ringing := by
  have hreq := approved_le_request req s ctx
  by_cases hfire : req.n >
      max 0 (overdialCeiling ctx.limits s - s.agent_bound_inflight - s.calls_ringing)
  · have hle := approved_le_of_cap req s ctx (r := ("s6_overdial_cap", .reading s6OverdialCap))
      (by simp [RULES]) (if_pos hfire)
    omega
  · omega

/-- Rule S7: with what is already ringing, an approval stays below the hard cap. -/
theorem approved_le_hardCap (h : 0 < (evaluate req s ctx).1.approved) :
    (evaluate req s ctx).1.approved ≤ ctx.limits.ringing_hard_cap - s.calls_ringing := by
  have hreq := approved_le_request req s ctx
  by_cases hfire : req.n > max 0 (ctx.limits.ringing_hard_cap - s.calls_ringing)
  · have hle := approved_le_of_cap req s ctx
      (r := ("s7_ringing_hard_cap", .reading s7RingingHardCap)) (by simp [RULES]) (if_pos hfire)
    omega
  · omega

end

/-! ### The ceiling -/

/-- The overdial ceiling of a staff of `staffed` agents. -/
def ceilingFor (fl : Rounding) (ratio : ℚ) (staffed : ℤ) : ℤ := truncate (fl.mulInt staffed ratio)

/-- Where the ceiling is within twice the staff, and where the hard cap binds first, every
    approval is. -/
theorem withinCompiledCeiling_of_ceiling {limits : SafetyLimits fl}
    (h : ∀ staffed : ℤ, 1 ≤ staffed → staffed + 2 ≤ limits.ringing_hard_cap →
      ceilingFor fl limits.max_overdial_ratio staffed ≤ 2 * staffed) :
    WithinCompiledCeiling limits := by
  rintro ctx req s rfl hs hpos
  have hover := approved_le_overdial hpos
  have hcap := approved_le_hardCap hpos
  have havail := available_of_approved hpos
  -- one agent is idle, so the others bound the calls that hold an agent
  have hinflight : s.agent_bound_inflight + 1 ≤ s.agents_staffed := by
    have h₁ := hs.connected
    have h₂ := hs.wrapup
    unfold Snapshot.agent_bound_inflight Snapshot.agents_staffed
    omega
  have hnn : 0 ≤ s.agent_bound_inflight := add_nonneg hs.reserved hs.dialing
  by_cases hbinds : s.agents_staffed + 2 ≤ ctx.limits.ringing_hard_cap
  · have hle : overdialCeiling ctx.limits s ≤ 2 * s.agents_staffed :=
      h s.agents_staffed (by omega) hbinds
    omega
  · omega

/-- The tightest snapshot of a staff: one agent is idle, and one call more than there are agents
    is ringing. -/
def tightSnapshot (limits : SafetyLimits fl) (staffed : ℤ) : Snapshot :=
  .ofCounts 1 (staffed - 1) (staffed + 1) limits.min_samples_for_predictive
    limits.max_abandon_rate

/-- Beyond twice the staff the rules still let one call pass. -/
private theorem approved_tightSnapshot (limits : SafetyLimits fl) {staffed : ℤ}
    (hcap : staffed + 2 ≤ limits.ringing_hard_cap)
    (hceil : 2 * staffed < ceilingFor fl limits.max_overdial_ratio staffed) :
    (evaluate ⟨7, 1⟩ (tightSnapshot limits staffed) ⟨limits, 0⟩).1.approved = 1 := by
  have hstaffed : (tightSnapshot limits staffed).agents_staffed = staffed := by
    simp [tightSnapshot, Snapshot.ofCounts, Snapshot.agents_staffed]
  have hinflight : (tightSnapshot limits staffed).agent_bound_inflight = staffed - 1 := by
    simp [tightSnapshot, Snapshot.ofCounts, Snapshot.agent_bound_inflight]
  have hs4 : s4ProviderHealth fl ⟨7, 1⟩ (tightSnapshot limits staffed) = none := by
    have hlit : ¬ (1 : ℚ) < fl (6 / 10) := not_lt.mpr (fl.le_one (by norm_num))
    simp [s4ProviderHealth, tightSnapshot, Snapshot.ofCounts, bestHealth, hlit]
  have hs6 : s6OverdialCap ⟨7, 1⟩ (tightSnapshot limits staffed) ⟨limits, 0⟩ = none := by
    unfold s6OverdialCap overdialCeiling
    rw [hstaffed, hinflight]
    refine if_neg (not_lt.mpr (le_max_of_le_right ?_))
    show 1 ≤ ceilingFor fl limits.max_overdial_ratio staffed - (staffed - 1) - (staffed + 1)
    omega
  have hs7 : s7RingingHardCap ⟨7, 1⟩ (tightSnapshot limits staffed) ⟨limits, 0⟩ = none := by
    unfold s7RingingHardCap
    refine if_neg (not_lt.mpr (le_max_of_le_right ?_))
    show 1 ≤ limits.ringing_hard_cap - (staffed + 1)
    omega
  rw [approved_of_no_cap]
  · rfl
  · simp only [answers, RULES, List.map_cons, List.map_nil, Rule.reading, hs4, hs6, hs7]
    simp [s0CampaignActive, s1NoAgents, s2Cooldown, s3InsufficientSamples, s5AbandonBudget, Breach,
      tightSnapshot, Snapshot.ofCounts]

/-- **The ceiling.** The controller stays within twice the staffed agents under every context,
    request and snapshot exactly when, at every staffing that the hard cap leaves room for, the
    configured ceiling does.  The compiled ratio is the default of a field of its own and nothing
    more, so whoever configures both ratios moves the ceiling with them. -/
theorem withinCompiledCeiling_iff (args : SafetyLimits.Args) :
    WithinCompiledCeiling (SafetyLimits.new fl args) ↔
      ∀ staffed : ℤ, 1 ≤ staffed → staffed + 2 ≤ args.ringing_hard_cap →
        ceilingFor fl (min args.max_overdial_ratio args.abs_max_overdial_ratio) staffed
          ≤ 2 * staffed := by
  constructor
  · intro h staffed h1 hcap
    by_contra hceil
    have happroved := approved_tightSnapshot (SafetyLimits.new fl args) hcap (not_le.mp hceil)
    have hle := h _ _ (tightSnapshot (SafetyLimits.new fl args) staffed) rfl ?_
      (by rw [happroved]; norm_num)
    · rw [happroved] at hle
      simp only [tightSnapshot, Snapshot.ofCounts, Snapshot.agent_bound_inflight,
        Snapshot.agents_staffed] at hle
      omega
    · constructor <;> simp only [tightSnapshot, Snapshot.ofCounts] <;> omega
  · exact fun h => withinCompiledCeiling_of_ceiling h

/-- It is enough that one of the two configured ratios is at most 2, where the rounding keeps the
    integers up to twice the hard cap, as floats do up to `2 ^ 53`. -/
theorem withinCompiledCeiling_of_ratio (args : SafetyLimits.Args)
    (hfl : ∀ n : ℤ, 0 ≤ n → n ≤ 2 * args.ringing_hard_cap → fl n = n)
    (h : min args.max_overdial_ratio args.abs_max_overdial_ratio ≤ 2) :
    WithinCompiledCeiling (SafetyLimits.new fl args) := by
  apply (withinCompiledCeiling_iff args).mpr
  intro staffed h1 hcap
  apply truncate_le
  · calc fl.mulInt staffed (min args.max_overdial_ratio args.abs_max_overdial_ratio)
        ≤ fl.mulInt staffed 2 := fl.mulInt_mono (zero_le_one.trans h1) h
      _ = fl ((2 * staffed : ℤ) : ℚ) := by
        rw [Rounding.mulInt, hfl staffed (by omega) (by omega)]
        push_cast
        rw [mul_comm]
      _ = ((2 * staffed : ℤ) : ℚ) := hfl _ (by omega) (by omega)
  · omega

/-- Both ratios are configured far above the ceiling. -/
def loosenedArgs : SafetyLimits.Args :=
  { SafetyLimits.Args.default .binary64 with
    max_overdial_ratio := 5
    abs_max_overdial_ratio := 10 }

/-- Ten calls are requested for one idle agent, and five approved. -/
theorem loosened_not_withinCompiledCeiling :
    ¬ WithinCompiledCeiling (SafetyLimits.new .binary64 loosenedArgs) := fun h => by
  have hle := h ⟨SafetyLimits.new .binary64 loosenedArgs, 0⟩ ⟨7, 10⟩ (.ofCounts 1 0 0 100 0) rfl
    ⟨by decide, by decide, by decide, by decide, by decide, by decide⟩ (by decide +kernel)
  revert hle
  decide +kernel

end SmartDialer
