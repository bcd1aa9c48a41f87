import SmartDialer.Safety.Rules

namespace SmartDialer

open Numeric

/-!
# `safety/controller.py`

`evaluate` is the decision of `evaluate_and_execute`: every rule runs, in order, and the minimum
of the request and the caps wins.  The batch of allocations that an approval starts belongs to the
pacing loop.

* `runRules_RULES` — all rules answer in the context before the tick.
* `approved_le_of_cap`, `approved_of_no_cap`, `evaluate_ctx` — what callers use of a decision.
-/

variable {fl : Rounding}

/-- What the loop over the rules has found so far. -/
structure Verdict where
  approved : ℤ
  reason : ReasonCode
  applied : List AppliedRule

/-- The body of the loop after a rule has answered. -/
def Verdict.count (v : Verdict) (rule : String) : Cap → Verdict
  | none => v
  | some (n, code) =>
    { approved := if n < v.approved then n else v.approved
      reason := if n < v.approved then code else v.reason
      applied := v.applied ++ [⟨rule, n, code⟩] }

/-- The loop over the rules. -/
def runRules (req : PacingRequest) (s : Snapshot) :
    List (String × Rule fl) → Verdict × SafetyContext fl → Verdict × SafetyContext fl
  | [], v => v
  | r :: rules, v =>
    let out := r.2 req s v.2
    runRules req s rules (v.1.count r.1 out.1, out.2)

/-- The decision of `evaluate_and_execute`, with the context it leaves. -/
def evaluate (req : PacingRequest) (s : Snapshot) (ctx : SafetyContext fl) :
    SafetyDecision × SafetyContext fl :=
  let v := runRules req s (RULES fl) (⟨req.n, .OK, []⟩, ctx)
  (⟨max 0 (min v.1.approved req.n), v.1.reason, req.n, v.1.applied⟩, v.2.tick)

/-! ### The loop over the rules -/

/-- The answers of the rules in one context. -/
def answers (req : PacingRequest) (s : Snapshot) (ctx : SafetyContext fl) : List (String × Cap) :=
  (RULES fl).map fun r => (r.1, (r.2 req s ctx).1)

/-- The context after the rules: tripped by a breach. -/
def SafetyContext.afterRules (s : Snapshot) (ctx : SafetyContext fl) : SafetyContext fl :=
  if Breach ctx.limits s then ctx.tripCooldown else ctx

/-- The loop over answers that are known in advance. -/
def Verdict.tally (v : Verdict) (outs : List (String × Cap)) : Verdict :=
  outs.foldl (fun v r => v.count r.1 r.2) v

/-- No rule after the fifth looks at the cooldown, so all of them answer in the context before
    the tick. -/
theorem runRules_RULES (req : PacingRequest) (s : Snapshot) (ctx : SafetyContext fl)
    (v : Verdict) :
    runRules req s (RULES fl) (v, ctx) = (v.tally (answers req s ctx), ctx.afterRules s) := by
  unfold SafetyContext.afterRules
  by_cases h : Breach ctx.limits s
  · rw [if_pos h]
    simp only [RULES, runRules, answers, Verdict.tally, List.map_cons, List.map_nil,
      List.foldl_cons, List.foldl_nil, Rule.reading, s5AbandonBudget_of_breach req h]
    rfl
  · rw [if_neg h]
    simp only [RULES, runRules, answers, Verdict.tally, List.map_cons, List.map_nil,
      List.foldl_cons, List.foldl_nil, Rule.reading, s5AbandonBudget_of_not_breach req h]

/-- Counting one more answer never raises what is approved. -/
theorem Verdict.count_approved_le (v : Verdict) (rule : String) (cap : Cap) :
    (v.count rule cap).approved ≤ v.approved := by
  cases cap with
  | none => exact le_rfl
  | some c =>
    show (if c.1 < v.approved then c.1 else v.approved) ≤ v.approved
    split <;> omega

/-- A cap that was counted bounds what is approved. -/
theorem Verdict.count_some_approved_le (v : Verdict) (rule : String) (n : ℤ) (code : ReasonCode) :
    (v.count rule (some (n, code))).approved ≤ n := by
  show (if n < v.approved then n else v.approved) ≤ n
  split <;> omega

/-- The minimum wins: neither the start nor any cap is exceeded. -/
theorem Verdict.tally_approved_le (v : Verdict) (outs : List (String × Cap)) :
    (v.tally outs).approved ≤ v.approved ∧
      ∀ rule n code, (rule, some (n, code)) ∈ outs → (v.tally outs).approved ≤ n := by
  induction outs generalizing v with
  | nil => exact ⟨le_rfl, fun _ _ _ h => by cases h⟩
  | cons r outs ih =>
    obtain ⟨hstart, hcaps⟩ := ih (v.count r.1 r.2)
    refine ⟨hstart.trans (v.count_approved_le r.1 r.2), fun rule n code h => ?_⟩
    rcases List.mem_cons.mp h with rfl | h
    · exact hstart.trans (v.count_some_approved_le rule n code)
    · exact hcaps rule n code h

/-- Where no rule answers, the start stands. -/
theorem Verdict.tally_of_no_cap (v : Verdict) {outs : List (String × Cap)}
    (h : ∀ r ∈ outs, r.2 = none) : v.tally outs = v := by
  induction outs generalizing v with
  | nil => rfl
  | cons r outs ih =>
    have hr : v.count r.1 r.2 = v := by rw [h r (by simp)]; rfl
    show Verdict.tally (v.count r.1 r.2) outs = v
    rw [hr]
    exact ih v fun r' hr' => h r' (by simp [hr'])

/-- What is recorded is what the rules answered. -/
theorem Verdict.mem_tally_applied (v : Verdict) (outs : List (String × Cap)) (a : AppliedRule) :
    a ∈ (v.tally outs).applied ↔
      a ∈ v.applied ∨ (a.rule, some (a.cap, a.reason)) ∈ outs := by
  induction outs generalizing v with
  | nil => simp [Verdict.tally]
  | cons r outs ih =>
    show a ∈ (Verdict.tally (v.count r.1 r.2) outs).applied ↔ _
    rw [ih, List.mem_cons, ← or_assoc]
    apply or_congr_left
    obtain ⟨rule, cap⟩ := r
    cases cap with
    | none => simp [Verdict.count]
    | some c =>
      obtain ⟨n, code⟩ := c
      show a ∈ v.applied ++ [⟨rule, n, code⟩] ↔ _
      obtain ⟨rule', n', code'⟩ := a
      simp [Prod.ext_iff, eq_comm]

/-! ### The decision -/

section

variable (req : PacingRequest) (s : Snapshot) (ctx : SafetyContext fl)

/-- A tick of the controller leaves the context that its rules leave, one tick later. -/
theorem evaluate_ctx : (evaluate req s ctx).2 = (ctx.afterRules s).tick := by
  unfold evaluate
  rw [runRules_RULES]

/-- Evaluating a request moves the cooldown, and leaves the limits as configured. -/
@[simp] theorem evaluate_limits : (evaluate req s ctx).2.limits = ctx.limits := by
  rw [evaluate_ctx, SafetyContext.tick_limits]
  unfold SafetyContext.afterRules
  split <;> rfl

/-- The record of a decision holds exactly the answers that were caps. -/
theorem mem_rules_applied (a : AppliedRule) : a ∈ (evaluate req s ctx).1.rules_applied ↔
    (a.rule, some (a.cap, a.reason)) ∈ answers req s ctx := by
  unfold evaluate
  rw [runRules_RULES]
  simp [Verdict.mem_tally_applied]

/-- Whatever a rule answers caps the approval. -/
theorem approved_le_of_cap {r : String × Rule fl} (hr : r ∈ RULES fl) {n : ℤ} {code : ReasonCode}
    (h : (r.2 req s ctx).1 = some (n, code)) : (evaluate req s ctx).1.approved ≤ max 0 n := by
  have hmem : (r.1, some (n, code)) ∈ answers req s ctx := h ▸ List.mem_map_of_mem hr
  have hcap := (Verdict.tally_approved_le ⟨req.n, .OK, []⟩ (answers req s ctx)).2 r.1 n code hmem
  unfold evaluate
  rw [runRules_RULES]
  apply max_le_max_left
  exact (min_le_left _ _).trans hcap

/-- The request caps the approval. -/
theorem approved_le_request : (evaluate req s ctx).1.approved ≤ max 0 req.n :=
  max_le_max_left 0 (min_le_right _ _)

/-- A request that no rule caps is approved. -/
theorem approved_of_no_cap (h : ∀ r ∈ answers req s ctx, r.2 = none) :
    (evaluate req s ctx).1.approved = max 0 req.n := by
  unfold evaluate
  rw [runRules_RULES, Verdict.tally_of_no_cap _ h]
  simp

end

end SmartDialer
