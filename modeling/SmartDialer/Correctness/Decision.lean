import SmartDialer.Safety.Controller
import SmartDialer.Worker.Batch

namespace SmartDialer

open Numeric Relational

/-!
# The decision of a tick

What `evaluate_and_execute` approves is the minimum of the request and of all caps, and the order of
the rules does not show in it.  Only two rules meet: `s5_abandon_budget` trips the cooldown that
`s2_cooldown` reads, and where it does, it caps the request itself as `s2_cooldown` would.

* `evaluateBy` — the decision under a list of rules; `evaluate` is the one under `RULES`.
* `bounds_transfer` — a bound that a cap imposes in one context is imposed in any other that the
  rules can reach.
* `evaluateBy_approved` — the approval under any order of the rules.
-/

variable {fl : Rounding}

/-- `evaluate_and_execute` with the rules as a parameter. -/
def evaluateBy (rules : List (String × Rule fl)) (req : PacingRequest) (s : Snapshot)
    (ctx : SafetyContext fl) : SafetyDecision × SafetyContext fl :=
  let v := runRules req s rules (⟨req.n, .OK, []⟩, ctx)
  (⟨max 0 (min v.1.approved req.n), v.1.reason, req.n, v.1.applied⟩, v.2.tick)

/-- With the rules of the source it is the function of the source. -/
theorem evaluateBy_RULES (req : PacingRequest) (s : Snapshot) (ctx : SafetyContext fl) :
    evaluateBy (RULES fl) req s ctx = evaluate req s ctx := rfl

/-- The caps of the rules that fire in a context. -/
def caps (req : PacingRequest) (s : Snapshot) (ctx : SafetyContext fl) : List ℤ :=
  (answers req s ctx).filterMap fun r => r.2.map Prod.fst

/-- A number is below the minimum of a list exactly when it is below all of it. -/
theorem le_foldr_min {x a : ℤ} {l : List ℤ} : x ≤ l.foldr min a ↔ x ≤ a ∧ ∀ c ∈ l, x ≤ c := by
  induction l with
  | nil => simp
  | cons c l ih =>
    rw [List.foldr_cons, le_min_iff, ih]
    simp only [List.mem_cons, forall_eq_or_imp]
    tauto

/-! ### What the rules look at -/

/-- The rule that reads the cooldown. -/
def cooldownRule (fl : Rounding) : String × Rule fl := ("s2_cooldown", .reading s2Cooldown)

/-- The rule that trips the cooldown. -/
def budgetRule (fl : Rounding) : String × Rule fl := ("s5_abandon_budget", s5AbandonBudget)

/-- All other rules leave the context and look only at its limits. -/
theorem rule_cases {r : String × Rule fl} (hr : r ∈ RULES fl) :
    r = cooldownRule fl ∨ r = budgetRule fl ∨
      ∀ req s c, (r.2 req s c).2 = c ∧
        ∀ c', c.limits = c'.limits → (r.2 req s c).1 = (r.2 req s c').1 := by
  simp only [RULES, List.mem_cons, List.not_mem_nil, or_false] at hr
  -- S2 reads the cooldown and S5 sets it; the other six read the limits alone
  rcases hr with rfl | rfl | rfl | rfl | rfl | rfl | rfl | rfl
  · exact Or.inr (Or.inr fun _ _ _ => ⟨rfl, fun _ _ => rfl⟩)
  · exact Or.inr (Or.inr fun _ _ _ => ⟨rfl, fun _ _ => rfl⟩)
  · exact Or.inl rfl
  · refine Or.inr (Or.inr fun req s c => ⟨rfl, fun c' h => ?_⟩)
    show s3InsufficientSamples req s c = s3InsufficientSamples req s c'
    unfold s3InsufficientSamples
    rw [h]
  · exact Or.inr (Or.inr fun _ _ _ => ⟨rfl, fun _ _ => rfl⟩)
  · exact Or.inr (Or.inl rfl)
  · refine Or.inr (Or.inr fun req s c => ⟨rfl, fun c' h => ?_⟩)
    show s6OverdialCap req s c = s6OverdialCap req s c'
    unfold s6OverdialCap
    rw [h]
  · refine Or.inr (Or.inr fun req s c => ⟨rfl, fun c' h => ?_⟩)
    show s7RingingHardCap req s c = s7RingingHardCap req s c'
    unfold s7RingingHardCap
    rw [h]

/-- The fallback of three rules. -/
theorem min_progressiveCap_nonneg {req : PacingRequest} (hn : 0 ≤ req.n) (s : Snapshot) :
    0 ≤ min req.n s.progressiveCap := le_min hn (le_max_left _ _)

/-- A rule that fires has a reason, and caps no request below zero that is not there already. -/
theorem rule_fires {r : String × Rule fl} (hr : r ∈ RULES fl) {req : PacingRequest}
    {s : Snapshot} {c : SafetyContext fl} {n : ℤ} {code : ReasonCode}
    (h : (r.2 req s c).1 = some (n, code)) : code ≠ .OK ∧ (0 ≤ req.n → 0 ≤ n) := by
  simp only [RULES, List.mem_cons, List.not_mem_nil, or_false] at hr
  rcases hr with rfl | rfl | rfl | rfl | rfl | rfl | rfl | rfl
  · simp only [Rule.reading, s0CampaignActive] at h
    split_ifs at h
    cases h
    exact ⟨by decide, fun _ => le_rfl⟩
  · simp only [Rule.reading, s1NoAgents] at h
    split_ifs at h
    cases h
    exact ⟨by decide, fun _ => le_rfl⟩
  · simp only [Rule.reading, s2Cooldown] at h
    split_ifs at h
    cases h
    exact ⟨by decide, fun hn => min_progressiveCap_nonneg hn s⟩
  · simp only [Rule.reading, s3InsufficientSamples] at h
    split_ifs at h
    cases h
    exact ⟨by decide, fun hn => min_progressiveCap_nonneg hn s⟩
  · -- S4 scales the request by the health: a truncated product of nonnegative factors
    simp only [Rule.reading, s4ProviderHealth] at h
    split_ifs at h with h0
    · cases h
      exact ⟨by decide, fun _ => le_rfl⟩
    · cases h
      refine ⟨by decide, fun hn => le_min hn ?_⟩
      have hprod : 0 ≤ fl.mulInt req.n (bestHealth s.provider_health) :=
        fl.nonneg (mul_nonneg (fl.nonneg (by exact_mod_cast hn)) (not_le.mp h0).le)
      rw [truncate_of_nonneg hprod]
      exact Int.floor_nonneg.mpr hprod
  · simp only [s5AbandonBudget] at h
    split_ifs at h
    cases h
    exact ⟨by decide, fun hn => min_progressiveCap_nonneg hn s⟩
  · simp only [Rule.reading, s6OverdialCap] at h
    split_ifs at h
    cases h
    exact ⟨by decide, fun _ => le_max_left _ _⟩
  · simp only [Rule.reading, s7RingingHardCap] at h
    split_ifs at h
    cases h
    exact ⟨by decide, fun _ => le_max_left _ _⟩

/-! ### The contexts of a tick -/

section

variable (req : PacingRequest) (s : Snapshot) (ctx : SafetyContext fl)

/-- Whatever the rule answers in the context is at least `x`. -/
def Bounds (x : ℤ) (c : SafetyContext fl) (r : String × Rule fl) : Prop :=
  ∀ n code, (r.2 req s c).1 = some (n, code) → x ≤ n

/-- The contexts that the rules make of `ctx`. -/
def Reach (c : SafetyContext fl) : Prop :=
  c = ctx ∨ Breach ctx.limits s ∧ c = ctx.tripCooldown

variable {req s ctx} {c c' : SafetyContext fl} {r : String × Rule fl} {x : ℤ}

/-- The rules change the cooldown of a context and never its limits. -/
theorem Reach.limits (h : Reach s ctx c) : c.limits = ctx.limits := by
  rcases h with rfl | ⟨_, rfl⟩ <;> rfl

/-- What the budget rule does in a reachable context. -/
theorem Reach.budget (h : Reach s ctx c) : s5AbandonBudget req s c =
    (if Breach ctx.limits s then some (min req.n s.progressiveCap, .ABANDON_BUDGET_BREACH)
      else none,
      if Breach ctx.limits s then ctx.tripCooldown else c) := by
  unfold s5AbandonBudget
  rw [h.limits]
  -- tripping a tripped cooldown changes nothing
  split
  · rcases h with rfl | ⟨_, rfl⟩ <;> rfl
  · rfl

/-- A rule leads from one of these contexts to another. -/
theorem Reach.rule (h : Reach s ctx c) (hr : r ∈ RULES fl) : Reach s ctx (r.2 req s c).2 := by
  rcases rule_cases hr with rfl | rfl | hread
  · exact h
  · show Reach s ctx (s5AbandonBudget req s c).2
    rw [h.budget]
    split
    · rename_i hb
      exact Or.inr ⟨hb, rfl⟩
    · exact h
  · rw [(hread req s c).1]
    exact h

/-- What a rule caps in one context of the tick it caps in all of them, or the budget rule does. -/
theorem bounds_transfer (hr : r ∈ RULES fl) (hc : Reach s ctx c) (hc' : Reach s ctx c')
    (h : Bounds req s x c r) (hbudget : Bounds req s x ctx (budgetRule fl)) :
    Bounds req s x c' r := by
  have hlimits : c'.limits = c.limits := hc'.limits.trans hc.limits.symm
  rcases rule_cases hr with rfl | rfl | hread
  · -- either the cooldown is the same, or the budget is breached in between
    by_cases hb : Breach ctx.limits s
    · intro n code hfire
      have hcap := hbudget (min req.n s.progressiveCap) .ABANDON_BUDGET_BREACH
        (by show (s5AbandonBudget req s ctx).1 = _; rw [Reach.budget (Or.inl rfl), if_pos hb])
      change s2Cooldown req s c' = _ at hfire
      unfold s2Cooldown at hfire
      split at hfire
      · cases hfire
        exact hcap
      · cases hfire
    · have heq : c' = c := by
        rcases hc with rfl | hc <;> rcases hc' with rfl | hc'
        · rfl
        · exact absurd hc'.1 hb
        · exact absurd hc.1 hb
        · exact absurd hc.1 hb
      exact heq ▸ h
  · intro n code hfire
    apply h n code
    change (s5AbandonBudget req s c').1 = _ at hfire
    show (s5AbandonBudget req s c).1 = _
    rw [hc'.budget] at hfire
    rw [hc.budget]
    exact hfire
  · intro n code hfire
    rw [(hread req s c').2 c hlimits] at hfire
    exact h n code hfire

/-! ### The loop in any order -/

/-- Counting an answer lowers the approval to its cap and no further. -/
theorem Verdict.le_count_iff (v : Verdict) (rule : String) (cap : Cap) :
    x ≤ (v.count rule cap).approved ↔ x ≤ v.approved ∧ ∀ n code, cap = some (n, code) → x ≤ n := by
  cases cap with
  | none => simp [Verdict.count]
  | some out =>
    obtain ⟨m, code⟩ := out
    show x ≤ (if m < v.approved then m else v.approved) ↔ _
    -- the strict comparison keeps the smaller one, like `min`
    constructor
    · intro h
      split at h
      · exact ⟨by omega, fun n code' heq => by cases heq; exact h⟩
      · exact ⟨h, fun n code' heq => by cases heq; omega⟩
    · rintro ⟨hv, hm⟩
      have := hm m code rfl
      split <;> omega

/-- What a bound on the loop says about its start and its rules. -/
theorem bounds_of_le_runRules {rules : List (String × Rule fl)} (hrules : ∀ r ∈ rules, r ∈ RULES fl)
    (hc : Reach s ctx c) {v : Verdict} (h : x ≤ (runRules req s rules (v, c)).1.approved) :
    x ≤ v.approved ∧ ∀ r ∈ rules, ∃ c', Reach s ctx c' ∧ Bounds req s x c' r := by
  -- each rule is asked in the context that the rules before it have left
  induction rules generalizing v c with
  | nil => exact ⟨h, by simp⟩
  | cons r rules ih =>
    obtain ⟨hr, hrest⟩ := List.forall_mem_cons.mp hrules
    obtain ⟨hcount, hrules'⟩ := ih hrest (hc.rule hr) h
    obtain ⟨hv, hfires⟩ := (Verdict.le_count_iff v r.1 _).mp hcount
    exact ⟨hv, List.forall_mem_cons.mpr ⟨⟨c, hc, hfires⟩, hrules'⟩⟩

/-- What all rules allow, the loop does not fall below. -/
theorem le_runRules {rules : List (String × Rule fl)} (hrules : ∀ r ∈ rules, r ∈ RULES fl)
    (hc : Reach s ctx c) {v : Verdict} (hv : x ≤ v.approved)
    (h : ∀ r ∈ RULES fl, Bounds req s x ctx r) :
    x ≤ (runRules req s rules (v, c)).1.approved := by
  induction rules generalizing v c with
  | nil => exact hv
  | cons r rules ih =>
    obtain ⟨hr, hrest⟩ := List.forall_mem_cons.mp hrules
    apply ih hrest (hc.rule hr)
    rw [Verdict.le_count_iff]
    have hbudget := h (budgetRule fl) (by simp [RULES, budgetRule])
    exact ⟨hv, bounds_transfer hr (Or.inl rfl) hc (h r hr) hbudget⟩

/-- Any number of rules lead from one of these contexts to another. -/
theorem Reach.runRules {rules : List (String × Rule fl)} (hrules : ∀ r ∈ rules, r ∈ RULES fl)
    (hc : Reach s ctx c) (v : Verdict) : Reach s ctx (runRules req s rules (v, c)).2 := by
  induction rules generalizing v c with
  | nil => exact hc
  | cons r rules ih =>
    obtain ⟨hr, hrest⟩ := List.forall_mem_cons.mp hrules
    exact ih hrest (hc.rule hr) _

/-- Once tripped, the cooldown stays so until the end of the tick. -/
theorem rule_tripped (hr : r ∈ RULES fl) (hb : Breach ctx.limits s) :
    (r.2 req s ctx.tripCooldown).2 = ctx.tripCooldown := by
  rcases rule_cases hr with rfl | rfl | hread
  · rfl
  · show (s5AbandonBudget req s ctx.tripCooldown).2 = _
    rw [Reach.budget (Or.inr ⟨hb, rfl⟩)]
    exact if_pos hb
  · exact (hread req s _).1

/-- The loop trips the cooldown when the budget is breached and its rule is among the others. -/
theorem runRules_tripped {rules : List (String × Rule fl)} (hrules : ∀ r ∈ rules, r ∈ RULES fl)
    (hc : Reach s ctx c) (hb : Breach ctx.limits s)
    (htrip : c = ctx.tripCooldown ∨ budgetRule fl ∈ rules) (v : Verdict) :
    (runRules req s rules (v, c)).2 = ctx.tripCooldown := by
  induction rules generalizing v c with
  | nil => exact htrip.resolve_right (by simp)
  | cons r rules ih =>
    obtain ⟨hr, hrest⟩ := List.forall_mem_cons.mp hrules
    apply ih hrest (hc.rule hr)
    rcases htrip with rfl | hmem
    · exact Or.inl (rule_tripped hr hb)
    · rcases List.mem_cons.mp hmem with rfl | hmem
      · -- the budget rule itself trips it, now or again
        left
        show (s5AbandonBudget req s c).2 = _
        rw [hc.budget]
        exact if_pos hb
      · exact Or.inr hmem

/-- Whatever the order, the rules together trip the cooldown exactly on a breach. -/
theorem runRules_ctx {rules : List (String × Rule fl)} (hrules : ∀ r ∈ rules, r ∈ RULES fl)
    (hbudget : budgetRule fl ∈ rules) (v : Verdict) :
    (runRules req s rules (v, ctx)).2 = ctx.afterRules s := by
  unfold SafetyContext.afterRules
  split
  · rename_i hb
    exact runRules_tripped hrules (Or.inl rfl) hb (Or.inr hbudget) v
  · rename_i hb
    have hreach : Reach s ctx (runRules req s rules (v, ctx)).2 :=
      Reach.runRules hrules (Or.inl rfl) v
    rcases hreach with h | h
    · exact h
    · exact absurd h.1 hb

/-- The loop says that nothing is capped exactly when nothing is. -/
theorem runRules_reason {rules : List (String × Rule fl)} (hrules : ∀ r ∈ rules, r ∈ RULES fl)
    {n : ℤ} {v : Verdict} (hle : v.approved ≤ n) (hv : v.reason = .OK ↔ v.approved = n) :
    (runRules req s rules (v, c)).1.approved ≤ n ∧
    ((runRules req s rules (v, c)).1.reason = .OK ↔
      (runRules req s rules (v, c)).1.approved = n) := by
  induction rules generalizing v c with
  | nil => exact ⟨hle, hv⟩
  | cons r rules ih =>
    obtain ⟨hr, hrest⟩ := List.forall_mem_cons.mp hrules
    apply ih hrest
    · exact (v.count_approved_le r.1 _).trans hle
    · cases hfire : (r.2 req s c).1 with
      | none => exact hv
      | some out =>
        obtain ⟨m, code⟩ := out
        -- no rule answers with `OK`, so a smaller cap leaves another reason
        have hcode := (rule_fires hr hfire).1
        show (if m < v.approved then code else v.reason) = .OK ↔
          (if m < v.approved then m else v.approved) = n
        split
        · constructor
          · intro h; exact absurd h hcode
          · intro h; omega
        · exact hv

end

/-! ### Any order of the rules -/

variable {req : PacingRequest} {s : Snapshot} {ctx : SafetyContext fl}
  {rules : List (String × Rule fl)}

/-- The budget rule is one of the rules. -/
theorem budgetRule_mem : budgetRule fl ∈ RULES fl := by simp [RULES, budgetRule]

/-- What all firing rules allow. -/
theorem forall_caps_iff {x : ℤ} :
    (∀ c ∈ caps req s ctx, x ≤ c) ↔ ∀ r ∈ RULES fl, Bounds req s x ctx r := by
  unfold caps answers
  simp only [List.mem_filterMap, List.mem_map, Option.map_eq_some_iff, Prod.exists]
  constructor
  · intro h r hr n code hfire
    exact h n ⟨r.1, some (n, code), ⟨r.1, r.2, hr, by rw [hfire]⟩, n, code, rfl, rfl⟩
  · rintro h c ⟨name, out, ⟨name', f, hr, hout⟩, n, code, rfl, rfl⟩
    exact h (name', f) hr n code (congrArg Prod.snd hout)

/-- The loop in any order finds the minimum of the request and the caps. -/
theorem runRules_approved (hperm : rules.Perm (RULES fl)) :
    (runRules req s rules (⟨req.n, .OK, []⟩, ctx)).1.approved =
      (caps req s ctx).foldr min req.n := by
  have hmem (r : String × Rule fl) : r ∈ rules ↔ r ∈ RULES fl := hperm.mem_iff
  apply eq_of_forall_le_iff
  intro x
  -- a bound on the loop is a bound on every rule, each in a context of its own
  rw [le_foldr_min, forall_caps_iff]
  constructor
  · intro h
    obtain ⟨hn, hbounds⟩ := bounds_of_le_runRules (fun r hr => (hmem r).mp hr) (Or.inl rfl) h
    have hbudget : Bounds req s x ctx (budgetRule fl) := by
      obtain ⟨c, hc, hx⟩ := hbounds _ ((hmem _).mpr budgetRule_mem)
      intro n code hfire
      apply hx n code
      change (s5AbandonBudget req s ctx).1 = _ at hfire
      show (s5AbandonBudget req s c).1 = _
      rw [Reach.budget (Or.inl rfl)] at hfire
      rw [hc.budget]
      exact hfire
    refine ⟨hn, fun r hr => ?_⟩
    obtain ⟨c, hc, hx⟩ := hbounds r ((hmem r).mpr hr)
    -- in the context before the tick the rule answers no less
    exact bounds_transfer hr hc (Or.inl rfl) hx hbudget
  · rintro ⟨hn, hbounds⟩
    exact le_runRules (fun r hr => (hmem r).mp hr) (Or.inl rfl) hn hbounds

/-- The minimum over the caps is at most the request. -/
theorem foldr_caps_le : (caps req s ctx).foldr min req.n ≤ req.n := (le_foldr_min.mp le_rfl).1

/-- No rule caps a request below zero. -/
theorem foldr_caps_nonneg (hn : 0 ≤ req.n) : 0 ≤ (caps req s ctx).foldr min req.n := by
  rw [le_foldr_min, forall_caps_iff]
  exact ⟨hn, fun r hr n code hfire => (rule_fires hr hfire).2 hn⟩

/-- In any order, the rules approve the minimum of the request and their caps. -/
theorem evaluateBy_approved (hperm : rules.Perm (RULES fl)) :
    (evaluateBy rules req s ctx).1.approved = max 0 ((caps req s ctx).foldr min req.n) := by
  show max 0 (min (runRules req s rules (⟨req.n, .OK, []⟩, ctx)).1.approved req.n) = _
  rw [runRules_approved hperm, min_eq_left foldr_caps_le]

/-- In any order, the rules leave the same context behind. -/
theorem evaluateBy_ctx (hperm : rules.Perm (RULES fl)) :
    (evaluateBy rules req s ctx).2 = (ctx.afterRules s).tick :=
  congrArg SafetyContext.tick (runRules_ctx (fun _ hr => hperm.mem_iff.mp hr)
    (hperm.mem_iff.mpr budgetRule_mem) _)

/-- The reason is `OK` exactly when all that was asked for is approved. -/
theorem evaluate_reason (hn : 0 ≤ req.n) :
    (evaluate req s ctx).1.reason = .OK ↔ (evaluate req s ctx).1.approved = req.n := by
  have hreason : (runRules req s (RULES fl) (⟨req.n, .OK, []⟩, ctx)).1.reason = .OK ↔
      (runRules req s (RULES fl) (⟨req.n, .OK, []⟩, ctx)).1.approved = req.n :=
    (runRules_reason (fun _ hr => hr) le_rfl (iff_of_true rfl rfl)).2
  rw [← evaluateBy_RULES, evaluateBy_approved (List.Perm.refl _),
    max_eq_right (foldr_caps_nonneg hn), ← runRules_approved (List.Perm.refl _)]
  exact hreason

/-! ### What an approval implies -/

/-- An approval respects the caps of all rules. -/
theorem approved_bounds {a : ℤ} (ha : (evaluate req s ctx).1.approved = a) (hpos : 0 < a)
    {r : String × Rule fl} (hr : r ∈ RULES fl) : Bounds req s a ctx r := by
  rw [← evaluateBy_RULES, evaluateBy_approved (List.Perm.refl _)] at ha
  have hle : a ≤ (caps req s ctx).foldr min req.n := by omega
  exact forall_caps_iff.mp (le_foldr_min.mp hle).2 r hr

section

variable {a : ℤ} (ha : (evaluate req s ctx).1.approved = a) (hpos : 0 < a)
include ha hpos

/-- Rule S0: nothing is approved for a paused campaign. -/
theorem approved_active : s.campaign_active = true := by
  -- else the rule would have capped the approval at zero
  by_contra h
  have hcap := approved_bounds ha hpos (r := ("s0_campaign_active", .reading fun _ s _ =>
    s0CampaignActive s)) (by simp [RULES]) 0 .CAMPAIGN_PAUSED
      (by simp [Rule.reading, s0CampaignActive, h])
  omega

/-- Rule S1: nothing is approved without an available agent. -/
theorem approved_agents : 0 < s.agents_available := by
  by_contra h
  have hcap := approved_bounds ha hpos (r := ("s1_no_agents", .reading fun _ s _ => s1NoAgents s))
    (by simp [RULES]) 0 .NO_AGENTS (by simp [Rule.reading, s1NoAgents, not_lt.mp h])
  omega

/-- Rule S6: an approval and what is under way stay within the overdial ceiling. -/
theorem approved_ceiling :
    a + s.agent_bound_inflight + s.calls_ringing ≤ overdialCeiling ctx.limits s := by
  have hle : a ≤ req.n := by
    have := approved_le_request req s ctx
    omega
  -- the rule fires on the request, which is no smaller than the approval
  by_contra h
  have hcap := approved_bounds ha hpos (r := ("s6_overdial_cap", .reading s6OverdialCap))
    (by simp [RULES]) _ .OVERDIAL_CAP (if_pos (by omega))
  omega

/-- Rule S7: an approval and what is ringing stay within the hard cap. -/
theorem approved_hard_cap : a + s.calls_ringing ≤ ctx.limits.ringing_hard_cap := by
  have hle : a ≤ req.n := by
    have := approved_le_request req s ctx
    omega
  by_contra h
  have hcap := approved_bounds ha hpos (r := ("s7_ringing_hard_cap", .reading s7RingingHardCap))
    (by simp [RULES]) _ .RINGING_HARD_CAP (if_pos (by omega))
  omega

/-- Rules S2, S3 and S5: with too few samples, in a cooldown or on a breach, an approval is at most
    progressive. -/
theorem approved_progressive (h : s.stats.answer_samples < ctx.limits.min_samples_for_predictive ∨
    0 < ctx.cooldown_ticks_left ∨ Breach ctx.limits s) : a ≤ s.progressiveCap := by
  have hcap : a ≤ min req.n s.progressiveCap := by
    rcases h with hsamples | hcooldown | hbreach
    · exact approved_bounds ha hpos
        (r := ("s3_insufficient_samples", .reading s3InsufficientSamples)) (by simp [RULES]) _
        .INSUFFICIENT_SAMPLES (if_pos hsamples)
    · exact approved_bounds ha hpos (r := cooldownRule fl) (by simp [RULES, cooldownRule]) _
        .COOLDOWN_FORCED_PROGRESSIVE (if_pos hcooldown)
    · exact approved_bounds ha hpos budgetRule_mem _ .ABANDON_BUDGET_BREACH
        (congrArg Prod.fst (s5AbandonBudget_of_breach req hbreach))
  exact hcap.trans (min_le_right _ _)

end

/-- The decision is the minimum of the request and the caps, whatever the order of the rules; an
    approval meets the conditions of all rules together; and the batch that it starts calls the
    providers no more often than was approved. -/
theorem evaluate_decides (req : PacingRequest) (hn : 0 ≤ req.n) (s : Snapshot)
    (ctx : SafetyContext fl) :
    let d := (evaluate req s ctx).1
    d.approved = max 0 ((caps req s ctx).foldr min req.n) ∧
    (d.reason = .OK ↔ d.approved = req.n) ∧
    (∀ rules : List (String × Rule fl), rules.Perm (RULES fl) →
      (evaluateBy rules req s ctx).1.approved = d.approved ∧
      (evaluateBy rules req s ctx).2 = (evaluate req s ctx).2) ∧
    (0 < d.approved →
      s.campaign_active = true ∧ 0 < s.agents_available ∧
      d.approved + s.agent_bound_inflight + s.calls_ringing ≤ overdialCeiling ctx.limits s ∧
      d.approved + s.calls_ringing ≤ ctx.limits.ringing_hard_cap ∧
      (s.stats.answer_samples < ctx.limits.min_samples_for_predictive ∨
        0 < ctx.cooldown_ticks_left ∨ Breach ctx.limits s →
        d.approved ≤ max 0 (s.agents_available - s.agent_bound_inflight))) ∧
    ∀ cfg worker sys acts, ((run (Batch.step cfg worker req.campaign_id)
      (Batch.begin sys d.approved.toNat) acts).invoked.length : ℤ) ≤ d.approved := by
  intro d
  have happroved : d.approved = max 0 ((caps req s ctx).foldr min req.n) :=
    evaluateBy_approved (List.Perm.refl _)
  -- the parts in the order of the statement, each a result of its own
  refine ⟨happroved, evaluate_reason hn, fun rules hperm => ⟨?_, ?_⟩, fun hpos => ?_, ?_⟩
  · rw [evaluateBy_approved hperm, happroved]
  · rw [evaluateBy_ctx hperm, evaluate_ctx]
  · exact ⟨approved_active rfl hpos, approved_agents rfl hpos, approved_ceiling rfl hpos,
      approved_hard_cap rfl hpos, approved_progressive rfl hpos⟩
  · intro cfg worker sys acts
    have hle := Batch.invoked_le cfg worker req.campaign_id sys d.approved.toNat acts
    omega

/-- Twelve calls for ten free agents. -/
theorem evaluate_decides_twelve :
    let ctx : SafetyContext .exact := ⟨SafetyLimits.new .exact (.default .exact), 0⟩
    (evaluate ⟨7, 12⟩ (Snapshot.ofCounts 10 0 0 100 0) ctx).1.approved =
      max 0 ((caps ⟨7, 12⟩ (Snapshot.ofCounts 10 0 0 100 0) ctx).foldr min 12) :=
  (evaluate_decides ⟨7, 12⟩ (by decide) (Snapshot.ofCounts 10 0 0 100 0)
    ⟨SafetyLimits.new .exact (.default .exact), 0⟩).1

end SmartDialer
