import SmartDialer.Config
import SmartDialer.Domain.Models

namespace SmartDialer

open Numeric

/-!
# `safety/rules.py`

The eight rules of the safety controller.  A rule answers with a cap and a reason, or not at all;
`s5_abandon_budget` is the only one that also writes to the context, which the controller keeps
from tick to tick.
-/

/-- `SafetyContext` of `safety/controller.py`. -/
structure SafetyContext (fl : Rounding) where
  limits : SafetyLimits fl
  cooldown_ticks_left : ℤ

namespace SafetyContext

variable {fl : Rounding}

/-- `trip_cooldown`: the ticks to come are progressive. -/
def tripCooldown (ctx : SafetyContext fl) : SafetyContext fl :=
  { ctx with cooldown_ticks_left := ctx.limits.cooldown_ticks_after_breach }

/-- `tick`: one tick of the cooldown is over. -/
def tick (ctx : SafetyContext fl) : SafetyContext fl :=
  if ctx.cooldown_ticks_left > 0 then
    { ctx with cooldown_ticks_left := ctx.cooldown_ticks_left - 1 }
  else ctx

/-- Tripping the cooldown is the one change a rule makes, and it leaves the limits alone. -/
@[simp] theorem tripCooldown_limits (ctx : SafetyContext fl) :
    ctx.tripCooldown.limits = ctx.limits := rfl

/-- The limits do not change from tick to tick. -/
@[simp] theorem tick_limits (ctx : SafetyContext fl) : ctx.tick.limits = ctx.limits := by
  unfold tick; split <;> rfl

end SafetyContext

variable {fl : Rounding}

/-- The answer of a rule: a cap with its reason. -/
abbrev Cap := Option (ℤ × ReasonCode)

/-- `s0_campaign_active`: nothing while the campaign is paused. -/
def s0CampaignActive (s : Snapshot) : Cap :=
  if s.campaign_active then none else some (0, .CAMPAIGN_PAUSED)

/-- `s1_no_agents`: nothing without an available agent. -/
def s1NoAgents (s : Snapshot) : Cap :=
  if s.agents_available ≤ 0 then some (0, .NO_AGENTS) else none

/-- `s2_cooldown`: one call per free agent while a breach cools down. -/
def s2Cooldown (req : PacingRequest) (s : Snapshot) (ctx : SafetyContext fl) : Cap :=
  if ctx.cooldown_ticks_left > 0 then
    some (min req.n s.progressiveCap, .COOLDOWN_FORCED_PROGRESSIVE)
  else none

/-- `s3_insufficient_samples`: one call per free agent until the answer rate rests on enough
    samples. -/
def s3InsufficientSamples (req : PacingRequest) (s : Snapshot) (ctx : SafetyContext fl) : Cap :=
  if s.stats.answer_samples < ctx.limits.min_samples_for_predictive then
    some (min req.n s.progressiveCap, .INSUFFICIENT_SAMPLES)
  else none

/-- `max(s.provider_health.values(), default=1.0)`. -/
def bestHealth (provider_health : List (String × ℚ)) : ℚ :=
  (provider_health.map Prod.snd).max?.getD 1

/-- `s4_provider_health`: nothing with the best provider down, and a share of the request with it
    degraded. -/
def s4ProviderHealth (fl : Rounding) (req : PacingRequest) (s : Snapshot) : Cap :=
  let best := bestHealth s.provider_health
  if best ≤ 0 then some (0, .PROVIDER_DEGRADED)
  else if best < fl (6 / 10) then
    some (min req.n (truncate (fl.mulInt req.n best)), .PROVIDER_DEGRADED)
  else none

/-- Is the abandon budget breached? -/
def Breach (limits : SafetyLimits fl) (s : Snapshot) : Prop :=
  s.stats.abandon_rate_5m > limits.max_abandon_rate

/-- A breach is one comparison of two numbers. -/
instance (limits : SafetyLimits fl) (s : Snapshot) : Decidable (Breach limits s) :=
  inferInstanceAs (Decidable (_ > _))

/-- `s5_abandon_budget`: too many abandoned calls force the progressive cap, here and in the ticks
    to come. -/
def s5AbandonBudget (req : PacingRequest) (s : Snapshot) (ctx : SafetyContext fl) :
    Cap × SafetyContext fl :=
  if Breach ctx.limits s then
    (some (min req.n s.progressiveCap, .ABANDON_BUDGET_BREACH), ctx.tripCooldown)
  else (none, ctx)

/-- The rule on a breach: it answers, and the cooldown is tripped. -/
theorem s5AbandonBudget_of_breach (req : PacingRequest) {s : Snapshot} {ctx : SafetyContext fl}
    (h : Breach ctx.limits s) : s5AbandonBudget req s ctx =
      (some (min req.n s.progressiveCap, .ABANDON_BUDGET_BREACH), ctx.tripCooldown) := if_pos h

/-- The rule within the budget: it has nothing to say and changes nothing. -/
theorem s5AbandonBudget_of_not_breach (req : PacingRequest) {s : Snapshot}
    {ctx : SafetyContext fl} (h : ¬ Breach ctx.limits s) : s5AbandonBudget req s ctx =
      (none, ctx) := if_neg h

/-- `int(agents_staffed * max_overdial_ratio)`. -/
def overdialCeiling (limits : SafetyLimits fl) (s : Snapshot) : ℤ :=
  truncate (fl.mulInt s.agents_staffed limits.max_overdial_ratio)

/-- `s6_overdial_cap`: no more calls under way than the staffed agents allow, where those already
    bound to an agent or ringing count. -/
def s6OverdialCap (req : PacingRequest) (s : Snapshot) (ctx : SafetyContext fl) : Cap :=
  let allowed := max 0 (overdialCeiling ctx.limits s - s.agent_bound_inflight - s.calls_ringing)
  if req.n > allowed then some (allowed, .OVERDIAL_CAP) else none

/-- `s7_ringing_hard_cap`: no more ringing calls than the absolute limit. -/
def s7RingingHardCap (req : PacingRequest) (s : Snapshot) (ctx : SafetyContext fl) : Cap :=
  let allowed := max 0 (ctx.limits.ringing_hard_cap - s.calls_ringing)
  if req.n > allowed then some (allowed, .RINGING_HARD_CAP) else none

/-- A rule: its answer and the context it leaves. -/
abbrev Rule (fl : Rounding) :=
  PacingRequest → Snapshot → SafetyContext fl → Cap × SafetyContext fl

/-- A rule that only reads. -/
def Rule.reading (f : PacingRequest → Snapshot → SafetyContext fl → Cap) : Rule fl :=
  fun req s ctx => (f req s ctx, ctx)

/-- `RULES`, with the names under which the controller records them. -/
def RULES (fl : Rounding) : List (String × Rule fl) :=
  [("s0_campaign_active", .reading fun _ s _ => s0CampaignActive s),
    ("s1_no_agents", .reading fun _ s _ => s1NoAgents s),
    ("s2_cooldown", .reading s2Cooldown),
    ("s3_insufficient_samples", .reading s3InsufficientSamples),
    ("s4_provider_health", .reading fun req s _ => s4ProviderHealth fl req s),
    ("s5_abandon_budget", s5AbandonBudget),
    ("s6_overdial_cap", .reading s6OverdialCap),
    ("s7_ringing_hard_cap", .reading s7RingingHardCap)]

end SmartDialer
