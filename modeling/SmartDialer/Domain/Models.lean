import SmartDialer.Repo.Metrics
import SmartDialer.Lib.Rounding

namespace SmartDialer

open Numeric

/-!
# `domain/models.py`

What a pacing tick looks at, asks for and is allowed: the snapshot with its statistics and the
health of the providers, the request of the engine, and the decision of the safety controller.
The rationale of a request is only logged and is left out.
-/

/-- The part of a `MetricsSnapshot` that `_resolved_stats` computes. -/
structure Stats where
  answer_rate_lb : ℚ
  answer_rate_ub : ℚ
  answer_rate_point : ℚ
  answer_samples : ℤ
  avg_setup_s : ℚ
  avg_talk_s : ℚ
  abandon_rate_5m : ℚ
  deriving DecidableEq, Repr

/-- The statistics of a campaign without resolved calls. -/
def Stats.unknown (fl : Rounding) : Stats := ⟨fl (5 / 100), 1, 0, 0, 3, 90, 0⟩

/-- A complete `MetricsSnapshot`. -/
structure Snapshot extends MetricsSnapshot Stats where
  provider_health : List (String × ℚ)

namespace Snapshot

/-- The agents that a call is being placed for: reserved ones and dialing ones. -/
def agent_bound_inflight (s : Snapshot) : ℤ := s.agents_reserved + s.agents_dialing

/-- All logged-in agents. -/
def agents_staffed (s : Snapshot) : ℤ :=
  s.agents_available + s.agents_reserved + s.agents_dialing + s.agents_connected + s.agents_wrapup

/-- `replace(snapshot, provider_health=…)`. -/
def withHealth (s : Snapshot) (provider_health : List (String × ℚ)) : Snapshot :=
  { s with provider_health := provider_health }

/-- The fields that count rows are no negative numbers. -/
structure Counted (s : Snapshot) : Prop where
  available : 0 ≤ s.agents_available
  reserved : 0 ≤ s.agents_reserved
  dialing : 0 ≤ s.agents_dialing
  connected : 0 ≤ s.agents_connected
  wrapup : 0 ≤ s.agents_wrapup
  ringing : 0 ≤ s.calls_ringing

/-- The snapshot of an active campaign, from what the safety rules look at. -/
def ofCounts (available dialing ringing samples : ℤ) (abandon_rate : ℚ) : Snapshot where
  campaign_id := 7
  ts := 0
  agents_available := available
  agents_reserved := 0
  agents_dialing := dialing
  agents_connected := 0
  agents_wrapup := 0
  calls_ringing := ringing
  calls_connected := 0
  campaign_active := true
  stats := ⟨3 / 10, 1 / 2, 2 / 5, samples, 3, 90, abandon_rate⟩
  provider_health := []

/-- `max(0, agents_available - agent_bound_inflight)`, the fallback of three safety rules. -/
def progressiveCap (s : Snapshot) : ℤ := max 0 (s.agents_available - s.agent_bound_inflight)

end Snapshot

/-- `MetricsRepo.snapshot`; the pacing loop adds the health of the providers. -/
def MetricsRepo.snapshot (resolvedStats : ℕ → Db → Stats) (campaign_id : ℕ) (clock_now : Time)
    (fast : Bool) (db : Db) : Snapshot where
  toMetricsSnapshot :=
    if fast then snapshotFast resolvedStats campaign_id clock_now db
    else snapshotNaive resolvedStats campaign_id clock_now db
  provider_health := []

/-- The reasons that a decision can have. -/
inductive ReasonCode where
  | OK | NO_AGENTS | OVERDIAL_CAP | ABANDON_BUDGET_BREACH | PROVIDER_DEGRADED
  | INSUFFICIENT_SAMPLES | RINGING_HARD_CAP | COOLDOWN_FORCED_PROGRESSIVE | CAMPAIGN_PAUSED
  deriving DecidableEq, Repr

/-- A pure value: it carries no capability to act. -/
structure PacingRequest where
  campaign_id : ℕ
  n : ℤ
  deriving DecidableEq, Repr

/-- An entry of `rules_applied`. -/
structure AppliedRule where
  rule : String
  cap : ℤ
  reason : ReasonCode
  deriving DecidableEq, Repr

/-- What `evaluate` returns: how many calls may be placed, why no more than that, and every rule
    that had something to say. -/
structure SafetyDecision where
  approved : ℤ
  reason : ReasonCode
  requested : ℤ
  rules_applied : List AppliedRule
  deriving DecidableEq, Repr

end SmartDialer
