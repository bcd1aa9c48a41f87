import SmartDialer.Domain.Models

namespace SmartDialer

/-!
# `pacing/progressive.py`

One call for one agent: the engine is a subtraction.
-/

/-- `ProgressivePacing.decide`. -/
def ProgressivePacing.decide (s : Snapshot) : PacingRequest :=
  ⟨s.campaign_id, max 0 (s.agents_available - s.agent_bound_inflight)⟩

end SmartDialer
