import SmartDialer.Repo.Db

namespace SmartDialer

open Relational

/-!
# `repo/metrics.py`

The two ways to read a campaign's snapshot: `snapshotNaive` counts the rows of `agents` and
`calls`, `snapshotFast` reads the one row that the triggers maintain.  The statistics of the
resolved calls are read by the same statement in both and enter as a parameter.
-/

/-- `MetricsSnapshot`, with the statistics of `_resolved_stats` as one component. -/
structure MetricsSnapshot (σ : Type) where
  campaign_id : ℕ
  ts : Time
  agents_available : ℤ
  agents_reserved : ℤ
  agents_dialing : ℤ
  agents_connected : ℤ
  agents_wrapup : ℤ
  calls_ringing : ℤ
  calls_connected : ℤ
  campaign_active : Bool
  stats : σ

namespace MetricsRepo

variable {σ : Type}

/-- `AGENT_COUNTS_NAIVE`: one row for each state that an agent of the campaign is in. -/
def agentCountsNaive (campaign_id : ℕ) (db : Db) : List (AgentState × ℕ) :=
  let rows := db.agents.select fun _ a => a.campaign_id == campaign_id
  ((rows.map fun e => e.2.state).dedup).map fun s => (s, rows.countP fun e => e.2.state == s)

/-- `counts.get(state, 0)` on the rows of `AGENT_COUNTS_NAIVE`. -/
def countOf (rows : List (AgentState × ℕ)) (s : AgentState) : ℕ := (rows.lookup s).getD 0

/-- `CALL_COUNTS_NAIVE`: the ringing and the connected calls of the campaign. -/
def callCountsNaive (campaign_id : ℕ) (db : Db) : ℕ × ℕ :=
  let rows := db.calls.select fun _ c => c.campaign_id == campaign_id
  (rows.countP fun e => e.2.state.isRinging, rows.countP fun e => e.2.state == .CONNECTED)

/-- `SELECT is_active`; a missing campaign is not active. -/
def campaignActive (campaign_id : ℕ) (db : Db) : Bool :=
  match db.campaigns.get? campaign_id with
  | some c => c.is_active
  | none => false

/-- `snapshot_naive`: every number is counted from the rows, without the counters. -/
def snapshotNaive (resolvedStats : ℕ → Db → σ) (campaign_id : ℕ) (clock_now : Time) (db : Db) :
    MetricsSnapshot σ :=
  let counts := agentCountsNaive campaign_id db
  let call_row := callCountsNaive campaign_id db
  { campaign_id := campaign_id
    ts := clock_now
    agents_available := countOf counts .AVAILABLE
    agents_reserved := countOf counts .RESERVED
    agents_dialing := countOf counts .DIALING
    agents_connected := countOf counts .CONNECTED
    agents_wrapup := countOf counts .WRAP_UP
    calls_ringing := call_row.1
    calls_connected := call_row.2
    campaign_active := campaignActive campaign_id db
    stats := resolvedStats campaign_id db }

/-- `snapshot_fast`: a campaign without a counters row reads as all zeros. -/
def snapshotFast (resolvedStats : ℕ → Db → σ) (campaign_id : ℕ) (clock_now : Time) (db : Db) :
    MetricsSnapshot σ :=
  let counts := (db.campaign_counters.get? campaign_id).getD ⟨0, 0, 0, 0, 0, 0, 0, 0⟩
  { campaign_id := campaign_id
    ts := clock_now
    agents_available := counts.agents_available
    agents_reserved := counts.agents_reserved
    agents_dialing := counts.agents_dialing
    agents_connected := counts.agents_connected
    agents_wrapup := counts.agents_wrapup
    calls_ringing := counts.calls_ringing
    calls_connected := counts.calls_connected
    campaign_active := campaignActive campaign_id db
    stats := resolvedStats campaign_id db }

end MetricsRepo

end SmartDialer
