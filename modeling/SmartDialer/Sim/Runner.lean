import SmartDialer.Domain.Models
import SmartDialer.Lib.Counting

namespace SmartDialer

open Relational Numeric

/-!
# `sim/runner.py`

What a simulation writes down after each tick: `_row` has the snapshot and the decision of the tick,
and the totals of the campaign so far (`CUM_QUERY`).  The loop around it is the one of the worker.
-/

variable (fl : Rounding)

/-- A row of `CUM_QUERY`. -/
structure Cumulative where
  initiated_cum : ℕ
  connected_cum : ℕ
  abandoned_cum : ℕ
  deriving DecidableEq, Repr

/-- `CUM_QUERY`: the calls of the campaign that were dialed, completed and abandoned. -/
def cumQuery (campaign_id : ℕ) (db : Db) : Cumulative :=
  let rows := db.calls.select fun _ c => c.campaign_id == campaign_id
  { initiated_cum := rows.countP fun e => e.2.initiated_at.isSome
    connected_cum := rows.countP fun e => e.2.state == .COMPLETED
    abandoned_cum := rows.countP fun e => e.2.state == .ABANDONED }

/-- `health.get(name, 0.0)`. -/
def healthOf (health : List (String × ℚ)) (name : String) : ℚ := (health.lookup name).getD 0

/-- A row of the CSV file; `CSV_COLUMNS`. -/
structure SimRow where
  tick : ℕ
  sim_time : ℚ
  agents_available : ℤ
  agents_reserved : ℤ
  agents_dialing : ℤ
  agents_connected : ℤ
  agents_wrapup : ℤ
  utilization : ℚ
  calls_initiated_cum : ℕ
  calls_connected_cum : ℕ
  calls_abandoned_cum : ℕ
  ringing : ℤ
  p_answer_point : ℚ
  p_answer_lb : ℚ
  samples : ℤ
  requested : ℤ
  approved : ℤ
  reason_code : ReasonCode
  abandon_rate_5m : ℚ
  provider_a_health : ℚ
  provider_b_health : ℚ
  deriving DecidableEq, Repr

/-- `busy / total`, or zero when nobody is there. -/
def simUtilization (snapshot : Snapshot) : ℚ :=
  let total := snapshot.agents_available + snapshot.agents_reserved + snapshot.agents_dialing
    + snapshot.agents_connected + snapshot.agents_wrapup
  let busy := total - snapshot.agents_available
  if total ≠ 0 then fl (busy / total) else 0

/-- `_row`. -/
def simRow (db : Db) (campaign_id tick_i : ℕ) (sim_time : ℚ) (snapshot : Snapshot)
    (decision : SafetyDecision) : SimRow :=
  let cum := cumQuery campaign_id db
  let health := snapshot.provider_health
  { tick := tick_i
    sim_time := fl.digits 3 sim_time
    agents_available := snapshot.agents_available
    agents_reserved := snapshot.agents_reserved
    agents_dialing := snapshot.agents_dialing
    agents_connected := snapshot.agents_connected
    agents_wrapup := snapshot.agents_wrapup
    utilization := fl.digits 4 (simUtilization fl snapshot)
    calls_initiated_cum := cum.initiated_cum
    calls_connected_cum := cum.connected_cum
    calls_abandoned_cum := cum.abandoned_cum
    ringing := snapshot.calls_ringing
    p_answer_point := fl.digits 4 snapshot.stats.answer_rate_point
    p_answer_lb := fl.digits 4 snapshot.stats.answer_rate_lb
    samples := snapshot.stats.answer_samples
    requested := decision.requested
    approved := decision.approved
    reason_code := decision.reason
    abandon_rate_5m := fl.digits 4 snapshot.stats.abandon_rate_5m
    provider_a_health := fl.digits 3 (healthOf health "mock_a")
    provider_b_health := fl.digits 3 (healthOf health "mock_b") }

/-! ### Readings -/

section

variable (campaign_id : ℕ) (db : Db)

/-- The first column of `CUM_QUERY`: the calls that were ever placed. -/
theorem cumQuery_initiated : (cumQuery campaign_id db).initiated_cum
    = db.calls.count fun _ c => c.campaign_id == campaign_id && c.initiated_at.isSome :=
  Table.countP_select db.calls (fun _ c => c.campaign_id == campaign_id)
    fun _ c => c.initiated_at.isSome

/-- The second column, named after connected calls, counts the completed ones. -/
theorem cumQuery_connected : (cumQuery campaign_id db).connected_cum
    = db.calls.count fun _ c => c.campaign_id == campaign_id && c.state == .COMPLETED :=
  Table.countP_select db.calls (fun _ c => c.campaign_id == campaign_id)
    fun _ c => c.state == .COMPLETED

/-- The third column: the calls that were answered with nobody to talk to. -/
theorem cumQuery_abandoned : (cumQuery campaign_id db).abandoned_cum
    = db.calls.count fun _ c => c.campaign_id == campaign_id && c.state == .ABANDONED :=
  Table.countP_select db.calls (fun _ c => c.campaign_id == campaign_id)
    fun _ c => c.state == .ABANDONED

end

end SmartDialer
