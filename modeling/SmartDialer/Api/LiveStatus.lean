import SmartDialer.Repo.Decisions
import SmartDialer.Lib.Counting

namespace SmartDialer

open Relational Numeric

/-!
# `live_status.py`

What the terminal view and the web dashboard show of a campaign: everything is read from the
database, and nothing is written.  The name and the mode of the campaign are left out, and so is
the list of campaigns.
-/

/-- The states the page shows a count for, also where the query returned no row for them. -/
def AGENT_STATES : List AgentState :=
  [.AVAILABLE, .RESERVED, .DIALING, .CONNECTED, .WRAP_UP, .PAUSED, .OFFLINE]

/-- The call states of the page, in its order. -/
def CALL_STATES : List CallState :=
  [.QUEUED, .RESERVED, .INITIATED, .RINGING, .ANSWERED, .CONNECTED, .COMPLETED, .FAILED, .CANCELLED,
    .ABANDONED]

/-- The borrower states of the page, in its order. -/
def BORROWER_STATES : List BorrowerState :=
  [.PENDING, .LOCKED, .IN_CALL, .DONE, .EXHAUSTED, .SUPPRESSED]

section

variable {κ : Type} [DecidableEq κ]

/-- `SELECT state, count(*) … GROUP BY state`: a row for each state that occurs. -/
def countByState (l : List κ) : List (κ × ℕ) := l.dedup.map fun s => (s, l.count s)

/-- `_counts`: the listed states in their order, with zero for those that do not occur. -/
def stateCounts (rows : List (κ × ℕ)) (states : List κ) : List (κ × ℕ) :=
  states.map fun s => (s, (rows.lookup s).getD 0)

/-- `counts[state]`. -/
def stateCount (counts : List (κ × ℕ)) (s : κ) : ℕ := (counts.lookup s).getD 0

/-- Looking up a state in a table of counts finds the count of that state, if the table lists it at
    all. -/
theorem lookup_map_self (g : κ → ℕ) (l : List κ) (s : κ) :
    (l.map fun s => (s, g s)).lookup s = if s ∈ l then some (g s) else none := by
  induction l with
  | nil => rfl
  | cons t l ih =>
    rw [List.map_cons, List.lookup_cons, ih]
    by_cases h : s = t
    · simp [h]
    · simp [beq_eq_false_iff_ne.mpr h, h]

/-- The counts of a `GROUP BY` are those of the listed states. -/
theorem stateCounts_countByState (l states : List κ) :
    stateCounts (countByState l) states = states.map fun s => (s, l.count s) := by
  unfold stateCounts countByState
  apply List.map_congr_left
  intro s _
  rw [lookup_map_self]
  split
  · rfl
  · rename_i h
    rw [List.count_eq_zero_of_not_mem (mt List.mem_dedup.mpr h)]
    rfl

/-- Lists that name each state once count every row once. -/
theorem sum_count {states : List κ} (hnd : states.Nodup) (l : List κ) (h : ∀ s ∈ l, s ∈ states) :
    (states.map fun s => l.count s).sum = l.length := by
  induction l with
  | nil => simp
  | cons a l ih =>
    have hadd : ∀ states : List κ, (states.map fun s => (a :: l).count s).sum
        = (states.map fun s => l.count s).sum + states.count a := by
      intro states
      induction states with
      | nil => rfl
      | cons s states ihs =>
        rw [List.map_cons, List.map_cons, List.sum_cons, List.sum_cons, ihs, List.count_cons,
          List.count_cons]
        simp only [beq_iff_eq, eq_comm (a := a)]
        omega
    rw [hadd, ih fun s hs => h s (by simp [hs]), List.count_eq_one_of_mem hnd (h a (by simp)),
      List.length_cons]

end

/-- A snapshot for the operators. -/
structure LiveSnapshot where
  campaign_id : ℕ
  /-- `is_active`, if there is such a campaign. -/
  campaign : Option Bool
  agents : List (AgentState × ℕ)
  calls : List (CallState × ℕ)
  borrowers : List (BorrowerState × ℕ)
  completed : ℕ
  failed : ℕ
  cancelled : ℕ
  abandoned : ℕ
  utilization : ℚ
  decisions : List (ℕ × DecisionRow)
  /-- The events with their ids; their calls are in `call_id`. -/
  events : List (ℕ × EventRow)

/-- The share of the agents that are busy, in percent. -/
def liveUtilization (fl : Rounding) (agents : List (AgentState × ℕ)) : ℚ :=
  let total_agents : ℤ := (agents.map Prod.snd).sum
  let busy := total_agents - stateCount agents .AVAILABLE - stateCount agents .OFFLINE
    - stateCount agents .PAUSED
  let staffed := total_agents - stateCount agents .OFFLINE
  if staffed ≠ 0 then fl (fl (busy / staffed) * 100) else 0

/-- The rows of `provider_events` with a call of the campaign, newest first. -/
def recentEvents (campaign_id limit : ℕ) (db : Db) : List (ℕ × EventRow) :=
  let rows := db.provider_events.select fun _ e =>
    (e.call_id.bind db.calls.get?).any fun c => c.campaign_id == campaign_id
  (rows.insertionSort fun x y => y.1 ≤ x.1).take limit

/-- `campaign_snapshot`. -/
def campaignSnapshot (fl : Rounding) (campaign_id recent_decisions recent_events : ℕ)
    (pacing_decisions : Table DecisionRow) (db : Db) : LiveSnapshot :=
  let agent_rows := db.agents.select fun _ a => a.campaign_id == campaign_id
  let call_rows := db.calls.select fun _ c => c.campaign_id == campaign_id
  let borrower_rows := db.borrowers.select fun _ b => b.campaign_id == campaign_id
  let agents := stateCounts (countByState (agent_rows.map (·.2.state))) AGENT_STATES
  { campaign_id := campaign_id
    campaign := (db.campaigns.get? campaign_id).map (·.is_active)
    agents := agents
    calls := stateCounts (countByState (call_rows.map (·.2.state))) CALL_STATES
    borrowers := stateCounts (countByState (borrower_rows.map (·.2.state))) BORROWER_STATES
    completed := call_rows.countP (·.2.state == .COMPLETED)
    failed := call_rows.countP (·.2.state == .FAILED)
    cancelled := call_rows.countP (·.2.state == .CANCELLED)
    abandoned := call_rows.countP (·.2.state == .ABANDONED)
    utilization := fl.digits 1 (liveUtilization fl agents)
    decisions := DecisionRepo.latest campaign_id recent_decisions pacing_decisions
    events := recentEvents campaign_id recent_events db }

end SmartDialer
