import SmartDialer.Domain.Models

namespace SmartDialer

open Relational

/-!
# `repo/decisions.py`

The audit trail of the safety controller: one row for each decision, written in a transaction of its
own before anything is allocated.  `inputs` is kept as the values that it is made of; the rationale
of the request is left out.
-/

/-- A row of `pacing_decisions`. -/
structure DecisionRow where
  campaign_id : ℕ
  tick_at : Time
  sim_tick : Option ℕ
  mode : String
  requested : ℤ
  approved : ℤ
  reason_code : ReasonCode
  rules_applied : List AppliedRule
  snapshot : Snapshot

namespace DecisionRepo

/-- `INSERT`. -/
def record (campaign_id : ℕ) (ts : Time) (decision : SafetyDecision) (snapshot : Snapshot)
    (mode : String) (sim_tick : Option ℕ) (decisions : Table DecisionRow) : Table DecisionRow :=
  decisions.push
    { campaign_id := campaign_id
      tick_at := ts
      sim_tick := sim_tick
      mode := mode
      requested := decision.requested
      approved := decision.approved
      reason_code := decision.reason
      rules_applied := decision.rules_applied
      snapshot := snapshot }

/-- `latest`: the newest decisions of the campaign first. -/
def latest (campaign_id limit : ℕ) (decisions : Table DecisionRow) : List (ℕ × DecisionRow) :=
  let rows := decisions.select fun _ d => d.campaign_id == campaign_id
  (rows.insertionSort fun x y => y.1 ≤ x.1).take limit

/-- The decision that was recorded last is the latest one. -/
theorem latest_record (campaign_id : ℕ) (ts : Time) (decision : SafetyDecision)
    (snapshot : Snapshot) (mode : String) (sim_tick : Option ℕ) (decisions : Table DecisionRow) :
    latest campaign_id 1 (record campaign_id ts decision snapshot mode sim_tick decisions)
      = [(decisions.nextId, ⟨campaign_id, ts, sim_tick, mode, decision.requested,
          decision.approved, decision.reason, decision.rules_applied, snapshot⟩)] := by
  unfold latest record
  generalize hrow : DecisionRow.mk campaign_id ts sim_tick mode decision.requested
    decision.approved decision.reason decision.rules_applied snapshot = row
  have hcamp : row.campaign_id = campaign_id := by rw [← hrow]
  simp only
  generalize hsort : ((decisions.push row).select fun _ d =>
    d.campaign_id == campaign_id).insertionSort (fun x y => y.1 ≤ x.1) = rows
  have hmem : ∀ e, e ∈ rows ↔ (decisions.push row).get? e.1 = some e.2 ∧
      e.2.campaign_id = campaign_id := by
    intro e
    rw [← hsort, List.mem_insertionSort, Table.mem_select, beq_iff_eq]
  have hsorted : rows.Pairwise fun x y => y.1 ≤ x.1 := by
    rw [← hsort]
    exact List.pairwise_insertionSort _ _
  have hnew : (decisions.nextId, row) ∈ rows := (hmem _).mpr ⟨by simp, hcamp⟩
  -- the head has the highest id, and that is the new one
  cases rows with
  | nil => cases hnew
  | cons e rest =>
    have hle : decisions.nextId ≤ e.1 := by
      rcases List.mem_cons.mp hnew with rfl | hrest
      · exact le_rfl
      · exact (List.pairwise_cons.mp hsorted).1 _ hrest
    obtain ⟨he, _⟩ := (hmem e).mp List.mem_cons_self
    rcases Table.cases_of_get?_push he with ⟨hk, hr⟩ | hold
    · rw [List.take_succ_cons, List.take_zero, ← hk, ← hr]
    · have := Table.lt_nextId (List.mem_map.mpr ⟨_, Table.mem_rows.mpr hold, rfl⟩)
      omega

end DecisionRepo

end SmartDialer
