import SmartDialer.Repo.Agents
import SmartDialer.Repo.Borrowers
import SmartDialer.Repo.Calls

namespace SmartDialer

open Relational

/-!
# `worker/reaper.py`

One tick of the reaper is one transaction: it fails the orphaned calls, frees their agents
and reschedules their borrowers, and then sweeps the expired leases and locks.  The lease
sweeps compare against the caller's clock (`now_ts`), the sweep of the borrower locks
against Postgres' `now()`.
-/

/-- `_schedule_cancel`: the provider cancellation that is requested, if any. -/
def scheduleCancel (registry : Option (List String)) (provider_name : String)
    (provider_call_id : Option String) : Option (String × String) :=
  match registry, provider_call_id with
  | some names, some pcid =>
    if pcid ≠ "" ∧ provider_name ∈ names then some (provider_name, pcid) else none
  | _, _ => none

/-- What one round of the reaper did. -/
structure ReapResult where
  orphans_failed : ℕ
  agents_reclaimed : ℕ
  agents_wrapup_released : ℕ
  stale_borrower_locks : ℕ
  /-- The cancellations handed to the providers, which `reap` does not return. -/
  cancels : List (String × String)
  deriving DecidableEq, Repr

/-- What `reap` does for one orphaned call. -/
def releaseOrphan (now : Time) (o : ℕ × CallRow) : Tx PUnit := do
  match o.2.agent_id with
  | some agent_id =>
    let _ ← AgentRepo.release now agent_id
  | none => pure ⟨⟩
  BorrowerRepo.reschedule now o.2.borrower_id (secs 120)

/-- `reap`. -/
def reap (now now_ts : Time) (registry : Option (List String)) : Tx ReapResult := do
  let orphans ← failOrphanCalls now now_ts
  forM orphans (releaseOrphan now)
  let reclaimed ← reclaimAgents now now_ts
  let wrapped_up ← releaseWrapup now now_ts
  let stale_locks ← BorrowerRepo.reclaimExpiredLocks now
  return {
    orphans_failed := orphans.length
    agents_reclaimed := reclaimed.length
    agents_wrapup_released := wrapped_up.length
    stale_borrower_locks := stale_locks.length
    cancels := orphans.filterMap fun o =>
      scheduleCancel registry o.2.provider o.2.provider_call_id }

/-! ### Effects -/

/-- What `releaseOrphan` does to the view. -/
def View.releaseOrphan (now : Time) (v : View) (o : ℕ × CallRow) : View :=
  (v.setAgentOf o.2.agent_id (AgentRepo.forcedRow now .AVAILABLE none none none)).setBorrower
    o.2.borrower_id (BorrowerRepo.rescheduledRow now (secs 120))

/-- Releasing what an orphan held does not fail: the agent statement may match no row, and nothing
    depends on that. -/
theorem releaseOrphan_run (now : Time) (o : ℕ × CallRow) (db : Db) :
    ∃ db', (releaseOrphan now o).run db = .ok (⟨⟩, db') ∧
      db'.view = db.view.releaseOrphan now o := by
  unfold SmartDialer.releaseOrphan View.releaseOrphan
  cases o.2.agent_id with
  | none => exact ⟨_, rfl, rfl⟩
  | some agent_id => exact ⟨_, rfl, rfl⟩

/-- The three sweeps at the end of a tick. -/
def View.sweep (now now_ts : Time) (v : View) : View :=
  { v with
    agents := (v.agents.modify (fun _ a => isReclaimed now_ts a) (reclaimedRow now)).modify
      (fun _ a => isWrapupOver now_ts a) (wrapupReleasedRow now)
    borrowers := v.borrowers.modify (fun _ b => BorrowerRepo.isLockExpired now b)
      BorrowerRepo.unlockedRow }

/-- What `reap` does to the view. -/
def View.reap (now now_ts : Time) (v : View) : View :=
  let orphans := (v.calls.select fun _ c => isOrphan now_ts c).map fun e =>
    (e.1, orphanedRow now e.2)
  (orphans.foldl (View.releaseOrphan now)
    { v with
      calls := v.calls.modify (fun _ c => isOrphan now_ts c) (orphanedRow now)
      versions := v.versions ++ orphans }).sweep now now_ts

/-- A tick of the reaper cannot fail. -/
theorem reap_run (now now_ts : Time) (registry : Option (List String)) (db : Db) :
    ∃ res db', (reap now now_ts registry).run db = .ok (res, db') ∧
      db'.view = db.view.reap now now_ts := by
  obtain ⟨db₁, h₁, hv₁⟩ := failOrphanCalls_run now now_ts db
  obtain ⟨db₂, h₂, hv₂⟩ := Txn.forM_run Db.view (releaseOrphan_run now)
    ((db.calls.select fun _ c => isOrphan now_ts c).map fun e => (e.1, orphanedRow now e.2)) db₁
  unfold SmartDialer.reap
  rw [Txn.run_bind_of_ok h₁, Txn.run_bind_of_ok h₂]
  refine ⟨_, _, rfl, ?_⟩
  -- the loop goes over the rows that the first statement returned
  rw [View.reap, Db.view_calls]
  have hv : _ = List.foldl (View.releaseOrphan now) _ _ := hv₁ ▸ hv₂
  rw [Db.view_versions, ← hv]
  rfl

/-- The call itself was written when the orphan was selected. -/
@[simp] theorem View.releaseOrphan_calls (now : Time) (v : View) (o : ℕ × CallRow) :
    (v.releaseOrphan now o).calls = v.calls := by simp [View.releaseOrphan]

/-- No row image of a call is written for what it held. -/
@[simp] theorem View.releaseOrphan_versions (now : Time) (v : View) (o : ℕ × CallRow) :
    (v.releaseOrphan now o).versions = v.versions := by simp [View.releaseOrphan]

/-- The reaper does not look at the ledger. -/
@[simp] theorem View.releaseOrphan_provider_events (now : Time) (v : View) (o : ℕ × CallRow) :
    (v.releaseOrphan now o).provider_events = v.provider_events := by simp [View.releaseOrphan]

/-! ### One orphan at a time -/

/-- All that `reap` does for one orphaned call. -/
def View.failOrphan (now : Time) (v : View) (e : ℕ × CallRow) : View :=
  (v.setCall e.1 e.2 (orphanedRow now)).releaseOrphan now (e.1, orphanedRow now e.2)

/-- Releasing agents and borrowers commutes with writing the calls. -/
private theorem foldl_failOrphan_eq (now : Time) (l : List (ℕ × CallRow)) (v : View) :
    l.foldl (View.failOrphan now) v =
      (l.map fun e => (e.1, orphanedRow now e.2)).foldl (View.releaseOrphan now)
        { v with
          calls := l.foldl (fun t e => t.alter e.1 (orphanedRow now)) v.calls
          versions := v.versions ++ l.map fun e => (e.1, orphanedRow now e.2) } := by
  induction l generalizing v with
  | nil => simp
  | cons e l ih =>
    rw [List.foldl_cons, ih, List.map_cons, List.foldl_cons]
    congr 1
    unfold View.failOrphan View.releaseOrphan View.setCall
    simp only [orphanedRow]
    cases e.2.agent_id with
    | none => simp [View.setBorrower]
    | some agent_id => simp [View.setBorrower, View.setAgent]

/-- **`reap`, call by call.** The tick fails its orphans one after the other, and then sweeps. -/
theorem View.reap_eq (now now_ts : Time) (v : View) :
    v.reap now now_ts = ((v.calls.select fun _ c => isOrphan now_ts c).foldl
      (View.failOrphan now) v).sweep now now_ts := by
  rw [foldl_failOrphan_eq, Table.foldl_alter_select]
  rfl

/-- Failing an orphan writes its row, and the row of no other call. -/
@[simp] theorem View.failOrphan_calls (now : Time) (v : View) (e : ℕ × CallRow) :
    (v.failOrphan now e).calls = v.calls.alter e.1 (orphanedRow now) := by
  rw [View.failOrphan, View.releaseOrphan_calls, View.setCall_calls]

/-- Rows with distinct keys that are still current when their turn comes, one after the other. -/
private theorem foldl_failOrphan_of_rows {now : Time} {Q : ℕ × CallRow → Prop} {I : View → Prop}
    (hstep : ∀ v e, I v → v.calls.get? e.1 = some e.2 → Q e → I (v.failOrphan now e))
    (l : List (ℕ × CallRow)) (v : View) (hnd : (l.map Prod.fst).Nodup)
    (hrows : ∀ e ∈ l, v.calls.get? e.1 = some e.2 ∧ Q e) (hv : I v) :
    I (l.foldl (View.failOrphan now) v) := by
  induction l generalizing v with
  | nil => exact hv
  | cons e l ih =>
    rw [List.map_cons, List.nodup_cons] at hnd
    obtain ⟨hr, ho⟩ := hrows e (by simp)
    refine ih _ hnd.2 (fun e' he' => ?_) (hstep v e hv hr ho)
    obtain ⟨hr', ho'⟩ := hrows e' (by simp [he'])
    -- failing `e` leaves the rows under the other keys alone
    have hne : ¬ e'.1 = e.1 := fun h => hnd.1 (List.mem_map.mpr ⟨e', he', h⟩)
    exact ⟨by rw [View.failOrphan_calls, Table.get?_alter, if_neg hne, hr'], ho'⟩

/-- What failing one orphan keeps, failing all of them keeps: each has the row it was selected
    with when its turn comes. -/
theorem View.foldl_failOrphan_induction (now now_ts : Time) {I : View → Prop} {v : View}
    (hstep : ∀ v' e, I v' → v'.calls.get? e.1 = some e.2 → v.calls.get? e.1 = some e.2 →
      isOrphan now_ts e.2 = true → I (v'.failOrphan now e)) (hv : I v) :
    I ((v.calls.select fun _ c => isOrphan now_ts c).foldl (View.failOrphan now) v) := by
  refine foldl_failOrphan_of_rows
    (Q := fun e => v.calls.get? e.1 = some e.2 ∧ isOrphan now_ts e.2 = true)
    (fun v' e hI hr hQ => hstep v' e hI hr hQ.1 hQ.2) _ v (Table.select_nodup _ _) ?_ hv
  intro e he
  obtain ⟨hr, ho⟩ := Table.mem_select.mp he
  exact ⟨hr, hr, ho⟩

/-- The calls after all orphans have been failed. -/
theorem View.foldl_failOrphan_calls (now now_ts : Time) (v : View) :
    ((v.calls.select fun _ c => isOrphan now_ts c).foldl (View.failOrphan now) v).calls
      = v.calls.modify (fun _ c => isOrphan now_ts c) (orphanedRow now) := by
  rw [← Table.foldl_alter_select]
  generalize v.calls.select (fun _ c => isOrphan now_ts c) = l
  induction l generalizing v with
  | nil => rfl
  | cons e l ih => rw [List.foldl_cons, List.foldl_cons, ih, View.failOrphan_calls]

/-! ### Agents and borrowers -/

/-- What the lease sweeps make of an agent. -/
def sweptAgent (now now_ts : Time) (a : AgentRow) : AgentRow :=
  let a₁ := if isReclaimed now_ts a then reclaimedRow now a else a
  if isWrapupOver now_ts a₁ then wrapupReleasedRow now a₁ else a₁

/-- The agents after one orphan. -/
theorem View.failOrphan_agents (now : Time) (v : View) (e : ℕ × CallRow) :
    (v.failOrphan now e).agents = v.agents.map fun i a =>
      if e.2.agent_id = some i then AgentRepo.forcedRow now .AVAILABLE none none none a else a := by
  unfold View.failOrphan View.releaseOrphan
  rw [View.setBorrower_agents]
  simp only [orphanedRow]
  cases hagent : e.2.agent_id with
  | none => simp [View.setCall]
  | some j =>
    rw [View.setAgentOf_some, View.setAgent_agents, View.setCall_agents, Table.alter,
      Table.modify_eq_map]
    apply Table.map_congr
    intro i a _
    simp only [beq_iff_eq, Option.some.injEq, @eq_comm _ j i]

/-- Failing an orphan puts off its borrower by two minutes. -/
theorem View.failOrphan_borrowers (now : Time) (v : View) (e : ℕ × CallRow) :
    (v.failOrphan now e).borrowers = v.borrowers.map fun k b =>
      if e.2.borrower_id = k then BorrowerRepo.rescheduledRow now (secs 120) b else b := by
  unfold View.failOrphan View.releaseOrphan
  rw [View.setBorrower_borrowers, View.setAgentOf_borrowers, View.setCall_borrowers, Table.alter,
    Table.modify_eq_map]
  apply Table.map_congr
  intro k b _
  simp only [beq_iff_eq, orphanedRow, @eq_comm _ _ k]

/-- The agents after all orphans: each is released for every orphan of its own. -/
theorem View.foldl_failOrphan_agents (now : Time) (l : List (ℕ × CallRow)) (v : View) :
    (l.foldl (View.failOrphan now) v).agents = v.agents.map fun i a =>
      l.foldl (fun a e => if e.2.agent_id = some i
        then AgentRepo.forcedRow now .AVAILABLE none none none a else a) a := by
  induction l generalizing v with
  | nil => exact (Table.map_self _).symm
  | cons e l ih =>
    rw [List.foldl_cons, ih, View.failOrphan_agents, Table.map_map]
    rfl

/-- Over all orphans, a borrower is put off once for each of its orphaned calls. -/
theorem View.foldl_failOrphan_borrowers (now : Time) (l : List (ℕ × CallRow)) (v : View) :
    (l.foldl (View.failOrphan now) v).borrowers = v.borrowers.map fun k b =>
      l.foldl (fun b e =>
        if e.2.borrower_id = k then BorrowerRepo.rescheduledRow now (secs 120) b else b) b := by
  induction l generalizing v with
  | nil => exact (Table.map_self _).symm
  | cons e l ih =>
    rw [List.foldl_cons, ih, View.failOrphan_borrowers, Table.map_map]
    rfl

/-- The rest of the reaper treats every agent by its own row alone. -/
theorem View.sweep_agents (now now_ts : Time) (v : View) :
    (v.sweep now now_ts).agents = v.agents.map fun _ => sweptAgent now now_ts := by
  rw [View.sweep, Table.modify_eq_map, Table.modify_eq_map, Table.map_map]
  rfl

/-- The rest of the reaper unlocks the borrowers whose lock has run out, and leaves the others. -/
theorem View.sweep_borrowers (now now_ts : Time) (v : View) :
    (v.sweep now now_ts).borrowers = v.borrowers.map fun _ b =>
      if BorrowerRepo.isLockExpired now b then BorrowerRepo.unlockedRow b else b := rfl

/-- The agents after a tick of the reaper. -/
theorem reap_agents (now now_ts : Time) (registry : Option (List String)) (db : Db) :
    ((reap now now_ts registry).commit db).agents = db.agents.map fun i a =>
      sweptAgent now now_ts ((db.calls.select fun _ c => isOrphan now_ts c).foldl (fun a e =>
        if e.2.agent_id = some i then AgentRepo.forcedRow now .AVAILABLE none none none a else a)
          a) := by
  obtain ⟨res, db', hrun, hv⟩ := reap_run now now_ts registry db
  rw [(Txn.commit_of_run hrun).1, ← Db.view_agents db', hv, View.reap_eq, View.sweep_agents,
    View.foldl_failOrphan_agents, Table.map_map]
  rfl

/-- The borrowers after a tick of the reaper. -/
theorem reap_borrowers (now now_ts : Time) (registry : Option (List String)) (db : Db) :
    ((reap now now_ts registry).commit db).borrowers = db.borrowers.map fun k b =>
      let b₁ := (db.calls.select fun _ c => isOrphan now_ts c).foldl (fun b e =>
        if e.2.borrower_id = k then BorrowerRepo.rescheduledRow now (secs 120) b else b) b
      if BorrowerRepo.isLockExpired now b₁ then BorrowerRepo.unlockedRow b₁ else b₁ := by
  obtain ⟨res, db', hrun, hv⟩ := reap_run now now_ts registry db
  rw [(Txn.commit_of_run hrun).1, ← Db.view_borrowers db', hv, View.reap_eq, View.sweep_borrowers,
    View.foldl_failOrphan_borrowers, Table.map_map]
  rfl

end SmartDialer
