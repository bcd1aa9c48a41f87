import SmartDialer.Correctness.EventEffects

namespace SmartDialer

open Relational

/-!
# Writes to the event ledger

A ledger row is written by three statements: it is inserted once, marked by the drain that holds
its lock, and given up while it is unapplied.  `LedgerStep` lists what an action does to the
ledger, the open drains and the log, and `step_ledger` shows that the list is complete.
-/

/-- What an action may do to the ledger, the drains and the log. -/
inductive LedgerStep (cfg : Settings) (s s' : Sys) : Prop where
  /-- Ledger, drains and log are left alone. -/
  | quiet (he : s'.db.provider_events = s.db.provider_events) (hd : s'.drains = s.drains)
      (hl : s'.log = s.log)
  /-- A new event is recorded. -/
  | recorded {e : EventRow} (hu : e.applied = false)
      (hnew : ∀ i e', s.db.provider_events.get? i = some e' → ¬ e.SameEvent e')
      (he : s'.db.provider_events = s.db.provider_events.push e) (hd : s'.drains = s.drains)
      (hl : s'.log = s.log)
  /-- A drain is opened over unapplied rows that no drain holds. -/
  | opened {now : Time} {w : ℕ} {rows : List (ℕ × EventRow)} (hnd : (rows.map Prod.fst).Nodup)
      (hrows : ∀ e ∈ rows, s.db.provider_events.get? e.1 = some e.2 ∧ e.2.applied = false ∧
        e.1 ∉ s.lockedBy fun _ => true)
      (he : s'.db.provider_events = s.db.provider_events)
      (hd : s'.drains = s.drains.insertAt w ⟨now, rows, []⟩) (hl : s'.log = s.log)
  /-- A drain reads its next event. -/
  | read {now : Time} {w : ℕ} {p : Planned} {todo : List (ℕ × EventRow)} {plan : List Planned}
      (hw : s.drains.get? w = some ⟨now, p.event :: todo, plan⟩) (hp : p.read.Explained)
      (he : s'.db.provider_events = s.db.provider_events)
      (hd : s'.drains = s.drains.modify (fun i _ => i == w) fun _ => ⟨now, todo, plan ++ [p]⟩)
      (hl : s'.log = s.log)
  /-- A drain commits its writes, and gives up on unknown events that no other drain holds. -/
  | committed {now : Time} {w : ℕ} {plan : List Planned} {log : List (ℕ × CallState)} {db₁ : Db}
      (hw : s.drains.get? w = some ⟨now, [], plan⟩)
      (hplan : (applyPlan cfg now plan).run s.db = .ok (log, db₁))
      (hfree : ∀ i e, s.db.provider_events.get? i = some e → EventRepo.isGivenUp now e = true →
        i ∉ s.lockedBy (· ≠ w))
      (hview : s'.db.view = { db₁.view with
        provider_events := db₁.provider_events.modify (fun _ e => EventRepo.isGivenUp now e)
          EventRepo.givenUpRow })
      (hd : s'.drains = s.drains.erase w) (hl : s'.log = s.log ++ log)
  /-- A drain ends without a trace. -/
  | closed {w : ℕ} (he : s'.db.provider_events = s.db.provider_events)
      (hd : s'.drains = s.drains.erase w) (hl : s'.log = s.log)

/-- A program whose committed runs leave the ledger alone does so in every case. -/
private theorem commit_provider_events {α : Type} {x : Tx α} {db : Db}
    (h : ∀ a db', x.run db = .ok (a, db') → db'.view.provider_events = db.view.provider_events) :
    (x.commit db).provider_events = db.provider_events := by
  rcases Txn.commit_cases x db with ⟨a, hrun, _⟩ | ⟨hc, _⟩
  · exact h a _ hrun
  · rw [hc]

/-- An allocation does not look at the ledger. -/
private theorem Allocated.provider_events {now lease : Time} {lockedBorrowers : List ℕ}
    {worker : String} {campaign_id : ℕ} {db : Db} {o : Option Reservation} {v : View}
    (h : Allocated now lockedBorrowers worker campaign_id lease db o v) :
    v.provider_events = db.view.provider_events := by
  cases h <;> rfl

/-- The reaper does not look at the ledger. -/
theorem View.reap_provider_events (now now_ts : Time) (v : View) :
    (v.reap now now_ts).provider_events = v.provider_events := by
  have hfold : ∀ (l : List (ℕ × CallRow)) (v : View),
      (l.foldl (View.releaseOrphan now) v).provider_events = v.provider_events := by
    intro l
    induction l with
    | nil => exact fun _ => rfl
    | cons o l ih => exact fun v => (ih _).trans (View.releaseOrphan_provider_events now v o)
  exact hfold _ _

/-- **Actions.** Every action does one of the six things. -/
theorem step_ledger (cfg : Settings) (s : Sys) (a : Act) : LedgerStep cfg s (step cfg s a) := by
  cases a with
  | createAgent now campaign_id ext_ref =>
    refine .quiet (commit_provider_events fun i db' h => ?_) rfl rfl
    rw [insertAgent_run h]
  | login now agent_id => exact .quiet rfl rfl rfl
  | logout now agent_id => exact .quiet rfl rfl rfl
  | pause now agent_id => exact .quiet rfl rfl rfl
  | seed now campaign_id phone priority max_attempts =>
    obtain ⟨db', hrun, hv⟩ := BorrowerRepo.seed_run now campaign_id phone priority max_attempts s.db
    refine .quiet ?_ rfl rfl
    rw [step, Sys.exec_db, (Txn.commit_of_run hrun).1]
    rcases hv with hv | hv
    · exact congrArg View.provider_events hv
    · exact congrArg View.provider_events hv
  | reserveAndCreate now clock_now lockedAgents lockedBorrowers pick worker campaign_id =>
    refine .quiet ?_ (Sys.allocate_drains ..) (Sys.allocate_log ..)
    rw [step, Sys.allocate_db]
    exact commit_provider_events fun o db' h => (reserveAndCreate_cases h).provider_events
  | placeCall call_id =>
    refine .quiet ?_ (Sys.placeCall_drains ..) (Sys.placeCall_log ..)
    rw [step, Sys.placeCall_db]
  | rejected now call_id =>
    refine .quiet ?_ (Sys.settle_drains ..) (Sys.settle_log ..)
    rcases s.settle_cases call_id fun a => recordRejected now a.reservation with
      ⟨att, _, _, hdb, _⟩ | hs
    · -- whether or not the call is failed, the writes are to calls, agents and borrowers
      obtain ⟨db₁, db', hrun, hv, hcall⟩ := recordRejected_run now att.reservation s.db
      have hdb₁ : db₁.view.provider_events = s.db.view.provider_events := by
        rcases hcall with ⟨rfl, _⟩ | ⟨c, _, _, hv₁⟩
        · rfl
        · rw [hv₁, View.setCall_provider_events]
      rw [step, hdb, (Txn.commit_of_run hrun).1]
      exact (congrArg View.provider_events hv).trans hdb₁
    · rw [step, hs]
  | accepted now clock_now call_id pcid =>
    refine .quiet ?_ (Sys.settle_drains ..) (Sys.settle_log ..)
    rcases s.settle_cases call_id fun a =>
        recordInitiated now a.reservation pcid a.worker (dialUntil clock_now cfg) with
      ⟨att, _, _, hdb, _⟩ | hs
    · rw [step, hdb]
      apply commit_provider_events
      intro _ db' h
      obtain ⟨db₁, hv, hcall⟩ := recordInitiated_cases h
      rw [hv, View.setAgent_provider_events]
      rcases hcall with ⟨rfl, _⟩ | ⟨c, _, _, hv₁⟩
      · rfl
      · rw [hv₁, View.setCall_provider_events]
    · rw [step, hs]
  | abandon call_id => exact .quiet rfl rfl rfl
  | pullback now call_id =>
    refine .quiet ?_ rfl rfl
    obtain ⟨b, db', hrun, hv⟩ := cancelCandidate_run now call_id s.db
    rw [step, Sys.exec_db, (Txn.commit_of_run hrun).1]
    rcases hv with ⟨_, rfl⟩ | ⟨c, _, _, _, hv⟩
    · rfl
    · rw [← Db.view_provider_events, hv, View.setBorrower_provider_events,
        View.setAgentOf_provider_events, View.setCall_provider_events, Db.view_provider_events]
  | reap now clock_now registry =>
    refine .quiet ?_ rfl rfl
    obtain ⟨res, db', hrun, hv⟩ := reap_run now clock_now registry s.db
    rw [step, Sys.reap_db, (Txn.commit_of_run hrun).1, ← Db.view_provider_events, hv,
      View.reap_provider_events, Db.view_provider_events]
  | ingest now provider event_id call_ref etype ts payload =>
    obtain ⟨o, db', hrun, hv⟩ := EventRepo.ingest_run now provider event_id call_ref etype ts
      payload s.db
    have hdb : (step cfg s (.ingest now provider event_id call_ref etype ts payload)).db = db' :=
      (Txn.commit_of_run hrun).1
    rcases hv with ⟨_, hnew, hv⟩ | ⟨_, _, rfl⟩
    · refine .recorded (e := EventRepo.ingestedRow now provider event_id call_ref etype ts payload)
        rfl (fun i e' he' hsame => hnew i e' he' ⟨hsame.1.symm, hsame.2.symm⟩) ?_ rfl rfl
      rw [hdb, ← Db.view_provider_events, hv]
    · exact .quiet (by rw [hdb]) rfl rfl
  | fetch now w limit =>
    obtain ⟨rows, hs, hnd, hrows⟩ := s.fetch_cases now w limit
    rw [step, hs]
    exact .opened hnd hrows rfl rfl rfl
  | read clock_now w =>
    rcases s.read_cases cfg clock_now w with ⟨now, ev, todo, plan, r, hw, hr, hs⟩ | hs
    · rw [step, hs]
      exact .read (p := ⟨ev, clock_now, r⟩) hw (explained_of_read hr) rfl rfl rfl
    · rw [step, hs]
      exact .quiet rfl rfl rfl
  | commit w =>
    rcases s.commit_cases cfg w with ⟨now, plan, hw, hfree, hs⟩ | hs
    · rw [step, hs]
      rcases Txn.commit_cases (commitDrain cfg ⟨now, [], plan⟩) s.db with
        ⟨log, hrun, hres⟩ | ⟨hc, hnone⟩
      · obtain ⟨db₁, hplan, hview⟩ := commitDrain_run hrun
        exact .committed hw hplan hfree hview rfl (by rw [hres]; rfl)
      · -- the transaction fails, and its drain is over
        exact .closed (by rw [hc]) rfl (by rw [hnone, Option.getD_none, List.append_nil])
    · rw [step, hs]
      exact .quiet rfl rfl rfl
  | rollback w => exact .closed rfl rfl rfl

end SmartDialer
