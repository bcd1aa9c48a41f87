import SmartDialer.Lib.Run
import SmartDialer.Allocator
import SmartDialer.Worker.EventApplier
import SmartDialer.Worker.Reaper

namespace SmartDialer

open Relational

/-!
# The system

The workers, the providers and the staff, as one transition system.  Its state is the
database together with what the workers hold in memory between transactions:

* `attempts` — the allocations between their two transactions, by call id;
* `drains` — the open transactions of the event appliers, by worker.

A transaction takes effect when it commits: until then a drain collects, event by event,
what it has read (`Planned`), its later reads see its own earlier writes, and committing it
replays its writes on the database of that moment.  So between the read of an event and the
write that follows from it any other transaction may commit.  A drain that is rolled back
leaves nothing.

An action that is not enabled changes nothing.  `placed`, `cancels` and `log` are not part of
the program: they record the provider requests and the transitions made for ledger events.
-/

/-- An allocation whose second transaction is still to come. -/
structure Attempt where
  reservation : Reservation
  worker : String
  /-- Has the provider been called? -/
  placed : Bool
  deriving DecidableEq, Repr

/-- An event of an open drain after its read, and the clock at that time. -/
structure Planned where
  event : ℕ × EventRow
  clock_now : Time
  read : ReadResult
  deriving DecidableEq, Repr

/-- An open drain: the events fetched but not yet read, and the ones read, in order. -/
structure Drain where
  now : Time
  todo : List (ℕ × EventRow)
  plan : List Planned
  deriving DecidableEq, Repr

/-- The ledger rows that a drain has locked. -/
def Drain.locked (d : Drain) : List ℕ := d.plan.map (·.event.1) ++ d.todo.map (·.1)

/-- The database and everything outside it that the code keeps: allocations between their two
    transactions, drains that are open, and what was asked of the providers. -/
structure Sys where
  db : Db
  attempts : Table Attempt
  drains : Table Drain
  /-- The invocations of `provider.place_call`, oldest first. -/
  placed : List CallRequest
  /-- The requests of `provider.cancel`, oldest first. -/
  cancels : List (String × String)
  /-- The committed transitions with the ledger row each was made for, oldest first. -/
  log : List (ℕ × CallState)

/-- The migrations have run, and nothing else has. -/
def Sys.init : Sys := ⟨.empty, .empty, .empty, [], [], []⟩

/-- The ledger rows locked by the drains other than `w`. -/
def Sys.lockedBy (s : Sys) (others : ℕ → Bool) : List ℕ :=
  (s.drains.select fun w _ => others w).flatMap fun e => e.2.locked

/-- The writes of a drain, in order, with the transitions they make. -/
def applyPlan (cfg : Settings) (now : Time) : List Planned → Tx (List (ℕ × CallState))
  | [] => return []
  | p :: plan => do
    let moved ← applyOneWrite now p.event p.read p.clock_now (secs cfg.wrapup_s)
    let rest ← applyPlan cfg now plan
    return match moved with
      | some final_state => (p.event.1, final_state) :: rest
      | none => rest

/-- A drain up to its commit. -/
def commitDrain (cfg : Settings) (d : Drain) : Tx (List (ℕ × CallState)) := do
  let moved ← applyPlan cfg d.now d.plan
  let _ ← EventRepo.giveUpUnknown d.now
  return moved

/-! ### Actions -/

/-- Everything that can happen to the system.  An action is one transaction, one statement of a
    longer transaction, or one request to a provider. -/
inductive Act where
  /-- Staffing; `login`, `logout` and `pause` may come at any time. -/
  | createAgent (now : Time) (campaign_id : ℕ) (ext_ref : String)
  | login (now : Time) (agent_id : ℕ)
  | logout (now : Time) (agent_id : ℕ)
  | pause (now : Time) (agent_id : ℕ)
  /-- A borrower is added to a campaign. -/
  | seed (now : Time) (campaign_id : ℕ) (phone : String) (priority : ℤ) (max_attempts : ℕ)
  /-- The first transaction of an allocation. -/
  | reserveAndCreate (now clock_now : Time) (lockedAgents lockedBorrowers : List ℕ)
      (pick : Option String) (worker : String) (campaign_id : ℕ)
  /-- The provider is called for an allocation. -/
  | placeCall (call_id : ℕ)
  /-- The provider refused, and the second transaction records it. -/
  | rejected (now : Time) (call_id : ℕ)
  /-- The provider accepted, and the second transaction records it. -/
  | accepted (now clock_now : Time) (call_id : ℕ) (pcid : String)
  /-- The worker crashed or gave up; the allocation never resumes. -/
  | abandon (call_id : ℕ)
  /-- The pullback sweep reaches a candidate. -/
  | pullback (now : Time) (call_id : ℕ)
  | reap (now clock_now : Time) (registry : Option (List String))
  /-- A provider event is delivered. -/
  | ingest (now : Time) (provider event_id : String) (call_ref : Option String) (etype : String)
      (ts : Time) (payload : String)
  /-- A worker opens a drain, reads its next event, commits it, or is rolled back. -/
  | fetch (now : Time) (w limit : ℕ)
  | read (clock_now : Time) (w : ℕ)
  | commit (w : ℕ)
  | rollback (w : ℕ)
  deriving Repr

/-- Commit a transaction that involves nothing but the database. -/
def Sys.exec {α : Type} (s : Sys) (x : Tx α) : Sys := { s with db := x.commit s.db }

/-- The first transaction of an allocation; a raised `UniqueViolation` leaves no attempt. -/
def Sys.allocate (s : Sys) (worker : String) (x : Tx (Option Reservation)) : Sys :=
  match x.result s.db with
  | some (some r) =>
    { s with db := x.commit s.db, attempts := s.attempts.insertAt r.call_id ⟨r, worker, false⟩ }
  | _ => { s with db := x.commit s.db }

/-- `provider.place_call` is invoked for an allocation, once. -/
def Sys.placeCall (cfg : Settings) (s : Sys) (call_id : ℕ) : Sys :=
  match s.attempts.get? call_id with
  | some a =>
    if a.placed then s else
      { s with
        attempts := s.attempts.modify (fun i _ => i == call_id) fun a => { a with placed := true }
        placed := s.placed ++ [callRequest cfg a.reservation] }
  | none => s

/-- The second transaction of an allocation, once the provider has answered. -/
def Sys.settle (s : Sys) (call_id : ℕ) (x : Attempt → Tx PUnit) : Sys :=
  match s.attempts.get? call_id with
  | some a =>
    if a.placed then
      { s with db := (x a).commit s.db, attempts := s.attempts.erase call_id }
    else s
  | none => s

/-- A round of the reaper; the cancellations it asks for go out after the commit. -/
def Sys.reap (s : Sys) (now clock_now : Time) (registry : Option (List String)) : Sys :=
  let x := SmartDialer.reap now clock_now registry
  { s with
    db := x.commit s.db
    cancels := s.cancels ++ ((x.result s.db).map (·.cancels)).getD [] }

/-- A worker opens a drain: the oldest unapplied events that no other drain has locked. -/
def Sys.fetch (s : Sys) (now : Time) (w limit : ℕ) : Sys :=
  match (EventRepo.fetchUnapplied (s.lockedBy fun _ => true) limit).result s.db with
  | some rows => { s with drains := s.drains.insertAt w ⟨now, rows, []⟩ }
  | none => s

/-- The next event of a drain is read, over the writes that the drain has made so far. -/
def Sys.read (cfg : Settings) (s : Sys) (clock_now : Time) (w : ℕ) : Sys :=
  match s.drains.get? w with
  | some ⟨now, ev :: todo, plan⟩ =>
    match (applyOneRead ev.2).result ((applyPlan cfg now plan).commit s.db) with
    | some r =>
      -- over a plan that fails the read sees the database as it was
      { s with
        drains := s.drains.modify (fun i _ => i == w) fun _ =>
          ⟨now, todo, plan ++ [⟨ev, clock_now, r⟩]⟩ }
    | none => s
  | _ => s

/-- A drain whose events are all read commits, unless it has to wait: `GIVE_UP_UNKNOWN` blocks
    on a row that another drain has locked. -/
def Sys.commit (cfg : Settings) (s : Sys) (w : ℕ) : Sys :=
  match s.drains.get? w with
  | some ⟨now, [], plan⟩ =>
    let blocked := s.lockedBy (· ≠ w)
    if s.db.provider_events.select (fun i e => EventRepo.isGivenUp now e && blocked.contains i) = []
    then
      let x := commitDrain cfg ⟨now, [], plan⟩
      { s with
        db := x.commit s.db
        drains := s.drains.erase w
        log := s.log ++ (x.result s.db).getD [] }
    else s
  | _ => s

/-- One step of the system. -/
def step (cfg : Settings) (s : Sys) : Act → Sys
  | .createAgent now campaign_id ext_ref => s.exec (AgentRepo.create now campaign_id ext_ref)
  | .login now agent_id => s.exec (AgentRepo.login now agent_id)
  | .logout now agent_id => s.exec (AgentRepo.logout now agent_id)
  | .pause now agent_id => s.exec (AgentRepo.pause now agent_id)
  | .seed now campaign_id phone priority max_attempts =>
    s.exec (BorrowerRepo.seed now campaign_id phone priority max_attempts)
  | .reserveAndCreate now clock_now lockedAgents lockedBorrowers pick worker campaign_id =>
    s.allocate worker (SmartDialer.reserveAndCreate now lockedAgents lockedBorrowers pick worker
      campaign_id (reserveUntil clock_now cfg))
  | .placeCall call_id => s.placeCall cfg call_id
  | .rejected now call_id => s.settle call_id fun a => recordRejected now a.reservation
  | .accepted now clock_now call_id pcid =>
    s.settle call_id fun a =>
      recordInitiated now a.reservation pcid a.worker (dialUntil clock_now cfg)
  | .abandon call_id => { s with attempts := s.attempts.erase call_id }
  | .pullback now call_id => s.exec (cancelCandidate now call_id)
  | .reap now clock_now registry => s.reap now clock_now registry
  | .ingest now provider event_id call_ref etype ts payload =>
    s.exec (EventRepo.ingest now provider event_id call_ref etype ts payload)
  | .fetch now w limit => s.fetch now w limit
  | .read clock_now w => s.read cfg clock_now w
  | .commit w => s.commit cfg w
  | .rollback w => { s with drains := s.drains.erase w }

/-! ### What a step touches -/

section

variable (cfg : Settings) (s : Sys)

/-- A transaction changes the database and nothing else, field by field. -/
@[simp] theorem Sys.exec_db {α : Type} (x : Tx α) : (s.exec x).db = x.commit s.db := rfl
@[simp] theorem Sys.exec_drains {α : Type} (x : Tx α) : (s.exec x).drains = s.drains := rfl
@[simp] theorem Sys.exec_attempts {α : Type} (x : Tx α) : (s.exec x).attempts = s.attempts := rfl
@[simp] theorem Sys.exec_placed {α : Type} (x : Tx α) : (s.exec x).placed = s.placed := rfl
@[simp] theorem Sys.exec_log {α : Type} (x : Tx α) : (s.exec x).log = s.log := rfl

/-- The one transaction of `seed_many` does what seeding the phones one by one does. -/
theorem Sys.run_seedMany (now : Time) (campaign_id : ℕ) (phones : List String) :
    run (step cfg) s (phones.map fun phone => .seed now campaign_id phone 100 defaultMaxAttempts)
      = s.exec (BorrowerRepo.seedMany now campaign_id phones) := by
  induction phones generalizing s with
  | nil => rfl
  | cons phone phones ih =>
    obtain ⟨db', hrun, hmany⟩ := BorrowerRepo.seedMany_cons now campaign_id phone phones s.db
    obtain ⟨db'', hrest⟩ := BorrowerRepo.seedMany_run now campaign_id phones db'
    have hseeded : step cfg s (.seed now campaign_id phone 100 defaultMaxAttempts)
        = { s with db := db' } :=
      congrArg (fun db => { s with db }) (Txn.commit_of_run hrun).1
    rw [List.map_cons, run_cons, hseeded, ih]
    unfold exec
    rw [(Txn.commit_of_run hrest).1, (Txn.commit_of_run (hmany.trans hrest)).1]

/-- The first transaction of an allocation, field by field: beside the database it adds an
    attempt. -/
@[simp] theorem Sys.allocate_db (worker : String) (x : Tx (Option Reservation)) :
    (s.allocate worker x).db = x.commit s.db := by
  unfold Sys.allocate; split <;> rfl

@[simp] theorem Sys.allocate_drains (worker : String) (x : Tx (Option Reservation)) :
    (s.allocate worker x).drains = s.drains := by
  unfold Sys.allocate; split <;> rfl

@[simp] theorem Sys.allocate_placed (worker : String) (x : Tx (Option Reservation)) :
    (s.allocate worker x).placed = s.placed := by
  unfold Sys.allocate; split <;> rfl

@[simp] theorem Sys.allocate_log (worker : String) (x : Tx (Option Reservation)) :
    (s.allocate worker x).log = s.log := by
  unfold Sys.allocate; split <;> rfl

/-- Asking a provider is outside the database. -/
@[simp] theorem Sys.placeCall_db (call_id : ℕ) : (s.placeCall cfg call_id).db = s.db := by
  unfold Sys.placeCall; split
  · split <;> rfl
  · rfl

/-- Asking a provider leaves the drains alone. -/
@[simp] theorem Sys.placeCall_drains (call_id : ℕ) :
    (s.placeCall cfg call_id).drains = s.drains := by
  unfold Sys.placeCall; split
  · split <;> rfl
  · rfl

/-- Asking a provider makes no transition. -/
@[simp] theorem Sys.placeCall_log (call_id : ℕ) : (s.placeCall cfg call_id).log = s.log := by
  unfold Sys.placeCall; split
  · split <;> rfl
  · rfl

/-- The second transaction of an allocation leaves the drains alone. -/
@[simp] theorem Sys.settle_drains (call_id : ℕ) (x : Attempt → Tx PUnit) :
    (s.settle call_id x).drains = s.drains := by
  unfold Sys.settle; split
  · split <;> rfl
  · rfl

/-- The second transaction asks nothing of a provider. -/
@[simp] theorem Sys.settle_placed (call_id : ℕ) (x : Attempt → Tx PUnit) :
    (s.settle call_id x).placed = s.placed := by
  unfold Sys.settle; split
  · split <;> rfl
  · rfl

/-- The second transaction makes no transition on behalf of an event. -/
@[simp] theorem Sys.settle_log (call_id : ℕ) (x : Attempt → Tx PUnit) :
    (s.settle call_id x).log = s.log := by
  unfold Sys.settle; split
  · split <;> rfl
  · rfl

/-- The reaper, field by field: one transaction and the cancellations. -/
@[simp] theorem Sys.reap_db (now clock_now : Time) (registry : Option (List String)) :
    (s.reap now clock_now registry).db
      = (SmartDialer.reap now clock_now registry).commit s.db := rfl
@[simp] theorem Sys.reap_drains (now clock_now : Time) (registry : Option (List String)) :
    (s.reap now clock_now registry).drains = s.drains := rfl
@[simp] theorem Sys.reap_attempts (now clock_now : Time) (registry : Option (List String)) :
    (s.reap now clock_now registry).attempts = s.attempts := rfl
@[simp] theorem Sys.reap_placed (now clock_now : Time) (registry : Option (List String)) :
    (s.reap now clock_now registry).placed = s.placed := rfl
@[simp] theorem Sys.reap_log (now clock_now : Time) (registry : Option (List String)) :
    (s.reap now clock_now registry).log = s.log := rfl

/-- A second transaction runs for an attempt whose provider has been called, and ends it. -/
theorem Sys.settle_cases (call_id : ℕ) (x : Attempt → Tx PUnit) :
    (∃ a, s.attempts.get? call_id = some a ∧ a.placed = true ∧
      (s.settle call_id x).db = (x a).commit s.db ∧
      (s.settle call_id x).attempts = s.attempts.erase call_id) ∨ s.settle call_id x = s := by
  unfold Sys.settle
  split
  · rename_i a ha
    split
    · rename_i hp
      exact Or.inl ⟨a, ha, hp, rfl, rfl⟩
    · exact Or.inr rfl
  · exact Or.inr rfl

/-- Fetching opens a drain with nothing read yet, over rows that no open drain holds. -/
theorem Sys.fetch_cases (now : Time) (w limit : ℕ) :
    ∃ rows : List (ℕ × EventRow), s.fetch now w limit =
        { s with drains := s.drains.insertAt w ⟨now, rows, []⟩ } ∧
      (rows.map Prod.fst).Nodup ∧
      ∀ e ∈ rows, s.db.provider_events.get? e.1 = some e.2 ∧ e.2.applied = false ∧
        e.1 ∉ s.lockedBy fun _ => true := by
  obtain ⟨rows, hrun, hnd, hrows⟩ :=
    EventRepo.fetchUnapplied_run (s.lockedBy fun _ => true) limit s.db
  refine ⟨rows, ?_, hnd, hrows⟩
  unfold Sys.fetch
  rw [(Txn.commit_of_run hrun).2]

/-- Reading moves the next event of a drain into its plan, with what was read over the drain's
    own writes. -/
theorem Sys.read_cases (clock_now : Time) (w : ℕ) :
    (∃ now ev todo plan r, s.drains.get? w = some ⟨now, ev :: todo, plan⟩ ∧
      (applyOneRead ev.2).result ((applyPlan cfg now plan).commit s.db) = some r ∧
      s.read cfg clock_now w = { s with
        drains := s.drains.modify (fun i _ => i == w) fun _ =>
          ⟨now, todo, plan ++ [⟨ev, clock_now, r⟩]⟩ }) ∨ s.read cfg clock_now w = s := by
  unfold Sys.read
  split
  · rename_i now ev todo plan hd
    split
    · rename_i r hr
      exact Or.inl ⟨now, ev, todo, plan, r, hd, hr, rfl⟩
    · exact Or.inr rfl
  · exact Or.inr rfl

/-- Committing a drain that has read everything replays its writes and closes it, unless it has
    to wait for the lock on an event it would give up. -/
theorem Sys.commit_cases (w : ℕ) :
    (∃ now plan, s.drains.get? w = some ⟨now, [], plan⟩ ∧
      (∀ i e, s.db.provider_events.get? i = some e → EventRepo.isGivenUp now e = true →
        i ∉ s.lockedBy (· ≠ w)) ∧
      s.commit cfg w = { s with
        db := (commitDrain cfg ⟨now, [], plan⟩).commit s.db
        drains := s.drains.erase w
        log := s.log ++ ((commitDrain cfg ⟨now, [], plan⟩).result s.db).getD [] }) ∨
      s.commit cfg w = s := by
  unfold Sys.commit
  split
  · rename_i now plan hd
    simp only
    split
    · rename_i hblock
      refine Or.inl ⟨now, plan, hd, fun i e he hg hmem => ?_, rfl⟩
      have hnot := Table.select_eq_nil_iff.mp hblock i e he
      simp only [hg, Bool.true_and, List.contains_eq_mem, decide_eq_false_iff_not] at hnot
      exact hnot hmem
    · exact Or.inr rfl
  · exact Or.inr rfl

end

/-- The writes of a plan are those of its first event and then those of the rest. -/
theorem applyPlan_cons {cfg : Settings} {now : Time} {p : Planned} {plan : List Planned}
    {db db' : Db} {moved : List (ℕ × CallState)}
    (h : (applyPlan cfg now (p :: plan)).run db = .ok (moved, db')) :
    ∃ o db₁ rest, (applyOneWrite now p.event p.read p.clock_now (secs cfg.wrapup_s)).run db
        = .ok (o, db₁) ∧
      (applyPlan cfg now plan).run db₁ = .ok (rest, db') ∧
      moved = (o.map fun final_state => (p.event.1, final_state)).toList ++ rest := by
  obtain ⟨o, db₁, h₁, hrest⟩ := Txn.run_bind_ok.mp h
  obtain ⟨rest, db₂, h₂, hpure⟩ := Txn.run_bind_ok.mp hrest
  obtain ⟨rfl, rfl⟩ := Txn.run_pure_ok.mp hpure
  refine ⟨o, db₁, rest, h₁, h₂, ?_⟩
  cases o <;> rfl

/-- The commit of a drain is its plan and then the sweep of the unknown events. -/
theorem commitDrain_run {cfg : Settings} {d : Drain} {db db' : Db} {moved : List (ℕ × CallState)}
    (h : (commitDrain cfg d).run db = .ok (moved, db')) :
    ∃ db₁, (applyPlan cfg d.now d.plan).run db = .ok (moved, db₁) ∧
      db'.view = { db₁.view with
        provider_events := db₁.provider_events.modify (fun _ e => EventRepo.isGivenUp d.now e)
          EventRepo.givenUpRow } := by
  obtain ⟨moved', db₁, h₁, hrest⟩ := Txn.run_bind_ok.mp h
  obtain ⟨rows, db₂, h₂, hv₂⟩ := EventRepo.giveUpUnknown_run d.now db₁
  rw [Txn.run_bind_of_ok h₂] at hrest
  obtain ⟨rfl, rfl⟩ := Txn.run_pure_ok.mp hrest
  exact ⟨db₁, h₁, hv₂⟩

end SmartDialer
