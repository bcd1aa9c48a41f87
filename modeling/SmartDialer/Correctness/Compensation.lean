import SmartDialer.Correctness.RowShapes
import SmartDialer.Worker.Batch

namespace SmartDialer

open Relational

/-!
# What a failed reservation leaves behind

Two of the early returns of `_reserve_and_create` come after the agent has been reserved, one of
them after the borrower has been locked as well.  They commit, and undo the writes by hand: with an
unconditional release that sets columns to fixed values, not to the ones they had.

* `trg_reserve_release` — the triggers of a reservation and a release cancel out.
* `reserveAndCreate_none` — without a reservation the database is the one before, but for version
  and timestamps of the candidate and the timestamp of its campaign's counters.
* `tries_leave` — the same for all tries of one allocation.
-/

/-- The row of a candidate that was reserved and released again. -/
def retouchedRow (now : Time) (a : AgentRow) : AgentRow :=
  { a with version := a.version + 2, updated_at := now, state_changed_at := now }

/-- The database after an agent of a campaign has been reserved and released again. -/
def Db.retouched (db : Db) (now : Time) (campaign_id agent_id : ℕ) : Db :=
  { db with
    agents := db.agents.alter agent_id (retouchedRow now)
    campaign_counters :=
      db.campaign_counters.alter campaign_id fun r => { r with updated_at := now } }

/-- The database is the same, or one candidate of the campaign has been touched. -/
def Db.LeftAlone (campaign_id : ℕ) (db db' : Db) : Prop :=
  db' = db ∨ ∃ now agent_id a, db.agents.get? agent_id = some a ∧ a.campaign_id = campaign_id ∧
    a.state = .AVAILABLE ∧ db' = db.retouched now campaign_id agent_id

/-! ### One agent -/

/-- The database after the agent with row `a` is updated. -/
def Db.setAgent (db : Db) (now : Time) (agent_id : ℕ) (a : AgentRow) (f : AgentRow → AgentRow) :
    Db :=
  { db with
    agents := db.agents.alter agent_id f
    campaign_counters := trgAgentsCounters now (some a) (f a) db.campaign_counters }

/-- An update of one agent by its id writes that row and runs the trigger once. -/
theorem Db.setAgents_key {db : Db} {agent_id : ℕ} {a : AgentRow}
    (ha : db.agents.get? agent_id = some a) {g : AgentRow → Bool} (hg : g a = true) (now : Time)
    (f : AgentRow → AgentRow) :
    db.setAgents now (fun i a => i == agent_id && g a) f = db.setAgent now agent_id a f := by
  unfold Db.setAgents Db.setAgent
  simp only [Table.select_key_of_pos ha hg, Table.modify_key_of_pos f ha hg, List.foldl_cons,
    List.foldl_nil]

namespace AgentRepo

/-- The compare-and-swap on the version of an available agent. -/
theorem reserve_of_available {db : Db} {agent_id : ℕ} {a : AgentRow}
    (ha : db.agents.get? agent_id = some a) (hs : a.state = .AVAILABLE) (now : Time)
    (worker : String) (lease_until : Time) :
    (reserve now agent_id a.version worker lease_until).run db =
      .ok (true, db.setAgent now agent_id a (reservedRow now worker lease_until)) := by
  have hg : (a.state == .AVAILABLE && a.version == a.version) = true := by simp [hs]
  rw [← Db.setAgents_key ha (g := fun r => r.state == .AVAILABLE && r.version == a.version) hg]
  show Except.ok (!(List.map _ (db.agents.select _)).isEmpty, _) = _
  rw [Table.select_key_of_pos ha (g := fun r => r.state == .AVAILABLE && r.version == a.version) hg]
  rfl

/-- `release` writes the agent it is given, whatever that agent is doing. -/
theorem release_of_get? {db : Db} {agent_id : ℕ} {a : AgentRow}
    (ha : db.agents.get? agent_id = some a) (now : Time) :
    ∃ b, (release now agent_id).run db =
      .ok (b, db.setAgent now agent_id a (forcedRow now .AVAILABLE none none none)) := by
  have hset : db.setAgents now (fun i _ => i == agent_id) (forcedRow now .AVAILABLE none none none)
      = db.setAgent now agent_id a (forcedRow now .AVAILABLE none none none) := by
    simpa using Db.setAgents_key ha (g := fun _ => true) rfl now _
  rw [← hset]
  exact ⟨_, rfl⟩

end AgentRepo

/-- The triggers of a reservation and of the release after it cancel out. -/
theorem trg_reserve_release {a : AgentRow} (hs : a.state = .AVAILABLE) (now : Time)
    (worker : String) (lease_until : Time) (counters : Table CountersRow) :
    trgAgentsCounters now (some (AgentRepo.reservedRow now worker lease_until a))
        (AgentRepo.forcedRow now .AVAILABLE none none none
          (AgentRepo.reservedRow now worker lease_until a))
        (trgAgentsCounters now (some a) (AgentRepo.reservedRow now worker lease_until a) counters)
      = counters.alter a.campaign_id fun r => { r with updated_at := now } := by
  have hreserve : a.state ≠ (AgentRepo.reservedRow now worker lease_until a).state := by
    rw [hs]
    exact AgentState.noConfusion
  unfold trgAgentsCounters
  simp only [if_pos hreserve]
  show (counters.alter a.campaign_id _).alter a.campaign_id _ = _
  rw [Table.alter_alter]
  congr 1
  funext r
  simp [AgentRepo.reservedRow, AgentRepo.forcedRow, hs, ind]

/-- An available agent that is reserved and released again. -/
theorem AgentRow.Shaped.release_reserve {a : AgentRow} (h : a.Shaped) (hs : a.state = .AVAILABLE)
    (now : Time) (worker : String) (lease_until : Time) :
    AgentRepo.forcedRow now .AVAILABLE none none none
      (AgentRepo.reservedRow now worker lease_until a) = retouchedRow now a := by
  unfold Shaped at h
  rw [hs] at h
  obtain ⟨hlease, howner, hcall⟩ := h
  obtain ⟨_, _, _, _, _, _, _, _, _⟩ := a
  simp only at hs hlease howner hcall
  rw [hs, hlease, howner, hcall]
  rfl

/-- What the release leaves of the reservation. -/
theorem Db.reserve_release {db : Db} {agent_id : ℕ} {a : AgentRow}
    (ha : db.agents.get? agent_id = some a) (hs : a.state = .AVAILABLE) (hshape : a.Shaped)
    (now : Time) (worker : String) (lease_until : Time) :
    (db.setAgent now agent_id a (AgentRepo.reservedRow now worker lease_until)).setAgent now
        agent_id (AgentRepo.reservedRow now worker lease_until a)
        (AgentRepo.forcedRow now .AVAILABLE none none none)
      = db.retouched now a.campaign_id agent_id := by
  have hrows : db.agents.alter agent_id (fun a => AgentRepo.forcedRow now .AVAILABLE none none none
      (AgentRepo.reservedRow now worker lease_until a)) = db.agents.alter agent_id
        (retouchedRow now) :=
    Table.alter_congr ha (hshape.release_reserve hs now worker lease_until)
  unfold Db.setAgent Db.retouched
  rw [trg_reserve_release hs, Table.alter_alter, hrows]

/-! ### The transaction -/

/-- Claiming a borrower writes to borrowers only. -/
theorem BorrowerRepo.claimOne_db {now : Time} {locked : List ℕ} {campaign_id : ℕ} {worker : String}
    {lease_until : Time} {db db' : Db} {o : Option (ℕ × BorrowerRow)}
    (h : (claimOne now locked campaign_id worker lease_until).run db = .ok (o, db')) :
    (o = none ∧ db' = db) ∨ ∃ k b, o = some (k, lockedRow worker lease_until b) ∧
      db.borrowers.get? k = some b ∧ claimable campaign_id now b = true ∧
      db' = { db with borrowers := db.borrowers.alter k (lockedRow worker lease_until) } := by
  obtain ⟨o₁, db₁, hrun, hcases⟩ := claimOne_run now locked campaign_id worker lease_until db
  rw [h, Except.ok.injEq, Prod.mk.injEq] at hrun
  obtain ⟨rfl, rfl⟩ := hrun
  -- whatever it selects, it is one update of borrowers
  have honly : db' = { db with borrowers := db'.borrowers } := by
    cases h
    rfl
  rcases hcases with ⟨ho, hv⟩ | ⟨k, b, ho, hb, hc, _, hv⟩
  · have hborrowers : db'.borrowers = db.borrowers := congrArg View.borrowers hv
    rw [hborrowers] at honly
    exact Or.inl ⟨ho, honly⟩
  · have hborrowers : db'.borrowers = db.borrowers.alter k (lockedRow worker lease_until) :=
      congrArg View.borrowers hv
    rw [hborrowers] at honly
    exact Or.inr ⟨k, b, ho, hb, hc, honly⟩

/-- **Nothing is left behind** by a transaction that commits without a reservation. -/
theorem reserveAndCreate_none {now : Time} {lockedAgents lockedBorrowers : List ℕ}
    {pick : Option String} {worker : String} {campaign_id : ℕ} {lease : Time} {db db' : Db}
    (hshape : db.view.Shaped)
    (h : (reserveAndCreate now lockedAgents lockedBorrowers pick worker campaign_id lease).run db
      = .ok (none, db')) : db.LeftAlone campaign_id db' := by
  obtain ⟨cands, db₀, h₀, hrest⟩ := Txn.run_bind_ok.mp h
  obtain ⟨rfl, hcands⟩ := AgentRepo.mem_pickCandidates h₀
  cases hhead : cands.head? with
  | none =>
    rw [hhead] at hrest
    exact Or.inl (Txn.run_pure_ok.mp hrest).2
  | some c =>
    rw [hhead] at hrest
    obtain ⟨agent_id, version⟩ := c
    obtain ⟨a, ha, rfl, hs, rfl⟩ := hcands _ (List.mem_of_mem_head? hhead)
    have hreserve := AgentRepo.reserve_of_available ha hs now worker lease
    simp only at hrest ha
    rw [Txn.run_bind_of_ok hreserve, if_pos rfl] at hrest
    obtain ⟨ob, db₂, h₂, hrest⟩ := Txn.run_bind_ok.mp hrest
    have hback := Db.reserve_release ha hs (hshape.agents agent_id a ha) now worker lease
    refine Or.inr ⟨now, agent_id, a, ha, rfl, hs, ?_⟩
    rw [← hback]
    -- the row that the release finds is the reserved one
    have hreserved : ∀ borrowers, Table.get? { db₀.setAgent now agent_id a
        (AgentRepo.reservedRow now worker lease) with borrowers := borrowers }.agents agent_id =
          some (AgentRepo.reservedRow now worker lease a) := by
      intro borrowers
      show (db₀.agents.alter agent_id _).get? agent_id = _
      rw [Table.get?_alter, if_pos rfl, ha]
      rfl
    rcases BorrowerRepo.claimOne_db h₂ with ⟨rfl, rfl⟩ | ⟨k, b, rfl, hb, hc, rfl⟩
    · obtain ⟨_, h₃⟩ := AgentRepo.release_of_get? (hreserved db₀.borrowers) now
      have hrun := Txn.run_bind_of_ok (f := fun _ => (pure none : Tx (Option Reservation))) h₃
      exact (Txn.run_pure_ok.mp (hrun.symm.trans hrest)).2
    · cases pick with
      | none =>
        simp only [BorrowerRepo.claimable, Bool.and_eq_true, beq_iff_eq] at hc
        have hb : db₀.borrowers.get? k = some b := hb
        have hunlock : (db₀.borrowers.alter k (BorrowerRepo.lockedRow worker lease)).alter k
            BorrowerRepo.unlockedRow = db₀.borrowers := by
          rw [Table.alter_alter, Table.alter_congr (g := id) hb, Table.alter_id]
          exact (hshape.borrowers k b hb).unlockedRow_lockedRow hc.1.2 worker lease
        obtain ⟨_, h₃⟩ := AgentRepo.release_of_get? (hreserved _) now
        simp only at hrest
        rw [Txn.run_bind_of_ok h₃] at hrest
        obtain ⟨_, db₄, h₄, hpure⟩ := Txn.run_bind_ok.mp hrest
        obtain ⟨_, rfl⟩ := Txn.run_pure_ok.mp hpure
        cases h₄
        show Db.mk _ _ _ _ _ _ _ _ _ = Db.mk _ _ _ _ _ _ _ _ _
        congr 1
      | some provider =>
        obtain ⟨call_id, db₃, h₃, hpure⟩ := Txn.run_bind_ok.mp hrest
        cases (Txn.run_pure_ok.mp hpure).1

/-- The same for a transaction that is rolled back. -/
theorem reserveAndCreate_commit {now : Time} {lockedAgents lockedBorrowers : List ℕ}
    {pick : Option String} {worker : String} {campaign_id : ℕ} {lease : Time} {db : Db}
    (hshape : db.view.Shaped)
    (h : ∀ r, (reserveAndCreate now lockedAgents lockedBorrowers pick worker campaign_id
      lease).result db ≠ some (some r)) :
    db.LeftAlone campaign_id ((reserveAndCreate now lockedAgents lockedBorrowers pick worker
      campaign_id lease).commit db) := by
  rcases Txn.commit_cases (reserveAndCreate now lockedAgents lockedBorrowers pick worker campaign_id
    lease) db with ⟨o, hrun, hres⟩ | ⟨hc, _⟩
  · cases o with
    | none => exact reserveAndCreate_none hshape hrun
    | some r => exact absurd hres (h r)
  · exact Or.inl hc

/-! ### All tries of an allocation -/

namespace Batch

variable {cfg : Settings} {worker : String} {campaign_id : ℕ}

/-- A batch moves the system only by its actions. -/
theorem step_invariant {I : Sys → Prop} (hI : ∀ s a, I s → I (SmartDialer.step cfg s a))
    (b : Batch) (a : Act) (hb : I b.sys) : I (b.step cfg worker campaign_id a).sys := by
  cases a with
  | world a => exact hI b.sys a hb
  | deadlock i =>
    simp only [step, retry]
    split
    · split <;> exact hb
    · split
      · exact hb
      · exact hI b.sys (.abandon _) hb
    · exact hb
  | start | accept =>
    simp only [step]
    split <;> exact hb
  | reserve | invoke | reject | record =>
    simp only [step]
    split
    · simp only [move_sys]
      exact hI b.sys _ hb
    · exact hb
  | crash i =>
    simp only [step]
    split
    -- a task that has reserved nothing yet leaves nothing to abandon
    · exact hb
    · exact hb
    all_goals first
      | exact hI b.sys (.abandon _) hb
      | exact hb

/-- The rows have their columns throughout a batch. -/
theorem shaped_run {sys : Sys} (h : sys.Live) (hs : sys.db.view.Shaped) (n : ℕ) (acts : List Act) :
    (run (step cfg worker campaign_id) (begin sys n) acts).sys.db.view.Shaped := by
  have hstep : ∀ s a, s.Live ∧ s.db.view.Shaped →
      (SmartDialer.step cfg s a).Live ∧ (SmartDialer.step cfg s a).db.view.Shaped :=
    fun s a hs => ⟨live_step cfg hs.1 a, shaped_step cfg hs.1 hs.2 a⟩
  exact (invariant_run (I := fun b : Batch => b.sys.Live ∧ b.sys.db.view.Shaped)
    (fun b a hb => step_invariant hstep b a hb) ⟨h, hs⟩ acts).2

/-- A try of the first transaction of task `i`. -/
def Act.IsTry (i : ℕ) : Act → Prop
  | .deadlock j => j = i
  | .reserve j .. => j = i
  | _ => False

/-- A task that is through with its tries stays as it is. -/
theorem run_tries_of_over {b : Batch} {i : ℕ} {task : Allocation} (ht : b.tasks[i]? = some task)
    (hover : (∃ r, task = .reserved r) ∨ (∃ ok, task = .done ok) ∨ task = .raised)
    {tries : List Act} (htries : ∀ a ∈ tries, a.IsTry i) :
    run (step cfg worker campaign_id) b tries = b := by
  induction tries with
  | nil => rfl
  | cons a tries ih =>
    -- neither a further deadlock nor a further attempt finds the task waiting
    have hidle : b.step cfg worker campaign_id a = b := by
      have ha := htries a (by simp)
      cases a with
      | deadlock j =>
        obtain rfl : j = i := ha
        rcases hover with ⟨r, rfl⟩ | ⟨ok, rfl⟩ | rfl <;> simp only [step, retry, ht]
      | reserve j =>
        obtain rfl : j = i := ha
        rcases hover with ⟨r, rfl⟩ | ⟨ok, rfl⟩ | rfl <;> simp only [step, ht]
      | start | invoke | accept | reject | record | crash | world => exact ha.elim
    rw [run_cons, hidle]
    exact ih fun a ha => htries a (by simp [ha])

/-- The tries of a task that do not end in a reservation. -/
theorem leftAlone_of_tries {b : Batch} {i : ℕ} {clock_now : Time} {attempt : ℕ}
    (hs : b.sys.db.view.Shaped) (ht : b.tasks[i]? = some (.reserving clock_now attempt))
    {tries : List Act} (htries : ∀ a ∈ tries, a.IsTry i)
    (hnone : ∀ r, (run (step cfg worker campaign_id) b tries).tasks[i]? ≠ some (.reserved r)) :
    b.sys.db.LeftAlone campaign_id (run (step cfg worker campaign_id) b tries).sys.db := by
  induction tries generalizing b attempt with
  | nil => exact Or.inl rfl
  | cons a tries ih =>
    have ha := htries a (by simp)
    have htries' : ∀ a ∈ tries, a.IsTry i := fun a ha => htries a (by simp [ha])
    have hlt : i < b.tasks.length := (List.getElem?_eq_some_iff.mp ht).1
    have hmoved : ∀ task sys, (b.move i task sys).tasks[i]? = some task :=
      fun task sys => List.getElem?_set_self hlt
    rw [run_cons] at hnone ⊢
    cases a with
    | deadlock j =>
      obtain rfl : j = i := ha
      simp only [step, retry, ht] at hnone ⊢
      split at hnone
      · rename_i hmore
        rw [if_pos hmore]
        exact ih hs (hmoved _ _) htries' hnone
      · -- the last try gives up
        rename_i hlast
        rw [if_neg hlast, run_tries_of_over (hmoved _ _) (Or.inr (Or.inl ⟨_, rfl⟩)) htries']
        exact Or.inl rfl
    | reserve j now lockedAgents lockedBorrowers pick =>
      obtain rfl : j = i := ha
      simp only [step, ht] at hnone ⊢
      have hover : ∀ task, (∃ r, task = Allocation.reserved r) ∨ (∃ ok, task = .done ok) ∨
          task = .raised → run (step cfg worker campaign_id) (b.move j task (SmartDialer.step cfg
            b.sys (.reserveAndCreate now clock_now lockedAgents lockedBorrowers pick worker
              campaign_id))) tries = b.move j task _ :=
        fun task htask => run_tries_of_over (hmoved _ _) htask htries'
      have hdb : (SmartDialer.step cfg b.sys (.reserveAndCreate now clock_now lockedAgents
          lockedBorrowers pick worker campaign_id)).db = (reserveAndCreate now lockedAgents
            lockedBorrowers pick worker campaign_id (reserveUntil clock_now cfg)).commit b.sys.db :=
        Sys.allocate_db _ _ _
      cases hres : (reserveAndCreate now lockedAgents lockedBorrowers pick worker campaign_id
          (reserveUntil clock_now cfg)).result b.sys.db with
      | none =>
        rw [hover _ (Or.inr (Or.inr rfl)), move_sys, hdb]
        exact reserveAndCreate_commit hs fun r => by simp [hres]
      | some o =>
        cases o with
        | none =>
          rw [hover _ (Or.inr (Or.inl ⟨_, rfl⟩)), move_sys, hdb]
          exact reserveAndCreate_commit hs fun r => by simp [hres]
        | some r =>
          simp only [hres] at hnone
          rw [hover _ (Or.inl ⟨r, rfl⟩)] at hnone
          exact absurd (hmoved _ _) (hnone r)
    | start | invoke | accept | reject | record | crash | world => exact ha.elim

/-- **Compensation.** In every run of a batch over a reachable state, whatever happened before and
    between: the tries that a task makes of its first transaction, however many deadlock and however
    the last one ends, leave the database as it was unless they reserve, but for the version and the
    timestamps of one available agent and the timestamp of its campaign's counters. -/
theorem tries_leave (cfg : Settings) (worker : String) (campaign_id : ℕ)
    (acts : List SmartDialer.Act) (n : ℕ) (before : List Act) (i : ℕ) (tries : List Act)
    (htries : ∀ a ∈ tries, a.IsTry i) :
    let b := run (step cfg worker campaign_id)
      (begin (run (SmartDialer.step cfg) Sys.init acts) n) before
    let b' := run (step cfg worker campaign_id) b tries
    (∃ clock_now attempt, b.tasks[i]? = some (.reserving clock_now attempt)) →
      (∀ r, b'.tasks[i]? ≠ some (.reserved r)) → b.sys.db.LeftAlone campaign_id b'.sys.db := by
  intro b b' hstart hnone
  obtain ⟨clock_now, attempt, ht⟩ := hstart
  have hs : b.sys.db.view.Shaped :=
    shaped_run (live_run cfg acts) (SmartDialer.shaped_run cfg acts) n before
  exact leftAlone_of_tries hs ht htries hnone

/-- One agent is logged in, and there is no borrower. -/
def idleRun : List SmartDialer.Act := [.createAgent 0 7 "ext-1", .login 0 1]

/-- The second try finds no borrower. -/
theorem tries_leave_idle :
    let b := run (step .default "w1" 7)
      (begin (run (SmartDialer.step .default) Sys.init idleRun) 1) [.start 0 5]
    let b' := run (step .default "w1" 7) b [.deadlock 0, .reserve 0 6 [] [] (some "mock")]
    b'.tasks = [.done false] ∧ b.sys.db.LeftAlone 7 b'.sys.db := by
  intro b b'
  have hdone : b'.tasks = [.done false] := by decide +kernel
  refine ⟨hdone, tries_leave .default "w1" 7 idleRun 1 [.start 0 5] 0
    [.deadlock 0, .reserve 0 6 [] [] (some "mock")] ?_ ⟨5, 0, by decide +kernel⟩ ?_⟩
  · intro a ha
    simp only [List.mem_cons, List.not_mem_nil, or_false] at ha
    rcases ha with rfl | rfl <;> rfl
  · intro r hr
    have htasks : b'.tasks[0]? = some (.reserved r) := hr
    rw [hdone] at htasks
    cases htasks

end Batch

/-- The trigger has written the time into the counters of the campaign, and changed no number. -/
theorem reserveAndCreate_none_counters :
    let db := (run (step .default) Sys.init Batch.idleRun).db
    let x := reserveAndCreate 6 [] [] (some "mock") "w1" 7 (reserveUntil 5 .default)
    x.result db = some none ∧ (x.commit db).campaign_counters ≠ db.campaign_counters ∧
      (x.commit db).campaign_counters.get? 7 =
        (db.campaign_counters.get? 7).map fun r => { r with updated_at := 6 } := by
  decide +kernel

end SmartDialer
