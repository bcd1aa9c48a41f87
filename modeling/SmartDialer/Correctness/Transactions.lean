import SmartDialer.System
import SmartDialer.Correctness.Counters
import SmartDialer.Correctness.Fencing

namespace SmartDialer

open Relational

/-!
# Transactions are runs of statements

Counters and fences are laws of single statements on `agents` and `calls`.  Every transaction of
the program is made of such statements and of writes to other tables, so the laws hold in every
state that the system reaches.

* `step_writes` — an action of the system is a sequence of such writes.
* `snapshots_agree`, `agent_eq_of_version` — so the snapshots agree in every state reached, and an
  agent that is found at the version it had has not been touched in between.
-/

/-- One write: a statement on `agents` or `calls`, or anything that leaves them and their counters
    alone. -/
inductive Db.Write (db : Db) : Db → Prop
  | stmt (s : Stmt) : Write db (s.exec db)
  | elsewhere {db' : Db} (ha : db'.agents = db.agents) (hc : db'.calls = db.calls)
      (hk : db'.campaign_counters = db.campaign_counters) : Write db db'

/-- A sequence of writes. -/
abbrev Db.Writes : Db → Db → Prop := Relation.ReflTransGen Db.Write

/-- The program makes such writes only. -/
structure Writing {α : Type} (x : Tx α) : Prop where
  within : x.Within Db.Writes

section

variable {α β : Type}

/-- A program that does nothing writes nothing. -/
private theorem writing_pure (a : α) : Writing (pure a : Tx α) :=
  ⟨Txn.within_pure (fun _ => .refl) a⟩

/-- Programs that make such writes only may follow each other. -/
private theorem Writing.bind {x : Tx α} {f : α → Tx β} (hx : Writing x)
    (hf : ∀ a, Writing (f a)) : Writing (x >>= f) :=
  ⟨hx.within.bind (fun _ _ _ => .trans) fun a => (hf a).within⟩

/-- A loop over such programs is one. -/
private theorem Writing.forM {f : α → Tx PUnit} (hf : ∀ a, Writing (f a)) (l : List α) :
    Writing (forM l f) :=
  ⟨Txn.Within.forM (fun _ => .refl) (fun _ _ _ => .trans) (fun a => (hf a).within) l⟩

/-- A program that is one statement. -/
private theorem writing_stmt {x : Tx α} (s : Stmt) (h : ∀ db, s.exec db = x.commit db) :
    Writing x := by
  refine ⟨fun db a db' hrun => ?_⟩
  rw [← (Txn.commit_of_run hrun).1, ← h]
  exact .single (.stmt s)

/-- A program that only reads. -/
private theorem writing_read (f : Db → α) :
    Writing (get >>= fun db => pure (f db) : Tx α) := by
  refine ⟨fun db a db' hrun => ?_⟩
  cases hrun
  exact .refl

/-- An update of `borrowers`, and one of `provider_events`. -/
private theorem writing_updateBorrowers (p : ℕ → BorrowerRow → Bool)
    (f : BorrowerRow → BorrowerRow) : Writing (updateBorrowers p f) := by
  refine ⟨fun db a db' hrun => ?_⟩
  cases hrun
  exact .single (.elsewhere rfl rfl rfl)

/-- The ledger is elsewhere: neither agents nor calls are in it. -/
private theorem writing_updateEvents (p : ℕ → EventRow → Bool) (f : EventRow → EventRow) :
    Writing (updateEvents p f) := by
  refine ⟨fun db a db' hrun => ?_⟩
  cases hrun
  exact .single (.elsewhere rfl rfl rfl)

end

/-! ### The statements of the repositories -/

/-- `FORCE_STATE` is one statement on `agents`. -/
private theorem writing_forceState (now : Time) (agent_id : ℕ) (state : AgentState)
    (worker : Option String) (lease_until : Option Time) (call_id : Option ℕ) :
    Writing (AgentRepo.forceState now agent_id state worker lease_until call_id) :=
  writing_stmt (.forceState now agent_id state worker lease_until call_id) fun _ => rfl

/-- `ADVANCE` is one statement on `calls`. -/
private theorem writing_advance (now : Time) (call_id : ℕ) (state : CallState)
    (pcid : Option String) (lease_until : Option Time) (reason : Option String) :
    Writing (CallRepo.advance now call_id state pcid lease_until reason) :=
  writing_stmt (.advance now call_id state pcid lease_until reason) fun _ => rfl

/-- `RESCHEDULE` is elsewhere, on `borrowers`. -/
private theorem writing_reschedule (now : Time) (borrower_id : ℕ) (backoff : Time) :
    Writing (BorrowerRepo.reschedule now borrower_id backoff) :=
  (writing_updateBorrowers _ _).bind fun _ => writing_pure _

/-- `on_call_terminal` is elsewhere, on `borrowers`. -/
private theorem writing_onCallTerminal (now : Time) (borrower_id : ℕ) (call_state : CallState)
    (backoff : Time) :
    Writing (BorrowerRepo.onCallTerminal now borrower_id call_state backoff) := by
  unfold BorrowerRepo.onCallTerminal
  split
  · exact (writing_updateBorrowers _ _).bind fun _ => writing_pure _
  · exact writing_reschedule now borrower_id backoff

/-- `MARK` is elsewhere, on the ledger. -/
private theorem writing_mark (event_id : ℕ) (applied : Bool) (anomaly : Option Anomaly)
    (call_id : Option ℕ) : Writing (EventRepo.mark event_id applied anomaly call_id) :=
  (writing_updateEvents _ _).bind fun _ => writing_pure _

/-- `CLAIM_ONE` is elsewhere, on `borrowers`. -/
private theorem writing_claimOne (now : Time) (locked : List ℕ) (campaign_id : ℕ) (worker : String)
    (lease_until : Time) :
    Writing (BorrowerRepo.claimOne now locked campaign_id worker lease_until) := by
  refine ⟨fun db a db' hrun => ?_⟩
  cases hrun
  exact .single (.elsewhere rfl rfl rfl)

/-- Adding a borrower is elsewhere. -/
private theorem writing_seed (now : Time) (campaign_id : ℕ) (phone : String) (priority : ℤ)
    (max_attempts : ℕ) :
    Writing (BorrowerRepo.seed now campaign_id phone priority max_attempts) := by
  refine ⟨fun db a db' hrun => ?_⟩
  change (if _ then _ else _) = _ at hrun
  split at hrun
  · cases hrun
    exact .single (.elsewhere rfl rfl rfl)
  · cases hrun
    exact .refl

/-- `INGEST` is elsewhere, on the ledger. -/
private theorem writing_ingest (now : Time) (provider event_id : String)
    (call_ref : Option String) (etype : String) (ts : Time) (payload : String) :
    Writing (EventRepo.ingest now provider event_id call_ref etype ts payload) := by
  refine ⟨fun db a db' hrun => ?_⟩
  change (if _ then _ else _) = _ at hrun
  split at hrun
  · cases hrun
    exact .single (.elsewhere rfl rfl rfl)
  · cases hrun
    exact .refl

/-! ### The transactions of the system -/

/-- The first transaction of an allocation, branch by branch: it reserves, gives the reservation
    back, or creates the call. -/
theorem writing_reserveAndCreate (now : Time) (lockedAgents lockedBorrowers : List ℕ)
    (pick : Option String) (worker : String) (campaign_id : ℕ) (lease : Time) :
    Writing (reserveAndCreate now lockedAgents lockedBorrowers pick worker campaign_id lease) := by
  unfold reserveAndCreate
  apply Writing.bind (writing_read _)
  intro cands
  split
  · exact writing_pure _
  rename_i a _
  refine Writing.bind (writing_stmt (.reserve now a.1 a.2 worker lease) fun _ => rfl) fun won => ?_
  split
  swap
  · exact writing_pure _
  apply (writing_claimOne now lockedBorrowers campaign_id worker lease).bind
  intro claimed
  split
  · -- no borrower: the agent is given back
    exact (writing_forceState ..).bind fun _ => writing_pure _
  rename_i b
  split
  · apply (writing_forceState ..).bind
    intro _
    -- no provider: agent and borrower are given back
    exact ((writing_updateBorrowers _ _).bind fun _ => writing_pure _).bind fun _ => writing_pure _
  rename_i provider
  exact Writing.bind (writing_stmt (.createCall now campaign_id a.1 b.1 provider _ _ worker lease)
    fun _ => rfl) fun _ => writing_pure _

/-- The second transaction after a `ProviderError`. -/
theorem writing_recordRejected (now : Time) (r : Reservation) : Writing (recordRejected now r) :=
  (writing_advance ..).bind fun _ => (writing_forceState ..).bind fun _ => writing_reschedule ..

/-- The second transaction after an accepted call. -/
theorem writing_recordInitiated (now : Time) (r : Reservation) (pcid worker : String)
    (dial_lease : Time) : Writing (recordInitiated now r pcid worker dial_lease) :=
  (writing_advance ..).bind fun _ => (writing_forceState ..).bind fun _ => writing_pure _

/-- The transaction of a pullback. -/
theorem writing_cancelCandidate (now : Time) (call_id : ℕ) :
    Writing (cancelCandidate now call_id) := by
  unfold cancelCandidate
  refine Writing.bind (writing_stmt (.cancelIfNotAnswered now call_id "SAFETY_PULLBACK")
    fun _ => rfl) fun row => ?_
  split
  · exact writing_pure _
  split
  · exact (writing_forceState ..).bind fun _ => (writing_onCallTerminal ..).bind fun _ =>
      writing_pure _
  · exact (writing_onCallTerminal ..).bind fun _ => writing_pure _

/-- The transaction of the reaper, its loop over the orphans included. -/
theorem writing_reap (now now_ts : Time) (registry : Option (List String)) :
    Writing (reap now now_ts registry) := by
  -- an orphan without an agent has only its borrower put off
  have horphan : ∀ o, Writing (releaseOrphan now o) := by
    intro o
    unfold releaseOrphan
    split
    · exact (writing_forceState ..).bind fun _ => writing_reschedule ..
    · exact writing_reschedule ..
  unfold reap
  refine Writing.bind (writing_stmt (.failOrphanCalls now now_ts) fun _ => rfl) fun orphans => ?_
  apply (Writing.forM horphan orphans).bind
  intro _
  refine Writing.bind (writing_stmt (.reclaimAgents now now_ts) fun _ => rfl) fun _ => ?_
  refine Writing.bind (writing_stmt (.releaseWrapup now now_ts) fun _ => rfl) fun _ => ?_
  exact (writing_updateBorrowers _ _).bind fun _ => writing_pure _

/-- The second half of `apply_one`, branch by branch. -/
theorem writing_applyOneWrite (now : Time) (ev : ℕ × EventRow) (read : ReadResult)
    (clock_now wrapup : Time) : Writing (applyOneWrite now ev read clock_now wrapup) := by
  -- the writes of the branches first, then the branches themselves
  have hbridge : ∀ row, Writing (tryBridge now row) := by
    intro row
    unfold tryBridge
    split
    · refine Writing.bind (writing_read _) fun agent => (writing_advance ..).bind fun won => ?_
      split <;> exact writing_pure _
    · refine (writing_pure none).bind fun agent => (writing_advance ..).bind fun won => ?_
      split <;> exact writing_pure _
  have heffects : ∀ row final_state,
      Writing (applySideEffects now row final_state clock_now wrapup) := by
    intro row final_state
    have hlast : Writing (if final_state ∈ terminal then
        BorrowerRepo.onCallTerminal now row.2.borrower_id final_state (secs 60)
        else pure ⟨⟩) := by
      split
      · exact writing_onCallTerminal ..
      · exact writing_pure _
    unfold applySideEffects
    cases agentOnCallState final_state with
    | none => exact hlast
    | some agent_state =>
      cases row.2.agent_id with
      | none => exact hlast
      | some agent_id => exact (writing_forceState ..).bind fun _ => hlast
  unfold applyOneWrite
  split
  · exact (writing_mark ..).bind fun _ => writing_pure _
  · exact writing_pure _
  · exact (writing_mark ..).bind fun _ => writing_pure _
  apply (writing_advance ..).bind
  intro row
  split
  · exact (writing_mark ..).bind fun _ => writing_pure _
  rename_i call_id incoming _ row
  -- a won race is followed by the side effects and the mark
  have hrest : ∀ final_state, Writing (applySideEffects now row final_state clock_now wrapup >>=
      fun _ => EventRepo.mark ev.1 true none (some call_id) >>= fun _ =>
        pure (some final_state)) :=
    fun final_state => (heffects row final_state).bind fun _ => (writing_mark ..).bind fun _ =>
      writing_pure _
  simp only
  split
  · exact (hbridge row).bind hrest
  · exact (writing_pure incoming).bind hrest

/-- The transaction of a drain, event by event. -/
theorem writing_commitDrain (cfg : Settings) (d : Drain) : Writing (commitDrain cfg d) := by
  have hplan : ∀ plan, Writing (applyPlan cfg d.now plan) := by
    intro plan
    induction plan with
    | nil => exact writing_pure _
    | cons p plan ih =>
      exact (writing_applyOneWrite ..).bind fun _ => ih.bind fun _ => writing_pure _
  exact (hplan d.plan).bind fun _ => (writing_updateEvents _ _).bind fun _ => writing_pure _

/-! ### The system -/

/-- **Step.** An action of the system is a sequence of writes. -/
theorem step_writes (cfg : Settings) (s : Sys) (a : Act) : s.db.Writes (step cfg s a).db := by
  -- a transaction that fails writes nothing
  have hcommit : ∀ {α : Type} {x : Tx α}, Writing x → s.db.Writes (x.commit s.db) :=
    fun hx => hx.within.commit (fun _ => .refl) s.db
  have hsettle : ∀ (call_id : ℕ) (x : Attempt → Tx PUnit), (∀ a, Writing (x a)) →
      s.db.Writes (s.settle call_id x).db := by
    intro call_id x hx
    rcases s.settle_cases call_id x with ⟨a, _, _, hdb, _⟩ | hs
    · rw [hdb]
      exact hcommit (hx a)
    · rw [hs]
  cases a with
  | createAgent now campaign_id ext_ref =>
    exact hcommit (writing_stmt (.createAgent now campaign_id ext_ref) fun _ => rfl)
  | login => exact hcommit (writing_forceState ..)
  | logout => exact hcommit (writing_forceState ..)
  | pause => exact hcommit (writing_forceState ..)
  | seed => exact hcommit (writing_seed ..)
  | reserveAndCreate =>
    rw [step, Sys.allocate_db]
    exact hcommit (writing_reserveAndCreate ..)
  | placeCall call_id =>
    rw [step, Sys.placeCall_db]
  | rejected now call_id => exact hsettle call_id _ fun a => writing_recordRejected ..
  | accepted now clock_now call_id pcid =>
    exact hsettle call_id _ fun a => writing_recordInitiated ..
  | abandon call_id => exact .refl
  | pullback => exact hcommit (writing_cancelCandidate ..)
  | reap => exact hcommit (writing_reap ..)
  | ingest => exact hcommit (writing_ingest ..)
  | fetch now w limit =>
    obtain ⟨rows, hs, _⟩ := s.fetch_cases now w limit
    rw [step, hs]
  | read clock_now w =>
    rcases s.read_cases cfg clock_now w with ⟨_, _, _, _, _, _, _, hs⟩ | hs <;> rw [step, hs]
  | commit w =>
    rcases s.commit_cases cfg w with ⟨now, plan, _, _, hs⟩ | hs
    · rw [step, hs]
      exact hcommit (writing_commitDrain ..)
    · rw [step, hs]
  | rollback w => exact .refl

/-- **Run.** Any two points of a run are apart by such writes only. -/
theorem run_writes (cfg : Settings) (s : Sys) (acts : List Act) :
    s.db.Writes (run (step cfg) s acts).db :=
  related_run (I := fun _ => True) (R := fun s s' : Sys => s.db.Writes s'.db) (fun _ => .refl)
    (fun _ _ _ => .trans) (fun _ _ _ => trivial) (fun s a _ => step_writes cfg s a) trivial acts

/-- Writes keep the counters in step with the rows. -/
theorem Agree.of_writes {db db' : Db} (h : Agree db) (hw : db.Writes db') : Agree db' := by
  induction hw with
  | refl => exact h
  | tail _ hlast ih =>
    cases hlast with
    | stmt s => exact agree_exec ih s
    | elsewhere ha hc hk =>
      -- a write elsewhere leaves all three tables as they are
      refine ⟨fun k c => ?_, fun i a hi => ?_, fun i r hi => ?_⟩
      · rw [hk, ha, hc]
        exact ih.reads k c
      · rw [ha] at hi
        rw [hk]
        exact ih.agents i a hi
      · rw [hc] at hi
        rw [hk]
        exact ih.calls i r hi

/-- Writes leave each agent alone or raise its version. -/
theorem fenced_of_writes {db db' : Db} (hw : db.Writes db') : Fenced db db' := by
  induction hw with
  | refl => exact Fenced.refl db
  | tail _ hlast ih =>
    apply Fenced.trans _ _ _ ih
    cases hlast with
    | stmt s => exact fenced_exec _ s
    | elsewhere ha _ _ => exact fun i a hi => ⟨a, by rw [ha]; exact hi, Or.inl rfl⟩

/-- **Snapshots.** In every state that the system reaches, the two snapshots of every campaign
    agree. -/
theorem snapshots_agree {σ : Type} (resolvedStats : ℕ → Db → σ) (campaign_id : ℕ)
    (clock_now : Time) (cfg : Settings) (acts : List Act) :
    MetricsRepo.snapshotFast resolvedStats campaign_id clock_now
        (run (step cfg) Sys.init acts).db
      = MetricsRepo.snapshotNaive resolvedStats campaign_id clock_now
        (run (step cfg) Sys.init acts).db :=
  MetricsRepo.snapshotFast_eq_of_agree resolvedStats campaign_id clock_now
    (agree_empty.of_writes (run_writes cfg Sys.init acts))

/-- **Versions.** Between two states of a run of the system, an agent whose version is the same
    has not been touched. -/
theorem agent_eq_of_version (cfg : Settings) {s : Sys} (acts more : List Act) {i : ℕ}
    {a c : AgentRow} (ha : s.db.agents.get? i = some a)
    (hc : (run (step cfg) s (acts ++ more)).db.agents.get? i = some c)
    (hver : c.version = a.version) :
    (run (step cfg) s acts).db.agents.get? i = some a ∧ c = a := by
  have h₁ := fenced_of_writes (run_writes cfg s acts)
  have h₂ := fenced_of_writes (run_writes cfg (run (step cfg) s acts) more)
  rw [← run_append] at h₂
  exact h₁.eq_of_version h₂ ha hc hver

end SmartDialer
