import SmartDialer.Correctness.Lifecycle

namespace SmartDialer

open Relational

/-!
# The nullable columns of agents and borrowers

Which of `lease_owner`, `lease_expires_at` and `current_call_id` are set is decided by the state of
an agent, although five statements write them one by one; and only a locked borrower has a lock.

* `AgentRow.Shaped`, `BorrowerRow.Shaped` — the columns that go with the states.
* `shaped_run` — they hold in every reachable state.
* `agents_shaped` — a tick of the reaper after all leases leaves nobody reserved or in wrap-up.
-/

/-- The columns that go with the state of an agent. -/
def AgentRow.Shaped (a : AgentRow) : Prop :=
  match a.state with
  | .RESERVED =>
    a.lease_expires_at ≠ none ∧ a.lease_owner ≠ none ∧ a.current_call_id = none
  | .WRAP_UP =>
    a.lease_expires_at ≠ none ∧ a.lease_owner = none ∧ a.current_call_id = none
  | .DIALING => a.current_call_id ≠ none
  | .AVAILABLE | .CONNECTED | .OFFLINE | .PAUSED =>
    a.lease_expires_at = none ∧ a.lease_owner = none ∧ a.current_call_id = none

/-- The columns that go with the state of a borrower. -/
def BorrowerRow.Shaped (b : BorrowerRow) : Prop :=
  b.state ≠ .LOCKED → b.locked_by = none ∧ b.locked_until = none

/-! ### Agents -/

namespace AgentRow

variable {a : AgentRow}

/-- A reservation sets lease and owner; the agent was available, so it has no call. -/
theorem Shaped.reservedRow (h : a.Shaped) (hs : a.state = .AVAILABLE) (now : Time)
    (worker : String) (lease_until : Time) :
    (AgentRepo.reservedRow now worker lease_until a).Shaped := by
  unfold Shaped at h
  rw [hs] at h
  -- the call is the one column that the statement leaves alone
  exact ⟨Option.some_ne_none _, Option.some_ne_none _, h.2.2⟩

/-- Forced without arguments, a row has nothing but its state. -/
theorem shaped_forcedRow (now : Time) {state : AgentState} (hs : state = .AVAILABLE ∨
    state = .CONNECTED ∨ state = .OFFLINE ∨ state = .PAUSED) (a : AgentRow) :
    (AgentRepo.forcedRow now state none none none a).Shaped := by
  rcases hs with rfl | rfl | rfl | rfl <;> exact ⟨rfl, rfl, rfl⟩

/-- Wrapping up has a lease, and neither owner nor call. -/
theorem shaped_forcedRow_wrapup (now lease_until : Time) (a : AgentRow) :
    (AgentRepo.forcedRow now .WRAP_UP none (some lease_until) none a).Shaped :=
  ⟨Option.some_ne_none _, rfl, rfl⟩

/-- Dialing has a call, which is all that is asked of it. -/
theorem shaped_forcedRow_dialing (now : Time) (worker : Option String) (lease_until : Option Time)
    (call_id : ℕ) (a : AgentRow) :
    (AgentRepo.forcedRow now .DIALING worker lease_until (some call_id) a).Shaped :=
  Option.some_ne_none _

/-- A reclaimed agent is available, or still dialing its call. -/
theorem Shaped.reclaimedRow (h : a.Shaped) {now_ts : Time} (hr : isReclaimed now_ts a = true)
    (now : Time) : (SmartDialer.reclaimedRow now a).Shaped := by
  simp only [isReclaimed, Bool.and_eq_true, Bool.or_eq_true, beq_iff_eq] at hr
  unfold Shaped at h ⊢
  rcases hr.1 with hs | hs
  · have hstate : (SmartDialer.reclaimedRow now a).state = .AVAILABLE := if_pos hs
    rw [hs] at h
    rw [hstate]
    exact ⟨rfl, rfl, h.2.2⟩
  · have hstate : (SmartDialer.reclaimedRow now a).state = .DIALING := by
      simp [SmartDialer.reclaimedRow, hs]
    rw [hs] at h
    rw [hstate]
    exact h

/-- The sweep of `RELEASE_WRAPUP` clears the lease that the state had. -/
theorem Shaped.wrapupReleasedRow (h : a.Shaped) {now_ts : Time} (hr : isWrapupOver now_ts a = true)
    (now : Time) : (SmartDialer.wrapupReleasedRow now a).Shaped := by
  simp only [isWrapupOver, Bool.and_eq_true, beq_iff_eq] at hr
  unfold Shaped at h
  rw [hr.1] at h
  exact ⟨rfl, h.2.1, rfl⟩

end AgentRow

/-! ### Borrowers -/

namespace BorrowerRow

variable {b : BorrowerRow}

/-- Nothing is asked of a locked borrower. -/
theorem shaped_lockedRow (worker : String) (lease_until : Time) (b : BorrowerRow) :
    (BorrowerRepo.lockedRow worker lease_until b).Shaped := fun h => absurd rfl h

/-- Unlocking a borrower clears the lock. -/
theorem shaped_unlockedRow (b : BorrowerRow) : (BorrowerRepo.unlockedRow b).Shaped :=
  fun _ => ⟨rfl, rfl⟩

/-- Putting a borrower off clears the lock. -/
theorem shaped_rescheduledRow (now backoff : Time) (b : BorrowerRow) :
    (BorrowerRepo.rescheduledRow now backoff b).Shaped := fun _ => ⟨rfl, rfl⟩

/-- The end of a call clears the lock of its borrower. -/
theorem shaped_endedRow (now : Time) (call_state : CallState) (backoff : Time) (b : BorrowerRow) :
    (BorrowerRepo.endedRow now call_state backoff b).Shaped := by
  intro _
  unfold BorrowerRepo.endedRow
  split <;> exact ⟨rfl, rfl⟩

/-- A pending borrower released again is the one it was. -/
theorem Shaped.unlockedRow_lockedRow (h : b.Shaped) (hs : b.state = .PENDING) (worker : String)
    (lease_until : Time) :
    BorrowerRepo.unlockedRow (BorrowerRepo.lockedRow worker lease_until b) = b := by
  obtain ⟨hby, huntil⟩ := h (by rw [hs]; decide)
  obtain ⟨_, _, _, _, _, _, _, _, _⟩ := b
  simp only at hs hby huntil
  rw [hs, hby, huntil]
  rfl

end BorrowerRow

/-! ### Views -/

namespace View

/-- All agents and borrowers have the columns of their states. -/
structure Shaped (v : View) : Prop where
  agents : ∀ i a, v.agents.get? i = some a → a.Shaped
  borrowers : ∀ k b, v.borrowers.get? k = some b → b.Shaped

variable {v : View}

/-- Unwritten tables keep their shape. -/
theorem Shaped.of_eq {v' : View} (h : v.Shaped) (ha : v'.agents = v.agents)
    (hb : v'.borrowers = v.borrowers) : v'.Shaped := ⟨ha ▸ h.agents, hb ▸ h.borrowers⟩

/-- Writing a call writes neither agents nor borrowers. -/
theorem Shaped.setCall (h : v.Shaped) (i : ℕ) (c : CallRow) (f : CallRow → CallRow) :
    (v.setCall i c f).Shaped := h.of_eq rfl rfl

/-- Writing a ledger row writes neither agents nor borrowers. -/
theorem Shaped.setEvent (h : v.Shaped) (i : ℕ) (f : EventRow → EventRow) :
    (v.setEvent i f).Shaped := h.of_eq rfl rfl

/-- An update of agents under a filter. -/
theorem Shaped.modifyAgents (h : v.Shaped) {p : ℕ → AgentRow → Bool} {f : AgentRow → AgentRow}
    (hf : ∀ i a, v.agents.get? i = some a → p i a = true → (f a).Shaped) :
    Shaped { v with agents := v.agents.modify p f } where
  agents i a' ha' := by
    obtain ⟨a, ha, rfl⟩ := Table.exists_of_get?_modify ha'
    split
    · rename_i hp
      exact hf i a ha hp
    · exact h.agents i a ha
  borrowers := h.borrowers

/-- A statement on borrowers keeps the shape if it leaves shaped rows. -/
theorem Shaped.modifyBorrowers (h : v.Shaped) {p : ℕ → BorrowerRow → Bool}
    {f : BorrowerRow → BorrowerRow} (hf : ∀ b, (f b).Shaped) :
    Shaped { v with borrowers := v.borrowers.modify p f } where
  agents := h.agents
  borrowers k b' hb' := by
    obtain ⟨b, hb, rfl⟩ := Table.exists_of_get?_modify hb'
    split
    · exact hf b
    · exact h.borrowers k b hb

/-- Writing one agent keeps the shape if it leaves a shaped row. -/
theorem Shaped.setAgent (h : v.Shaped) {i : ℕ} {f : AgentRow → AgentRow}
    (hf : ∀ a, v.agents.get? i = some a → (f a).Shaped) : (v.setAgent i f).Shaped :=
  h.modifyAgents fun _ a ha hj => hf a (beq_iff_eq.mp hj ▸ ha)

/-- Writing the agent of a call keeps the shape, also where the call has none. -/
theorem Shaped.setAgentOf (h : v.Shaped) (o : Option ℕ) {f : AgentRow → AgentRow}
    (hf : ∀ a, (f a).Shaped) : (v.setAgentOf o f).Shaped := by
  cases o with
  | none => exact h
  | some i => exact h.setAgent fun a _ => hf a

/-- Writing one borrower keeps the shape if it leaves a shaped row. -/
theorem Shaped.setBorrower (h : v.Shaped) {k : ℕ} {f : BorrowerRow → BorrowerRow}
    (hf : ∀ b, (f b).Shaped) : (v.setBorrower k f).Shaped := h.modifyBorrowers hf

end View

/-! ### Transactions -/

section

variable {now : Time} {db : Db}

/-- The agents after a reservation that is taken back are those of a release. -/
theorem Allocated.shaped {lockedBorrowers : List ℕ} {worker : String} {campaign_id : ℕ}
    {lease : Time} {o : Option Reservation} {v : View}
    (h : Allocated now lockedBorrowers worker campaign_id lease db o v) (hs : db.view.Shaped) :
    v.Shaped := by
  have hfree : ∀ a, (AgentRepo.forcedRow now .AVAILABLE none none none a).Shaped :=
    AgentRow.shaped_forcedRow now (Or.inl rfl)
  -- the reservation starts from an AVAILABLE row, whose shape leaves nothing to keep
  have hreserve : ∀ {i a}, db.agents.get? i = some a → a.state = .AVAILABLE →
      (db.view.setAgent i (AgentRepo.reservedRow now worker lease)).Shaped := by
    intro i a ha hav
    apply hs.setAgent
    intro a' ha'
    have hrow : a = a' := Option.some.inj (ha.symm.trans ha')
    exact (hs.agents i a' ha').reservedRow (hrow ▸ hav) now worker lease
  -- one case for each way out of the transaction; early exits undo what they took
  cases h with
  | noAgent => exact hs
  | noBorrower ha hav => exact (hreserve ha hav).setAgent fun a _ => hfree a
  | noProvider ha hav hb hc =>
    exact (((hreserve ha hav).setBorrower (BorrowerRow.shaped_lockedRow worker lease)).setAgent
      fun a _ => hfree a).setBorrower BorrowerRow.shaped_unlockedRow
  | created ha hav hac hb hc hl hkey =>
    exact ((hreserve ha hav).setBorrower (BorrowerRow.shaped_lockedRow worker lease)).of_eq rfl rfl

/-- The transaction after a `ProviderError` releases its agent and puts off its borrower. -/
theorem recordRejected_shaped (r : Reservation) (hs : db.view.Shaped) :
    ((recordRejected now r).commit db).view.Shaped := by
  obtain ⟨db₁, db', hrun, hview, hcall⟩ := recordRejected_run now r db
  have hfail : db₁.view.Shaped := by
    rcases hcall with ⟨rfl, _⟩ | ⟨c, _, _, hv⟩
    · exact hs
    · exact hv ▸ hs.setCall _ _ _
  rw [(Txn.commit_of_run hrun).1, hview]
  exact (hfail.setAgent fun a _ => AgentRow.shaped_forcedRow now (Or.inl rfl) a).setBorrower
    (BorrowerRow.shaped_rescheduledRow now _)

/-- The transaction after an accepted call names the call in its agent's row. -/
theorem recordInitiated_shaped (r : Reservation) (pcid worker : String) (dial_lease : Time)
    (hs : db.view.Shaped) :
    ((recordInitiated now r pcid worker dial_lease).commit db).view.Shaped := by
  rcases Txn.commit_cases (recordInitiated now r pcid worker dial_lease) db with
    ⟨_, hrun, _⟩ | ⟨h, _⟩
  · obtain ⟨db₁, hview, hcall⟩ := recordInitiated_cases hrun
    have hadv : db₁.view.Shaped := by
      rcases hcall with ⟨rfl, _⟩ | ⟨c, _, _, hv⟩
      · exact hs
      · exact hv ▸ hs.setCall _ _ _
    rw [hview]
    exact hadv.setAgent fun a _ => AgentRow.shaped_forcedRow_dialing now _ _ _ a
  · rw [h]; exact hs

/-- A pullback releases the agent of the call and puts off its borrower. -/
theorem cancelCandidate_shaped (call_id : ℕ) (hs : db.view.Shaped) :
    ((cancelCandidate now call_id).commit db).view.Shaped := by
  obtain ⟨b, db', hrun, hcall⟩ := cancelCandidate_run now call_id db
  rw [(Txn.commit_of_run hrun).1]
  rcases hcall with ⟨_, rfl⟩ | ⟨c, _, _, _, hv⟩
  · exact hs
  · rw [hv]
    exact ((hs.setCall _ _ _).setAgentOf _ (AgentRow.shaped_forcedRow now (Or.inl rfl))).setBorrower
      (BorrowerRow.shaped_endedRow now _ _)

/-- A tick of the reaper, orphan by orphan and then sweep by sweep. -/
theorem View.Shaped.reap {v : View} (hs : v.Shaped) (now_ts : Time) :
    (v.reap now now_ts).Shaped := by
  rw [View.reap_eq]
  -- the four statements of the reaper in their order, each from the shape before it
  have horphans : View.Shaped ((v.calls.select fun _ c => isOrphan now_ts c).foldl
      (View.failOrphan now) v) := by
    apply View.foldl_failOrphan_induction now now_ts _ hs
    intro v' e hs' _ _ _
    exact ((hs'.setCall _ _ _).setAgentOf _
      (AgentRow.shaped_forcedRow now (Or.inl rfl))).setBorrower
        (BorrowerRow.shaped_rescheduledRow now _)
  have hreclaim := horphans.modifyAgents (p := fun _ a => isReclaimed now_ts a)
    (f := reclaimedRow now) fun i a ha hr => (horphans.agents i a ha).reclaimedRow hr now
  have hwrapup := hreclaim.modifyAgents (p := fun _ a => isWrapupOver now_ts a)
    (f := wrapupReleasedRow now) fun i a ha hr => (hreclaim.agents i a ha).wrapupReleasedRow hr now
  exact hwrapup.modifyBorrowers BorrowerRow.shaped_unlockedRow

/-- The side effects of a transition that an event can bring about.  None of them dials. -/
theorem View.Shaped.sideEffects {v : View} (hs : v.Shaped) (c : CallRow) {final_state : CallState}
    (hf : final_state ≠ .INITIATED) (clock_now wrapup : Time) :
    (v.sideEffects now c final_state clock_now wrapup).Shaped := by
  have hfree : ∀ a, (AgentRepo.forcedRow now .AVAILABLE none none none a).Shaped :=
    AgentRow.shaped_forcedRow now (Or.inl rfl)
  have hwrapup := AgentRow.shaped_forcedRow_wrapup now (clock_now + wrapup)
  have hend : ∀ {v' : View} (s : CallState), v'.Shaped →
      (v'.setBorrower c.borrower_id (BorrowerRepo.endedRow now s (secs 60))).Shaped :=
    fun s h => h.setBorrower (BorrowerRow.shaped_endedRow now s _)
  -- the applier's dispatch: INITIATED is the one state that does not come from an event
  cases final_state with
  | INITIATED => exact absurd rfl hf
  | QUEUED | RESERVED | RINGING | ANSWERED => exact hs
  | CONNECTED => exact hs.setAgentOf _ (AgentRow.shaped_forcedRow now (Or.inr (Or.inl rfl)))
  | COMPLETED => exact hend .COMPLETED (hs.setAgentOf _ hwrapup)
  | FAILED => exact hend .FAILED (hs.setAgentOf _ hfree)
  | CANCELLED => exact hend .CANCELLED (hs.setAgentOf _ hfree)
  | ABANDONED => exact hend .ABANDONED (hs.setAgentOf _ hfree)

/-- The side effects of an event write shaped rows, or none. -/
theorem Applied.shaped {p : Planned} {clock_now wrapup : Time} {o : Option CallState} {v : View}
    (h : Applied now p.event clock_now wrapup db p.read o v) (hp : p.Valid db.view)
    (hs : db.view.Shaped) : v.Shaped := by
  generalize hread : p.read = read at h
  cases h with
  | raised => exact hs
  | unknown | refused | lost => exact hs.setEvent _ _
  | @moved call_id incoming c hi hc hrank =>
    -- an event that was let through is no `INITIATED`, since its call has been dialed before
    have hne : incoming ≠ .INITIATED := by
      rintro rfl
      rcases (hp call_id .INITIATED hread).1 with h | h | h <;> cases h
    exact ((hs.setCall _ _ _).sideEffects c hne clock_now wrapup).setEvent _ _
  | @bridged call_id c answered next hc hrank ha hn =>
    have hne : next ≠ .INITIATED := by
      rcases bridgeState_cases db.agents call_id c with hb | hb <;> rw [hn, hb] <;> decide
    exact (((hs.setCall _ _ _).setCall _ _ _).sideEffects c hne clock_now wrapup).setEvent _ _

/-- A drain keeps the shape, write by write. -/
theorem commitDrain_shaped {cfg : Settings} {d : Drain} (hh : db.view.Healthy)
    (hp : ∀ p ∈ d.plan, p.Valid db.view) (hs : db.view.Shaped) :
    ((commitDrain cfg d).commit db).view.Shaped := by
  rcases Txn.commit_cases (commitDrain cfg d) db with ⟨moved, hrun, _⟩ | ⟨h, _⟩
  · obtain ⟨db₁, h₁, hv⟩ := commitDrain_run hrun
    have hplan := (related_applyPlan (R := fun v v' => v.Shaped → v'.Shaped) (fun _ h => h)
      (fun _ _ _ h h' hs => h' (h hs)) (fun _ _ _ _ _ hp ha => ha.shaped hp) hh hp h₁).1
    rw [hv]
    exact (hplan hs).of_eq rfl rfl
  · rw [h]; exact hs

end

/-! ### Runs -/

/-- There are no rows yet. -/
theorem shaped_init : Sys.init.db.view.Shaped :=
  ⟨fun _ _ h => (by cases h), fun _ _ h => (by cases h)⟩

/-- **Step.** Every action keeps the columns of agents and borrowers in order. -/
theorem shaped_step (cfg : Settings) {s : Sys} (h : s.Live) (hs : s.db.view.Shaped) (a : Act) :
    (step cfg s a).db.view.Shaped := by
  -- staffing forces an agent into a state without a lease
  have hstaffed : ∀ now i state, state = .AVAILABLE ∨ state = .CONNECTED ∨ state = .OFFLINE ∨
      state = .PAUSED →
      (s.db.view.setAgent i (AgentRepo.forcedRow now state none none none)).Shaped :=
    fun now i state hstate => hs.setAgent fun a _ => AgentRow.shaped_forcedRow now hstate a
  cases a with
  | createAgent now campaign_id ext_ref =>
    rcases Txn.commit_cases (AgentRepo.create now campaign_id ext_ref) s.db with
      ⟨i, hrun, _⟩ | ⟨hc, _⟩
    · rw [step, Sys.exec_db, insertAgent_run hrun]
      refine ⟨fun j a ha => ?_, hs.borrowers⟩
      rcases Table.cases_of_get?_push ha with ⟨_, rfl⟩ | hold
      · exact ⟨rfl, rfl, rfl⟩
      · exact hs.agents j a hold
    · rw [step, Sys.exec_db, hc]; exact hs
  | login now agent_id => exact hstaffed now agent_id .AVAILABLE (Or.inl rfl)
  | logout now agent_id => exact hstaffed now agent_id .OFFLINE (Or.inr (Or.inr (Or.inl rfl)))
  | pause now agent_id => exact hstaffed now agent_id .PAUSED (Or.inr (Or.inr (Or.inr rfl)))
  | seed now campaign_id phone priority max_attempts =>
    obtain ⟨db', hrun, hv⟩ := BorrowerRepo.seed_run now campaign_id phone priority max_attempts s.db
    rw [step, Sys.exec_db, (Txn.commit_of_run hrun).1]
    rcases hv with hv | hv <;> rw [hv]
    · refine ⟨hs.agents, fun k b hb => ?_⟩
      rcases Table.cases_of_get?_push hb with ⟨_, rfl⟩ | hold
      · exact fun _ => ⟨rfl, rfl⟩
      · exact hs.borrowers k b hold
    · exact hs
  | reserveAndCreate now clock_now lockedAgents lockedBorrowers pick worker campaign_id =>
    rw [step, Sys.allocate_db]
    rcases Txn.commit_cases (SmartDialer.reserveAndCreate now lockedAgents lockedBorrowers pick
      worker campaign_id (reserveUntil clock_now cfg)) s.db with ⟨o, hrun, _⟩ | ⟨hc, _⟩
    · exact (reserveAndCreate_cases hrun).shaped hs
    · rw [hc]; exact hs
  | placeCall call_id => rw [step, Sys.placeCall_db]; exact hs
  | rejected now call_id =>
    rcases s.settle_cases call_id fun a => recordRejected now a.reservation with
      ⟨a, _, _, hdb, _⟩ | heq
    · rw [step, hdb]; exact recordRejected_shaped a.reservation hs
    · rw [step, heq]; exact hs
  | accepted now clock_now call_id pcid =>
    rcases s.settle_cases call_id fun a =>
        recordInitiated now a.reservation pcid a.worker (dialUntil clock_now cfg) with
      ⟨a, _, _, hdb, _⟩ | heq
    · rw [step, hdb]; exact recordInitiated_shaped a.reservation pcid a.worker _ hs
    · rw [step, heq]; exact hs
  | abandon call_id => exact hs
  | pullback now call_id => exact cancelCandidate_shaped call_id hs
  | reap now clock_now registry =>
    obtain ⟨res, db', hrun, hv⟩ := reap_run now clock_now registry s.db
    rw [step, Sys.reap_db, (Txn.commit_of_run hrun).1, hv]
    exact hs.reap clock_now
  | ingest now provider event_id call_ref etype ts payload =>
    obtain ⟨o, db', hrun, hv⟩ := EventRepo.ingest_run now provider event_id call_ref etype ts
      payload s.db
    rw [step, Sys.exec_db, (Txn.commit_of_run hrun).1]
    rcases hv with ⟨_, _, hv⟩ | ⟨_, _, rfl⟩
    · rw [hv]; exact hs.of_eq rfl rfl
    · exact hs
  | fetch now w limit =>
    obtain ⟨rows, heq, _⟩ := s.fetch_cases now w limit
    rw [step, heq]; exact hs
  | read clock_now w =>
    rcases s.read_cases cfg clock_now w with ⟨_, _, _, _, _, _, _, heq⟩ | heq <;>
      rw [step, heq] <;> exact hs
  | commit w =>
    rcases s.commit_cases cfg w with ⟨now, plan, hd, _, heq⟩ | heq
    · rw [step, heq]
      exact commitDrain_shaped (d := ⟨now, [], plan⟩) h.healthy (h.planned w _ hd) hs
    · rw [step, heq]; exact hs
  | rollback w => exact hs

/-- **Run.** They are in order in every reachable state. -/
theorem shaped_run (cfg : Settings) (acts : List Act) :
    (run (step cfg) Sys.init acts).db.view.Shaped :=
  (invariant_run (I := fun s : Sys => s.Live ∧ s.db.view.Shaped)
    (fun _ a h => ⟨live_step cfg h.1 a, shaped_step cfg h.1 h.2 a⟩) ⟨live_init, shaped_init⟩ acts).2

/-! ### The timers -/

/-- Its lease, if it has one, is over. -/
def AgentRow.Expired (now_ts : Time) (a : AgentRow) : Prop :=
  ∀ e, a.lease_expires_at = some e → e < now_ts

/-- The sweeps release whoever has a lease that is over. -/
theorem AgentRow.sweptAgent_state {a : AgentRow} (h : a.Shaped) {now_ts : Time}
    (he : a.Expired now_ts) (now : Time) :
    (sweptAgent now now_ts a).state ≠ .RESERVED ∧ (sweptAgent now now_ts a).state ≠ .WRAP_UP := by
  -- RESERVED and WRAP_UP always carry a lease, and by now it is over
  have hover : a.lease_expires_at ≠ none → before a.lease_expires_at now_ts = true := by
    intro hne
    obtain ⟨e, hlease⟩ := Option.ne_none_iff_exists'.mp hne
    simp [hlease, he e hlease]
  unfold Shaped at h
  cases hs : a.state with
  | RESERVED =>
    rw [hs] at h
    simp [sweptAgent, isReclaimed, reclaimedRow, isWrapupOver, hs, hover h.1]
  | WRAP_UP =>
    rw [hs] at h
    simp [sweptAgent, isReclaimed, isWrapupOver, wrapupReleasedRow, hs, hover h.1]
  -- a DIALING row may have lost its lease: then the sweep leaves it as it is
  | DIALING =>
    cases hb : before a.lease_expires_at now_ts <;>
      simp [sweptAgent, isReclaimed, reclaimedRow, isWrapupOver, hs, hb]
  | AVAILABLE | CONNECTED | OFFLINE | PAUSED => simp [sweptAgent, isReclaimed, isWrapupOver, hs]

/-- An agent released for each of its orphans is still one without a lease that lasts. -/
private theorem foldl_released (now : Time) {now_ts : Time} (i : ℕ) {a : AgentRow} (h : a.Shaped)
    (he : a.Expired now_ts) (l : List (ℕ × CallRow)) :
    let a' := l.foldl (fun a e => if e.2.agent_id = some i
      then AgentRepo.forcedRow now .AVAILABLE none none none a else a) a
    a'.Shaped ∧ a'.Expired now_ts := by
  induction l generalizing a with
  | nil => exact ⟨h, he⟩
  | cons e l ih =>
    rw [List.foldl_cons]
    split
    · exact ih (AgentRow.shaped_forcedRow now (Or.inl rfl) a) fun e he => by cases he
    · exact ih h he

/-- **Agent rows.** In every reachable state the columns of an agent are those of its state.  So a
    tick of the reaper at a time later than every lease leaves nobody reserved or in wrap-up. -/
theorem agents_shaped (cfg : Settings) (acts : List Act) :
    let s := run (step cfg) Sys.init acts
    (∀ i a, s.db.agents.get? i = some a → a.Shaped) ∧
      ∀ now now_ts registry, (∀ i a e, s.db.agents.get? i = some a →
          a.lease_expires_at = some e → e < now_ts) →
        ∀ i a, (step cfg s (.reap now now_ts registry)).db.agents.get? i = some a →
          a.state ≠ .RESERVED ∧ a.state ≠ .WRAP_UP := by
  intro s
  have hs : s.db.view.Shaped := shaped_run cfg acts
  refine ⟨hs.agents, fun now now_ts registry hlate i a ha => ?_⟩
  rw [step, Sys.reap_db, reap_agents, Table.get?_map] at ha
  obtain ⟨a₀, ha₀, rfl⟩ := Option.map_eq_some_iff.mp ha
  -- a failed orphan frees its agent before the two sweeps of agents see the row
  have hreleased := foldl_released now i (hs.agents i a₀ ha₀)
    (fun e he => hlate i a₀ e ha₀ he) (s.db.calls.select fun _ c => isOrphan now_ts c)
  exact AgentRow.sweptAgent_state hreleased.1 hreleased.2 now

/-- A reserved agent is released once its half a minute is over. -/
theorem agents_shaped_reserved :
    let s := run (step .default) Sys.init [.createAgent 0 7 "ext-1", .login 0 1,
      .seed 0 7 "+15550001" 100 3, .reserveAndCreate 0 0 [] [] (some "mock") "w1" 7]
    (s.db.agents.get? 1).map (·.state) = some .RESERVED ∧
      ∀ i a, (step .default s (.reap (secs 31) (secs 31) none)).db.agents.get? i = some a →
        a.state ≠ .RESERVED ∧ a.state ≠ .WRAP_UP := by
  intro s
  refine ⟨by decide +kernel, (agents_shaped .default _).2 (secs 31) (secs 31) none ?_⟩
  have hnone : s.db.agents.select
      (fun _ a => decide (∃ e ∈ a.lease_expires_at, secs 31 ≤ e)) = [] := by decide +kernel
  intro i a e ha he
  have hfalse := Table.select_eq_nil_iff.mp hnone i a ha
  simp only [decide_eq_false_iff_not, not_exists, not_and, not_le] at hfalse
  exact hfalse e he

end SmartDialer
