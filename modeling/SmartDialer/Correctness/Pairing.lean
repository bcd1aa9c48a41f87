import SmartDialer.Correctness.Seats

namespace SmartDialer

open Relational

/-!
# Agents and their calls

Along every run under `PairingAssumed` the floor is paired.  So an agent never has two live calls,
the states of an agent and its call match in both directions, and the bridge test passes for every
call that waits to be answered, also in the middle of the writes of a drain.
-/

/-! ### Runs -/

/-- What is assumed of the steps of a run: staff actions concern agents without a live call, and
    the clock of a tick of the reaper has not passed the lease of a call whose attempt is still to
    run its second transaction. -/
def PairingAssumed (s : Sys) : Act → Prop
  | .login _ agent_id | .logout _ agent_id | .pause _ agent_id =>
    ∀ i c, s.db.calls.get? i = some c → c.agent_id = some agent_id → c.state.isTerminal = true
  | .reap _ now_ts _ => ∀ i att, s.attempts.get? i = some att →
    ∀ c ∈ s.db.calls.get? att.reservation.call_id, before c.lease_expires_at now_ts = false
  | _ => True

/-- The condition looks at the calls of one agent, or at the attempts in flight. -/
instance (s : Sys) (a : Act) : Decidable (PairingAssumed s a) :=
  match a with
  | .login _ agent_id | .logout _ agent_id | .pause _ agent_id =>
    inferInstanceAs (Decidable (∀ i c, s.db.calls.get? i = some c → c.agent_id = some agent_id →
      c.state.isTerminal = true))
  | .reap _ now_ts _ =>
    inferInstanceAs (Decidable (∀ i att, s.attempts.get? i = some att →
      ∀ c ∈ s.db.calls.get? att.reservation.call_id, before c.lease_expires_at now_ts = false))
  | .createAgent .. | .seed .. | .reserveAndCreate .. | .placeCall .. | .rejected .. | .accepted ..
  | .abandon .. | .pullback .. | .ingest .. | .fetch .. | .read .. | .commit .. | .rollback .. =>
    inferInstanceAs (Decidable True)

/-- The condition on the action is one on the moves it makes on the floor. -/
theorem PairingAssumed.permits {s : Sys} {a : Act} (h : PairingAssumed s a) :
    Permits Floor.Safe s a where
  routine := Floor.safe_routine
  staffed := fun now i ha => by rcases ha with rfl | rfl | rfl <;> exact h
  refusedLate := fun _ _ _ _ _ _ _ => trivial
  orphaned := by
    rintro now now_ts registry F i c rfl hF hc ho k att hk rfl
    rw [hF] at hk
    have hlease := h k att hk c hc
    simp only [isOrphan, hlease, Bool.and_false, Bool.false_and] at ho
    cases ho
  unlocked := fun _ _ _ _ _ _ _ => trivial

/-- There are no agents and no calls to pair. -/
theorem Floor.paired_init : Sys.init.floor.Paired where
  prompt := fun _ _ h => by cases h
  matching :=
    ⟨(fun _ _ _ h => by cases h), (fun _ _ _ _ _ h => by cases h), fun _ _ h => by cases h⟩

/-- **Run.** Agents and calls are paired in every state that a run under the assumptions reaches. -/
theorem paired_run (cfg : Settings) {acts : List Act}
    (h : Along (step cfg) PairingAssumed Sys.init acts) :
    (run (step cfg) Sys.init acts).floor.Paired :=
  invariant_of_simulation (L := Sys.Live) (G := PairingAssumed) (H := Floor.Safe)
    (I := Floor.Paired) (fun _ a hs _ => live_step cfg hs a)
    (fun _ _ hs ha => step_path cfg hs ha.permits) (fun _ _ _ hF hH hm => hF.step hH hm)
    live_init Floor.paired_init h

/-- A call that an agent can match, by their states. -/
def AgentState.matchesCall : AgentState → CallState → Bool
  | .RESERVED, .RESERVED | .DIALING, .INITIATED | .DIALING, .RINGING
  | .CONNECTED, .CONNECTED => true
  | _, _ => false

/-- An agent and a call in the same seat have matching states. -/
theorem matchesCall_of_seat {a : AgentRow} {c : CallRow} {i : ℕ} {p : Seat} (hset : c.Settled)
    (ha : a.seat = some p) (hc : c.phase i = some p) :
    a.state.matchesCall c.state = true ∧ (a.state = .DIALING → a.current_call_id = some i) := by
  have hstate := AgentRow.state_of_seat ha
  -- a settled call is neither queued nor answered
  have hnq := hset.not_queued
  have hna := hset.not_answered
  unfold CallRow.phase at hc
  cases hcs : c.state <;> rw [hcs] at hc hnq hna <;> cases hc
  · exact absurd rfl hnq
  · rw [show a.state = .RESERVED from hstate]
    exact ⟨rfl, fun hs => nomatch hs⟩
  · exact ⟨by rw [hstate.1]; rfl, fun _ => hstate.2⟩
  · exact ⟨by rw [hstate.1]; rfl, fun _ => hstate.2⟩
  · exact absurd rfl hna
  · rw [show a.state = .CONNECTED from hstate]
    exact ⟨rfl, fun hs => nomatch hs⟩

namespace Floor.Paired

variable {F : Floor} {i agent_id : ℕ} {c : CallRow} {a : AgentRow}

/-- The agent of a live call is in the seat of the call. -/
theorem agent_of_call (h : F.Paired) (hc : F.calls.get? i = some c) {p : Seat}
    (hagent : c.agent_id = some agent_id) (hp : c.phase i = some p) :
    ∃ a, F.agents.get? agent_id = some a ∧ a.seat = some p := by
  have hlive : F.live i = some (agent_id, p) := live_eq_some_iff.mpr ⟨c, hc, hagent, hp⟩
  exact Table.column_eq_some_iff.mp (h.matching.agrees i agent_id p hlive)

/-- An agent has no two live calls. -/
theorem call_unique (h : F.Paired) {j : ℕ} {d : CallRow} (hc : F.calls.get? i = some c)
    (hd : F.calls.get? j = some d) (hca : c.agent_id = some agent_id)
    (hda : d.agent_id = some agent_id) (hcl : c.state.isTerminal = false)
    (hdl : d.state.isTerminal = false) : i = j := by
  obtain ⟨p, hp⟩ := live_of_call hc hca hcl
  obtain ⟨q, hq⟩ := live_of_call hd hda hdl
  exact h.matching.unique i j agent_id p q hp hq

/-- A busy agent has a call whose state matches its own. -/
theorem call_of_agent (h : F.Paired) (hset : ∀ i c, F.calls.get? i = some c → c.Settled)
    (ha : F.agents.get? agent_id = some a)
    (hs : a.state = .RESERVED ∨ a.state = .DIALING ∨ a.state = .CONNECTED) :
    ∃ i c, F.calls.get? i = some c ∧ c.agent_id = some agent_id ∧
      a.state.matchesCall c.state = true := by
  obtain ⟨p, hp⟩ := AgentRow.seat_of_busy hs
  obtain ⟨i, hi⟩ := h.matching.covered agent_id p ((Table.column_of_get? _ ha).trans hp)
  obtain ⟨c, hc, hagent, hphase⟩ := live_eq_some_iff.mp hi
  exact ⟨i, c, hc, hagent, (matchesCall_of_seat (hset i c hc) hp hphase).1⟩

/-- The bridge test passes for every call that waits to be answered. -/
theorem bridged (h : F.Paired) (hc : F.calls.get? i = some c) (hagent : c.agent_id = some agent_id)
    (hring : c.state.isRinging = true) : bridgeState F.agents i c = .CONNECTED := by
  obtain ⟨a, ha, hseat⟩ := h.agent_of_call hc hagent (CallRow.phase_of_isRinging hring)
  obtain ⟨hs, hcall⟩ := AgentRow.state_of_seat hseat
  unfold bridgeState
  rw [hagent, Option.bind_some, ha, isBridged, hs, hcall, beq_self_eq_true, beq_self_eq_true]
  rfl

end Floor.Paired

/-- Agents and calls are paired, and answered calls find their agents. -/
structure Sys.AgentsPaired (cfg : Settings) (s : Sys) : Prop where
  /-- No agent has two calls that have not ended. -/
  unique : ∀ i j c d agent_id, s.db.calls.get? i = some c → s.db.calls.get? j = some d →
    c.agent_id = some agent_id → d.agent_id = some agent_id →
    c.state ∉ terminal → d.state ∉ terminal → i = j
  reserved : ∀ i c, s.db.calls.get? i = some c → c.state = .RESERVED →
    ∃ agent_id a, c.agent_id = some agent_id ∧ s.db.agents.get? agent_id = some a ∧
      a.state = .RESERVED
  dialing : ∀ i c, s.db.calls.get? i = some c → c.state = .INITIATED ∨ c.state = .RINGING →
    ∃ agent_id a, c.agent_id = some agent_id ∧ s.db.agents.get? agent_id = some a ∧
      a.state = .DIALING ∧ a.current_call_id = some i
  connected : ∀ i c, s.db.calls.get? i = some c → c.state = .CONNECTED →
    ∃ agent_id a, c.agent_id = some agent_id ∧ s.db.agents.get? agent_id = some a ∧
      a.state = .CONNECTED
  /-- A busy agent has exactly one call that has not ended, and their states match. -/
  busy : ∀ agent_id a, s.db.agents.get? agent_id = some a →
    a.state = .RESERVED ∨ a.state = .DIALING ∨ a.state = .CONNECTED →
    ∃ i c, s.db.calls.get? i = some c ∧ c.agent_id = some agent_id ∧
      a.state.matchesCall c.state = true ∧ c.state ∉ terminal ∧
      ∀ j d, s.db.calls.get? j = some d → d.agent_id = some agent_id → d.state ∉ terminal → j = i
  /-- Whoever answers is connected. -/
  bridge : ∀ i c, s.db.calls.get? i = some c → c.state = .INITIATED ∨ c.state = .RINGING →
    bridgeState s.db.agents i c = .CONNECTED
  /-- This holds also at every point of the writes of an open drain. -/
  bridge_drain : ∀ w d, s.drains.get? w = some d → ∀ pre post, d.plan = pre ++ post →
    ∀ i c, ((applyPlan cfg d.now pre).commit s.db).calls.get? i = some c →
      c.state = .INITIATED ∨ c.state = .RINGING →
      bridgeState ((applyPlan cfg d.now pre).commit s.db).agents i c = .CONNECTED

/-- The predicate and the two states that it stands for. -/
private theorem isRinging_iff {s : CallState} :
    s.isRinging = true ↔ s = .INITIATED ∨ s = .RINGING := by
  unfold CallState.isRinging
  rw [Bool.or_eq_true, beq_iff_eq, beq_iff_eq]

/-- A paired floor under a live state. -/
theorem Floor.Paired.agentsPaired {cfg : Settings} {s : Sys} (hs : s.Live) (h : s.floor.Paired) :
    s.AgentsPaired cfg := by
  have hset := hs.healthy.settled
  have hagent : ∀ {i c}, s.db.calls.get? i = some c → ∃ agent_id, c.agent_id = some agent_id :=
    fun hc => Option.isSome_iff_exists.mp (hset _ _ hc).agent
  have hlive : ∀ {t : CallState}, t ∉ terminal → t.isTerminal = false := by
    intro t ht
    rw [mem_terminal, Bool.not_eq_true] at ht
    exact ht
  refine ⟨?_, ?_, ?_, ?_, ?_, ?_, ?_⟩
  · intro i j c d agent_id hc hd hca hda hct hdt
    exact h.call_unique hc hd hca hda (hlive hct) (hlive hdt)
  · intro i c hc hcs
    obtain ⟨agent_id, hca⟩ := hagent hc
    obtain ⟨a, ha, hseat⟩ := h.agent_of_call hc hca (p := .reserved c.lease_expires_at)
      (by unfold CallRow.phase; rw [hcs])
    exact ⟨agent_id, a, hca, ha, AgentRow.state_of_seat hseat⟩
  · intro i c hc hcs
    obtain ⟨agent_id, hca⟩ := hagent hc
    obtain ⟨a, ha, hseat⟩ := h.agent_of_call hc hca
      (CallRow.phase_of_isRinging (isRinging_iff.mpr hcs))
    exact ⟨agent_id, a, hca, ha, AgentRow.state_of_seat hseat⟩
  · intro i c hc hcs
    obtain ⟨agent_id, hca⟩ := hagent hc
    obtain ⟨a, ha, hseat⟩ := h.agent_of_call hc hca (p := .connected)
      (by unfold CallRow.phase; rw [hcs])
    exact ⟨agent_id, a, hca, ha, AgentRow.state_of_seat hseat⟩
  · intro agent_id a ha hst
    obtain ⟨i, c, hc, hca, hmatch⟩ := h.call_of_agent hset ha hst
    -- no agent state matches a call that has ended
    have hct : c.state ∉ terminal := by
      cases hcs : c.state <;> first | decide | (rw [hcs] at hmatch; cases hs : a.state <;>
        rw [hs] at hmatch <;> cases hmatch)
    refine ⟨i, c, hc, hca, hmatch, hct, fun j d hd hda hdt => ?_⟩
    exact h.call_unique hd hc hda hca (hlive hdt) (hlive hct)
  · intro i c hc hcs
    obtain ⟨agent_id, hca⟩ := hagent hc
    exact h.bridged hc hca (isRinging_iff.mpr hcs)
  · intro w d hd pre post hplan i c hc hcs
    -- the writes made so far are a path of routine moves from the state before them
    rcases Txn.commit_cases (applyPlan cfg d.now pre) s.db with ⟨moved, hrun, _⟩ | ⟨hcommit, _⟩
    · have hvalid : ∀ p ∈ pre, p.Valid s.db.view := fun p hp =>
        hs.planned w d hd p (by rw [hplan]; exact List.mem_append_left _ hp)
      have hpath := applyPlan_path (fun F m hm => F.safe_routine m hm.routine) hs.healthy hvalid
        hrun s.attempts
      have hpaired := hpath.invariant (I := Floor.Paired) (fun _ _ _ hF hH hm => hF.step hH hm) h
      obtain ⟨agent_id, hca⟩ := Option.isSome_iff_exists.mp
        (((applyPlan_progress hvalid hrun hs.healthy).1.settled i c hc).agent)
      exact hpaired.bridged hc hca (isRinging_iff.mpr hcs)
    · -- the writes fail together, and the state is the one before them
      rw [hcommit] at hc ⊢
      obtain ⟨agent_id, hca⟩ := hagent hc
      exact h.bridged hc hca (isRinging_iff.mpr hcs)

/-- **Pairing.** In every run in which staff actions concern agents without a live call, and the
    reaper's clock passes the lease of no call whose attempt is still to run its second
    transaction, agents and calls are paired in every state reached. -/
theorem agents_paired (cfg : Settings) (acts : List Act)
    (h : Along (step cfg) PairingAssumed Sys.init acts) :
    (run (step cfg) Sys.init acts).AgentsPaired cfg :=
  (paired_run cfg h).agentsPaired (live_run cfg acts)

/-- A call that is dialed, answered and connected between two ticks of the reaper, while another
    allocation has just reserved its agent and borrower. -/
def connectedRun : List Act :=
  [.createAgent 0 7 "ext-1", .login 0 1, .createAgent 0 7 "ext-2", .login 0 2,
    .seed 0 7 "+15550001" 100 3, .seed 0 7 "+15550002" 100 3,
    .reserveAndCreate 0 0 [] [] (some "mock") "w1" 7, .placeCall 1,
    .accepted (secs 1) (secs 1) 1 "pc-1", .reap (secs 2) (secs 2) none,
    .reserveAndCreate (secs 3) (secs 3) [] [] (some "mock") "w2" 7,
    .ingest (secs 4) "mock" "e-1" (some "pc-1") "answered" (secs 4) "",
    .fetch (secs 5) 1 10, .read (secs 5) 1, .commit 1, .reap (secs 6) (secs 6) none]

/-- A run at whose end one agent is talking and the other's call is being placed. -/
theorem agents_paired_connectedRun :
    (run (step .default) Sys.init connectedRun).AgentsPaired .default ∧
      ((run (step .default) Sys.init connectedRun).db.calls.get? 1).map (·.state)
        = some .CONNECTED ∧
      ((run (step .default) Sys.init connectedRun).db.calls.get? 2).map (·.state)
        = some .RESERVED :=
  ⟨agents_paired .default connectedRun (by decide +kernel), by decide +kernel, by decide +kernel⟩

end SmartDialer
