import SmartDialer.Repo.Agents
import SmartDialer.Repo.Borrowers
import SmartDialer.Repo.Calls
import SmartDialer.Repo.Events

namespace SmartDialer

open Relational

/-!
# `worker/event_applier.py`

One ledger event is applied in two halves.  `applyOneRead` reads the call and checks the
transition; `applyOneWrite` acts on what was read, by then possibly stale: it advances the
call under the rank guard, bridges an answered call in the same transaction, and lets the
side effects follow the transition.  `applyOne` is both halves in a row.

`applyOneWrite` returns the state that the call was moved to on behalf of the event, or
`none` when no transition took place; Python's `apply_one` returns nothing.
-/

/-! ### Event names -/

/-- `EVENT_MAP` of `providers/base.py`. -/
def eventMap : List (String × String) :=
  [("ringing", "RINGING"), ("answered", "ANSWERED"), ("completed", "COMPLETED"),
    ("failed", "FAILED"), ("busy", "FAILED"), ("no-answer", "FAILED")]

/-- `str.upper` on one character.  Besides the ASCII letters these are the only characters whose
    upper case is ASCII text; every other character stays outside ASCII, and so outside the
    names of the states. -/
def upperChar : Char → List Char
  | 'ß' => ['S', 'S']
  | 'ı' => ['I']
  | 'ſ' => ['S']
  | 'ﬀ' => ['F', 'F']
  | 'ﬁ' => ['F', 'I']
  | 'ﬂ' => ['F', 'L']
  | 'ﬃ' => ['F', 'F', 'I']
  | 'ﬄ' => ['F', 'F', 'L']
  | 'ﬅ' | 'ﬆ' => ['S', 'T']
  | c => [c.toUpper]

/-- `str.upper`, character by character. -/
def upper (s : String) : String := String.ofList (s.toList.flatMap upperChar)

/-- `map_provider_event`: the known provider names, and any other name in upper case. -/
def mapProviderEvent (raw : String) : String := (eventMap.lookup raw).getD (upper raw)

/-! ### Reading -/

/-- What `apply_one` knows after its read and its check. -/
inductive ReadResult where
  /-- No call has the provider's reference. -/
  | unknown
  /-- The event type is no call state: `CallState(…)` raises. -/
  | raised
  /-- The check refuses the transition. -/
  | refused (call_id : ℕ) (anomaly : Option Anomaly)
  /-- The check lets the transition pass. -/
  | passed (call_id : ℕ) (incoming : CallState)
  deriving DecidableEq, Repr

/-- The first half of `apply_one`. -/
def applyOneRead (ev : EventRow) : Tx ReadResult := do
  match ← CallRepo.getByProviderRef ev.provider ev.provider_call_id with
  | none => return .unknown
  | some call =>
    match CallState.ofString? (mapProviderEvent ev.event_type) with
    | none => return .raised
    | some incoming =>
      let (ok, anomaly) := canApply call.2.state incoming
      return if ok then .passed call.1 incoming else .refused call.1 anomaly

/-! ### Writing -/

/-- Is the agent still the one holding the call? -/
def isBridged (call_id : ℕ) (agent : Option AgentRow) : Bool :=
  match agent with
  | some a => a.current_call_id == some call_id && a.state == .DIALING
  | none => false

/-- `_try_bridge`: an answered call is connected to its agent, or abandoned. -/
def tryBridge (now : Time) (row : ℕ × CallRow) : Tx CallState := do
  let agent ← match row.2.agent_id with
    | some agent_id => AgentRepo.get agent_id
    | none => pure none
  let next_state : CallState := if isBridged row.1 agent then .CONNECTED else .ABANDONED
  match ← CallRepo.advance now row.1 next_state none none none with
  | some _ => return next_state
  | none => return .ANSWERED

/-- `_apply_side_effects`: they belong to the transition, not to the raw event. -/
def applySideEffects (now : Time) (row : ℕ × CallRow) (final_state : CallState)
    (clock_now wrapup : Time) : Tx PUnit := do
  match agentOnCallState final_state, row.2.agent_id with
  | some agent_state, some agent_id =>
    let lease_until := if agent_state = .WRAP_UP then some (clock_now + wrapup) else none
    let _ ← AgentRepo.forceState now agent_id agent_state none lease_until none
  | _, _ => pure ⟨⟩
  if final_state ∈ terminal then
    BorrowerRepo.onCallTerminal now row.2.borrower_id final_state (secs 60)

/-- The second half of `apply_one`. -/
def applyOneWrite (now : Time) (ev : ℕ × EventRow) (read : ReadResult) (clock_now wrapup : Time) :
    Tx (Option CallState) := do
  match read with
  | .unknown =>
    EventRepo.mark ev.1 false (some .UNKNOWN_CALL) none
    return none
  | .raised => return none
  | .refused call_id anomaly =>
    EventRepo.mark ev.1 true anomaly (some call_id)
    return none
  | .passed call_id incoming =>
    match ← CallRepo.advance now call_id incoming ev.2.provider_call_id none none with
    | none =>
      EventRepo.mark ev.1 true (some .OUT_OF_ORDER) (some call_id)
      return none
    | some row =>
      let final_state ← if incoming = .ANSWERED then tryBridge now row else pure incoming
      applySideEffects now row final_state clock_now wrapup
      EventRepo.mark ev.1 true none (some call_id)
      return some final_state

/-- `apply_one`. -/
def applyOne (now : Time) (ev : ℕ × EventRow) (clock_now wrapup : Time) :
    Tx (Option CallState) := do
  let read ← applyOneRead ev.2
  applyOneWrite now ev read clock_now wrapup

/-- `drain`: an event whose type raises is logged and left as it is. -/
def drain (now : Time) (locked : List ℕ) (clock_now wrapup : Time) (limit : ℕ) : Tx ℕ := do
  let rows ← EventRepo.fetchUnapplied locked limit
  forM rows fun ev => do
    let _ ← applyOne now ev clock_now wrapup
  let _ ← EventRepo.giveUpUnknown now
  return rows.length

/-! ### Effects -/

/-- Where an answered call goes: to its agent, or to nobody. -/
def bridgeState (agents : Table AgentRow) (call_id : ℕ) (c : CallRow) : CallState :=
  if isBridged call_id (c.agent_id.bind agents.get?) then .CONNECTED else .ABANDONED

/-- Bridging a call ends in one of two states. -/
theorem bridgeState_cases (agents : Table AgentRow) (call_id : ℕ) (c : CallRow) :
    bridgeState agents call_id c = .CONNECTED ∨ bridgeState agents call_id c = .ABANDONED := by
  unfold bridgeState
  split
  · exact Or.inl rfl
  · exact Or.inr rfl

/-- Either outcome of bridging ranks above `ANSWERED`. -/
theorem rank_bridgeState (agents : Table AgentRow) (call_id : ℕ) (c : CallRow) :
    5 ≤ rank (bridgeState agents call_id c) := by
  unfold bridgeState
  split <;> decide

/-- `_try_bridge` moves an answered call on in every case. -/
theorem tryBridge_run (now : Time) {call_id : ℕ} {c : CallRow} {db : Db}
    (hc : db.calls.get? call_id = some c) (hrank : c.state_rank < 5) :
    ∃ db', (tryBridge now (call_id, c)).run db = .ok (bridgeState db.agents call_id c, db') ∧
      db'.view = db.view.setCall call_id c
        (CallRepo.advancedRow now (bridgeState db.agents call_id c) none none none) := by
  obtain ⟨o, db', hrun⟩ := CallRepo.advance_total now call_id (bridgeState db.agents call_id c)
    none none none db fun _ _ => Or.inl rfl
  -- both outcomes rank above `ANSWERED`, so the second advance cannot lose
  obtain ⟨rfl, hv⟩ := CallRepo.advance_won hc
    (lt_of_lt_of_le hrank (rank_bridgeState db.agents call_id c)) hrun
  refine ⟨db', ?_, hv⟩
  unfold tryBridge
  unfold bridgeState at hrun ⊢
  cases hagent : c.agent_id with
  | none =>
    simp only [hagent, Option.bind_none, pure_bind] at hrun ⊢
    rw [Txn.run_bind_of_ok hrun]
    rfl
  | some agent_id =>
    simp only [hagent, Option.bind_some] at hrun ⊢
    have hget : (AgentRepo.get agent_id).run db = .ok (db.agents.get? agent_id, db) := rfl
    rw [Txn.run_bind_of_ok hget, Txn.run_bind_of_ok hrun]
    rfl

/-- What `applySideEffects` does to the view. -/
def View.sideEffects (now : Time) (c : CallRow) (final_state : CallState) (clock_now wrapup : Time)
    (v : View) : View :=
  let v₁ := match agentOnCallState final_state with
    | some agent_state => v.setAgentOf c.agent_id (AgentRepo.forcedRow now agent_state none
        (if agent_state = .WRAP_UP then some (clock_now + wrapup) else none) none)
    | none => v
  if final_state ∈ terminal then
    v₁.setBorrower c.borrower_id (BorrowerRepo.endedRow now final_state (secs 60))
  else v₁

/-- The side effects are on agents and borrowers; the calls were written before. -/
@[simp] theorem View.sideEffects_calls (now : Time) (c : CallRow) (final_state : CallState)
    (clock_now wrapup : Time) (v : View) :
    (v.sideEffects now c final_state clock_now wrapup).calls = v.calls := by
  unfold View.sideEffects
  cases agentOnCallState final_state <;> simp only <;> split <;> simp

/-- No row image of a call comes from a side effect. -/
@[simp] theorem View.sideEffects_versions (now : Time) (c : CallRow) (final_state : CallState)
    (clock_now wrapup : Time) (v : View) :
    (v.sideEffects now c final_state clock_now wrapup).versions = v.versions := by
  unfold View.sideEffects
  cases agentOnCallState final_state <;> simp only <;> split <;> simp

/-- The ledger is not touched by a side effect. -/
@[simp] theorem View.sideEffects_provider_events (now : Time) (c : CallRow)
    (final_state : CallState) (clock_now wrapup : Time) (v : View) :
    (v.sideEffects now c final_state clock_now wrapup).provider_events = v.provider_events := by
  unfold View.sideEffects
  cases agentOnCallState final_state <;> simp only <;> split <;> simp

/-- A bridged call connects its agent, whatever that agent was doing, and leaves the borrower
    alone. -/
theorem View.sideEffects_connected {c : CallRow} {agent_id : ℕ}
    (hagent : c.agent_id = some agent_id) (now clock_now wrapup : Time) (v : View) :
    v.sideEffects now c .CONNECTED clock_now wrapup
      = v.setAgent agent_id (AgentRepo.forcedRow now .CONNECTED none none none) := by
  unfold View.sideEffects
  rw [hagent]
  rfl

/-- The end of a call frees its agent, perhaps after a wrap-up, and closes the borrower's
    attempt. -/
theorem View.sideEffects_terminal {c : CallRow} {agent_id : ℕ} (hagent : c.agent_id = some agent_id)
    {final_state : CallState} (hs : final_state.isTerminal = true) (now clock_now wrapup : Time)
    (v : View) :
    ∃ agent_state lease, agentOnCallState final_state = some agent_state ∧
      (agent_state = .AVAILABLE ∨ agent_state = .WRAP_UP) ∧
      v.sideEffects now c final_state clock_now wrapup
        = (v.setAgent agent_id (AgentRepo.forcedRow now agent_state none lease none)).setBorrower
            c.borrower_id (BorrowerRepo.endedRow now final_state (secs 60)) := by
  unfold View.sideEffects
  rw [hagent]
  cases final_state with
  | COMPLETED => exact ⟨.WRAP_UP, _, rfl, Or.inr rfl, rfl⟩
  | FAILED => exact ⟨.AVAILABLE, _, rfl, Or.inl rfl, rfl⟩
  | CANCELLED => exact ⟨.AVAILABLE, _, rfl, Or.inl rfl, rfl⟩
  | ABANDONED => exact ⟨.AVAILABLE, _, rfl, Or.inl rfl, rfl⟩
  | QUEUED | RESERVED | INITIATED | RINGING | ANSWERED | CONNECTED => exact absurd hs (by decide)

/-- The side effects as a transaction: they do not fail, and `View.sideEffects` says what they
    leave. -/
theorem applySideEffects_run (now : Time) (row : ℕ × CallRow) (final_state : CallState)
    (clock_now wrapup : Time) (db : Db) :
    ∃ db', (applySideEffects now row final_state clock_now wrapup).run db = .ok (⟨⟩, db') ∧
      db'.view = db.view.sideEffects now row.2 final_state clock_now wrapup := by
  unfold applySideEffects View.sideEffects
  cases agentOnCallState final_state with
  | none =>
    simp only
    split
    · exact BorrowerRepo.onCallTerminal_run now row.2.borrower_id final_state (secs 60) db
    · exact ⟨db, rfl, rfl⟩
  | some agent_state =>
    cases row.2.agent_id with
    | none =>
      simp only
      split
      · exact BorrowerRepo.onCallTerminal_run now row.2.borrower_id final_state (secs 60) db
      · exact ⟨db, rfl, rfl⟩
    | some agent_id =>
      obtain ⟨_, db₁, h₁, hv₁⟩ := AgentRepo.forceState_run now agent_id agent_state none
        (if agent_state = .WRAP_UP then some (clock_now + wrapup) else none) none db
      simp only [View.setAgentOf_some]
      rw [Txn.run_bind_of_ok h₁, ← hv₁]
      split
      · exact BorrowerRepo.onCallTerminal_run now row.2.borrower_id final_state (secs 60) db₁
      · exact ⟨db₁, rfl, rfl⟩

/-- The outcomes of `applyOneWrite`: the transition it makes and the view it leaves. -/
inductive Applied (now : Time) (ev : ℕ × EventRow) (clock_now wrapup : Time) (db : Db) :
    ReadResult → Option CallState → View → Prop
  /-- The call is unknown, and the event stays unapplied. -/
  | unknown : Applied now ev clock_now wrapup db .unknown none
      (db.view.setEvent ev.1 (EventRepo.markedRow false (some .UNKNOWN_CALL) none))
  | raised : Applied now ev clock_now wrapup db .raised none db.view
  | refused {call_id : ℕ} {anomaly : Option Anomaly} :
      Applied now ev clock_now wrapup db (.refused call_id anomaly) none
        (db.view.setEvent ev.1 (EventRepo.markedRow true anomaly (some call_id)))
  /-- The rank guard refuses what the check let pass. -/
  | lost {call_id : ℕ} {incoming : CallState}
      (h : ∀ c, db.calls.get? call_id = some c → rank incoming ≤ c.state_rank) :
      Applied now ev clock_now wrapup db (.passed call_id incoming) none
        (db.view.setEvent ev.1 (EventRepo.markedRow true (some .OUT_OF_ORDER) (some call_id)))
  /-- The call is advanced. -/
  | moved {call_id : ℕ} {incoming : CallState} {c : CallRow} (hi : incoming ≠ .ANSWERED)
      (hc : db.calls.get? call_id = some c) (hrank : c.state_rank < rank incoming) :
      Applied now ev clock_now wrapup db (.passed call_id incoming) (some incoming)
        (((db.view.setCall call_id c
          (CallRepo.advancedRow now incoming ev.2.provider_call_id none none)).sideEffects now c
            incoming clock_now wrapup).setEvent ev.1 (EventRepo.markedRow true none (some call_id)))
  /-- The call is answered, and bridged or abandoned at once. -/
  | bridged {call_id : ℕ} {c answered : CallRow} {next : CallState}
      (hc : db.calls.get? call_id = some c) (hrank : c.state_rank < 4)
      (ha : answered = CallRepo.advancedRow now .ANSWERED ev.2.provider_call_id none none c)
      (hn : next = bridgeState db.agents call_id c) :
      Applied now ev clock_now wrapup db (.passed call_id .ANSWERED) (some next)
        ((((db.view.setCall call_id c
          (CallRepo.advancedRow now .ANSWERED ev.2.provider_call_id none none)).setCall call_id
            answered (CallRepo.advancedRow now next none none none)).sideEffects now c next
              clock_now wrapup).setEvent ev.1 (EventRepo.markedRow true none (some call_id)))

/-- **`apply_one`, second half.** It has one of the outcomes, if the advance that it may make does
    not fail. -/
theorem applyOneWrite_run (now : Time) (ev : ℕ × EventRow) (read : ReadResult)
    (clock_now wrapup : Time) (db : Db)
    (hadvance : ∀ call_id incoming, read = .passed call_id incoming → ∃ row db₁,
      (CallRepo.advance now call_id incoming ev.2.provider_call_id none none).run db
        = .ok (row, db₁)) :
    ∃ o db', (applyOneWrite now ev read clock_now wrapup).run db = .ok (o, db') ∧
      Applied now ev clock_now wrapup db read o db'.view := by
  cases read with
  | unknown =>
    obtain ⟨db₁, h₁, hv₁⟩ := EventRepo.mark_run ev.1 false (some .UNKNOWN_CALL) none db
    refine ⟨none, db₁, Txn.run_bind_of_ok h₁, ?_⟩
    rw [hv₁]
    exact .unknown
  | raised => exact ⟨none, db, rfl, .raised⟩
  | refused call_id anomaly =>
    obtain ⟨db₁, h₁, hv₁⟩ := EventRepo.mark_run ev.1 true anomaly (some call_id) db
    refine ⟨none, db₁, Txn.run_bind_of_ok h₁, ?_⟩
    rw [hv₁]
    exact .refused
  | passed call_id incoming =>
    obtain ⟨row, db₁, h₁⟩ := hadvance call_id incoming rfl
    rcases CallRepo.advance_cases h₁ with ⟨rfl, rfl, hlost⟩ | ⟨c, hc, hrank, rfl, hv₁⟩
    · obtain ⟨db₂, h₂, hv₂⟩ :=
        EventRepo.mark_run ev.1 true (some .OUT_OF_ORDER) (some call_id) db₁
      refine ⟨none, db₂, ?_, ?_⟩
      · rw [applyOneWrite, Txn.run_bind_of_ok h₁]
        exact Txn.run_bind_of_ok h₂
      · rw [hv₂]
        exact .lost hlost
    · by_cases hi : incoming = .ANSWERED
      · -- the bridge tests the row that the advance to `ANSWERED` has written
        subst hi
        have hc₁ : db₁.calls.get? call_id =
            some (CallRepo.advancedRow now .ANSWERED ev.2.provider_call_id none none c) := by
          have hcalls := congrArg View.calls hv₁
          rw [Db.view_calls] at hcalls
          rw [hcalls]
          simp [View.setCall, hc]
        obtain ⟨db₂, h₂, hv₂⟩ := tryBridge_run now hc₁ (Nat.lt_succ_self 4)
        obtain ⟨db₃, h₃, hv₃⟩ := applySideEffects_run now
          (call_id, CallRepo.advancedRow now .ANSWERED ev.2.provider_call_id none none c)
          (bridgeState db₁.agents call_id
            (CallRepo.advancedRow now .ANSWERED ev.2.provider_call_id none none c))
          clock_now wrapup db₂
        obtain ⟨db₄, h₄, hv₄⟩ := EventRepo.mark_run ev.1 true none (some call_id) db₃
        refine ⟨some (bridgeState db₁.agents call_id
          (CallRepo.advancedRow now .ANSWERED ev.2.provider_call_id none none c)), db₄, ?_, ?_⟩
        · rw [applyOneWrite, Txn.run_bind_of_ok h₁]
          simp only [if_true]
          rw [Txn.run_bind_of_ok h₂, Txn.run_bind_of_ok h₃, Txn.run_bind_of_ok h₄]
          rfl
        · have hagents : db₁.agents = db.agents := congrArg View.agents hv₁
          rw [hv₄, hv₃, hv₂, hv₁, hagents]
          exact .bridged hc hrank rfl rfl
      · obtain ⟨db₃, h₃, hv₃⟩ := applySideEffects_run now
          (call_id, CallRepo.advancedRow now incoming ev.2.provider_call_id none none c)
          incoming clock_now wrapup db₁
        obtain ⟨db₄, h₄, hv₄⟩ := EventRepo.mark_run ev.1 true none (some call_id) db₃
        refine ⟨some incoming, db₄, ?_, ?_⟩
        · rw [applyOneWrite, Txn.run_bind_of_ok h₁]
          simp only [hi, if_false, pure_bind]
          rw [Txn.run_bind_of_ok h₃, Txn.run_bind_of_ok h₄]
          rfl
        · rw [hv₄, hv₃, hv₁]
          exact .moved hi hc hrank

/-- A committed run has one of the outcomes. -/
theorem applyOneWrite_cases {now : Time} {ev : ℕ × EventRow} {read : ReadResult}
    {clock_now wrapup : Time} {db db' : Db} {o : Option CallState}
    (h : (applyOneWrite now ev read clock_now wrapup).run db = .ok (o, db')) :
    Applied now ev clock_now wrapup db read o db'.view := by
  obtain ⟨o', db'', hrun, happ⟩ := applyOneWrite_run now ev read clock_now wrapup db
    fun call_id incoming hread => by
      subst hread
      obtain ⟨row, db₁, h₁, _⟩ := Txn.run_bind_ok.mp h
      exact ⟨row, db₁, h₁⟩
  rw [h] at hrun
  cases hrun
  exact happ

end SmartDialer
