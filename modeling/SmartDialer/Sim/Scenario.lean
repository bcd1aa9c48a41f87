import SmartDialer.Lib.Rounding
import SmartDialer.Providers.MockA
import SmartDialer.System

namespace SmartDialer

open Relational Numeric

/-!
# A scenario

`run_scenario` closes the system: the providers are mocks, the staff is hired once, and what
disturbs the run is injected.  Its state is the one of the system together with the mocks, the
coroutines of their calls, what the injectors hold and how far the loop has come.

An action is what one of the parties does up to its next `await`, and the parties take turns in any
order.  For how long a lifecycle sleeps is left open, and so is the order of the transactions within
a phase of the loop; the draws of the generators, the fresh ids and the clocks are inputs.
-/

/-- A float of seconds as `to_timestamp` stores it. -/
def toTimestamp (t : ℚ) : Time := roundEven (t * 1000000)

/-- What is left of `_MockProviderBase` when the draws are inputs. -/
structure Mock where
  buffer : MockProvider
  outage_until : ℚ

/-- A mock before the first call; its outage ended before time zero. -/
def Mock.new : Mock := ⟨.init, -1⟩

/-- `trigger_outage`. -/
def Mock.triggerOutage (m : Mock) (clock_now duration_s : ℚ) : Mock :=
  { m with outage_until := clock_now + duration_s }

/-- Does `place_call` return?  It raises in an outage, and when one of its draws says so. -/
def Mock.takes (m : Mock) (clock_now : ℚ) (timeout hard_fail : Bool) : Bool :=
  !decide (clock_now < m.outage_until) && !timeout && !hard_fail

/-- How far `_run_lifecycle` has come. -/
inductive Stage where
  | placed
  /-- Until here nothing has been drawn. -/
  | ringing
  | unanswered
  | talking
  | completed
  /-- It has flushed the buffer and returned. -/
  | returned (answered : Bool)
  deriving DecidableEq, Repr

/-- What comes next: an event to emit, or the flush. -/
def Stage.next (answered : Bool) : Stage → Option (Option String × Stage)
  | .placed => some (some "ringing", .ringing)
  | .ringing =>
    if answered then some (some "answered", .talking) else some (some "no-answer", .unanswered)
  | .unanswered => some (none, .returned false)
  | .talking => some (some "completed", .completed)
  | .completed => some (none, .returned true)
  | .returned _ => none

/-- A task of a mock. -/
structure Lifecycle where
  provider : String
  pcid : String
  stage : Stage
  deriving DecidableEq, Repr

namespace Scenario

/-- Where `loop` is: in `pacing_loop.tick`, in `event_applier.drain` or in `reaper.reap`. -/
inductive Phase where
  | tick | drain | reap
  deriving DecidableEq, Repr

/-- What the loop does there on its own; its only drain has the number zero.  Borrowers are seeded
    by `setup_campaign`, and an allocation gives up after three deadlocks. -/
def Phase.runs : Phase → SmartDialer.Act → Bool
  | .tick, .reserveAndCreate .. | .tick, .abandon .. | .tick, .pullback .. => true
  | .drain, .fetch _ 0 _ | .drain, .read _ 0 | .drain, .commit 0 | .drain, .rollback 0 => true
  | .reap, .reap .. => true
  | _, .seed .. => true
  | _, _ => false

/-- The whole simulation: the system, where the loop is, the mocks with their tasks, and what the
    injectors have begun. -/
structure State where
  sys : Sys
  phase : Phase
  /-- The mocks by their names. -/
  mocks : String → Mock
  lifecycles : Table Lifecycle
  /-- What `place_call` has returned for the allocation of a call, or that it has raised. -/
  answers : ℕ → Option (Option String)
  /-- The agents that an injector has selected and not logged out yet. -/
  leaving : ℕ → List ℕ

/-- Before `setup_campaign`: empty tables, and no task running. -/
def init : State := ⟨.init, .tick, fun _ => .new, .empty, fun _ => none, fun _ => []⟩

/-- One step of the simulation: of the loop, of a task of a mock, or of an injector. -/
inductive Act where
  /-- An agent is created and logged in, as in `setup_campaign`. -/
  | hire (now : Time) (campaign_id : ℕ) (ext_ref : String)
  /-- A step of the loop that needs no provider. -/
  | loop (a : SmartDialer.Act)
  /-- The loop goes on to the next phase; does it come to the reaper? -/
  | turn (reaps : Bool)
  /-- `place_call` for an allocation, and the transaction that follows it. -/
  | place (clock_now : ℚ) (call_id : ℕ) (timeout hard_fail : Bool) (pcid : String)
  | settle (now clock_now : Time) (call_id : ℕ)
  /-- `ProviderOutage`. -/
  | outage (clock_now dur : ℚ) (provider : String)
  /-- The two statements of `AgentMassLogout`. -/
  | select (injector campaign_id count : ℕ) (ids : List ℕ)
  | logout (now : Time) (injector : ℕ)
  /-- A lifecycle goes on. -/
  | advance (task : ℕ) (answered : Bool) (event_id : String) (clock_now : ℚ) (dup : Bool)
  /-- Its `_emit` or `_flush` goes on; a sent event goes to the ledger. -/
  | resume (now : Time) (provider pcid : String) (reorder : Bool)
  deriving Repr

namespace State

variable (s : State)

/-- The provider that an allocation is about to call, if the reference that it draws is fresh. -/
def calling (call_id : ℕ) (pcid : String) : Option String :=
  match s.sys.attempts.get? call_id with
  | some att =>
    let provider := att.reservation.provider
    if att.placed || (s.lifecycles.select fun _ l => l.provider == provider && l.pcid == pcid) ≠ []
    then none else some provider
  | none => none

/-- The event that a running `_emit` or `_flush` is about to send. -/
def sending (provider pcid : String) : Option ProviderEvent :=
  ((s.mocks provider).buffer.tasks pcid).sending.head?

/-- Do these agents answer the `SELECT` of a mass logout? -/
def selects (campaign_id count : ℕ) (ids : List ℕ) : Bool :=
  let available := (s.sys.db.agents.select fun _ a =>
    a.campaign_id == campaign_id && a.state == .AVAILABLE).map Prod.fst
  decide ids.Nodup && ids.all available.contains && ids.length == min count available.length

/-- What an action does to the database, and to what the workers hold. -/
def writes : Act → List SmartDialer.Act
  | .hire now campaign_id ext_ref =>
    [.createAgent now campaign_id ext_ref, .login now s.sys.db.agents.nextId]
  | .loop a => if s.phase.runs a then [a] else []
  | .place _ call_id _ _ pcid =>
    match s.calling call_id pcid with
    | some _ => [.placeCall call_id]
    | none => []
  | .settle now clock_now call_id =>
    match s.answers call_id with
    | some (some pcid) => [.accepted now clock_now call_id pcid]
    | some none => [.rejected now call_id]
    | none => []
  | .logout now injector => (s.leaving injector).map (.logout now)
  | .resume now provider pcid _ =>
    match s.sending provider pcid with
    | some ev => [.ingest now provider ev.event_id (some pcid) ev.etype (toTimestamp ev.ts)
        ("\x7b\"raw\": \"" ++ ev.raw ++ "\"\x7d")]
    | none => []
  | .turn .. | .outage .. | .select .. | .advance .. => []

/-- A step of a mock. -/
def onMock (provider : String) (f : Mock → Mock) : State :=
  { s with mocks := Function.update s.mocks provider (f (s.mocks provider)) }

/-- A step of a mock's buffer. -/
def onBuffer (provider : String) (a : MockProvider.Act) : State :=
  s.onMock provider fun m => { m with buffer := m.buffer.step a }

/-- A call is placed: `place_call` raises, or starts a lifecycle. -/
def place (clock_now : ℚ) (call_id : ℕ) (timeout hard_fail : Bool) (pcid : String) : State :=
  match s.calling call_id pcid with
  | some provider =>
    if (s.mocks provider).takes clock_now timeout hard_fail then
      { s with
        answers := Function.update s.answers call_id (some (some pcid))
        lifecycles := s.lifecycles.push ⟨provider, pcid, .placed⟩ }
    else { s with answers := Function.update s.answers call_id (some none) }
  | none => s

/-- The loop awaits the allocations of a tick, and the drain. -/
def turn (reaps : Bool) : State :=
  match s.phase with
  | .tick => if s.sys.attempts.rows = [] then { s with phase := .drain } else s
  | .drain =>
    if s.sys.drains.rows = [] then { s with phase := if reaps then .reap else .tick } else s
  | .reap => { s with phase := .tick }

/-- A lifecycle goes on with a fresh id, unless its `_emit` or `_flush` is running or it is over. -/
def advance (task : ℕ) (answered : Bool) (event_id : String) (clock_now : ℚ) (dup : Bool) : State :=
  match s.lifecycles.get? task with
  | some l =>
    let buffer := (s.mocks l.provider).buffer
    if (buffer.tasks l.pcid).Idle ∧ buffer.emissions.all (·.2.event_id != event_id) then
      match l.stage.next answered with
      | some (raw, stage) =>
        let s' :=
          { s with lifecycles := s.lifecycles.alter task fun l => { l with stage := stage } }
        match raw with
        | some raw_event_type =>
          s'.onBuffer l.provider (.emit l.pcid ⟨raw_event_type, event_id, clock_now, dup⟩)
        | none => s'.onBuffer l.provider (.flush l.pcid)
      | none => s
    else s
  | none => s

/-- What an action does to the rest. -/
def outside : Act → State
  | .turn reaps => s.turn reaps
  | .place clock_now call_id timeout hard_fail pcid =>
    s.place clock_now call_id timeout hard_fail pcid
  | .outage clock_now dur provider => s.onMock provider fun m => m.triggerOutage clock_now dur
  | .select injector campaign_id count ids =>
    if s.selects campaign_id count ids then
      { s with leaving := Function.update s.leaving injector ids } else s
  | .logout _ injector => { s with leaving := Function.update s.leaving injector [] }
  | .advance task answered event_id clock_now dup => s.advance task answered event_id clock_now dup
  | .resume _ provider pcid reorder => s.onBuffer provider (.resume pcid reorder)
  | .hire .. | .loop .. | .settle .. => s

end State

/-- One step of a scenario. -/
def step (cfg : Settings) (s : State) (a : Act) : State :=
  { s.outside a with sys := run (SmartDialer.step cfg) s.sys (s.writes a) }

end Scenario

end SmartDialer
