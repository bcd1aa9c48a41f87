import SmartDialer.Worker.EventApplier
import Mathlib.Algebra.Order.Field.Rat
import Mathlib.Logic.Function.Basic

namespace SmartDialer

/-!
# `providers/mock_a.py`

The delivery of webhooks by a mock provider.  `_emit` holds an event back until the next one of its
call, and then sends the pair, perhaps reversed; `_flush` sends what is still held.  All calls of a
provider share the dictionary `_held`.

Each call runs `_emit` and `_flush` one after the other.  At an `await` any other call may go on,
and here also between the events of a batch, so the interleavings of the code are among the ones
of `step`.  The draws of the generator are inputs.
-/

/-- An event as `_emit` builds it. -/
structure ProviderEvent where
  event_id : String
  etype : String
  ts : ℚ
  raw : String
  deriving DecidableEq, Repr

/-- What one run of `_emit` is given: its argument, the fresh id, the clock, and whether the event
    is duplicated. -/
structure Emission where
  raw_event_type : String
  event_id : String
  now : ℚ
  dup : Bool
  deriving DecidableEq, Repr

/-- The event that is sent, with the canonical name of its type. -/
def Emission.event (e : Emission) : ProviderEvent :=
  ⟨e.event_id, mapProviderEvent e.raw_event_type, e.now, e.raw_event_type⟩

/-- `batch`: the event, and perhaps a copy with the same id. -/
def Emission.batch (e : Emission) : List ProviderEvent :=
  if e.dup then [e.event, e.event] else [e.event]

/-- Where a call is within `_emit` or `_flush`. -/
structure CallTask where
  /-- The events of the batch that the loop has not come to. -/
  batch : List ProviderEvent
  /-- The events that are about to be sent. -/
  sending : List ProviderEvent
  /-- Has `_flush` been called? -/
  flushed : Bool
  deriving DecidableEq, Repr

/-- A call for which nothing has been emitted. -/
def CallTask.new : CallTask := ⟨[], [], false⟩

/-- Neither `_emit` nor `_flush` is running. -/
def CallTask.Idle (t : CallTask) : Prop := t.batch = [] ∧ t.sending = []

/-- Both lists can be inspected. -/
instance (t : CallTask) : Decidable t.Idle := inferInstanceAs (Decidable (_ ∧ _))

/-- The reordering buffer of a mock, with the coroutines that are in it. -/
structure MockProvider where
  /-- `_held`, by provider call id. -/
  held : String → Option ProviderEvent
  tasks : String → CallTask
  /-- What `sink.deliver` was called with, oldest first. -/
  delivered : List (String × ProviderEvent)
  /-- The runs of `_emit`, oldest first; this is no part of the provider. -/
  emissions : List (String × Emission)

namespace MockProvider

/-- Nothing is held, nothing runs, and nothing was delivered. -/
def init : MockProvider := ⟨fun _ => none, fun _ => .new, [], []⟩

/-- What the calls do. -/
inductive Act where
  | emit (pcid : String) (e : Emission)
  | flush (pcid : String)
  /-- The running coroutine of the call goes on; `reorder` is drawn when there is a pair. -/
  | resume (pcid : String) (reorder : Bool)
  deriving Repr

/-- The coroutine of one call moves on; those of the other calls stay where they are. -/
def setTask (m : MockProvider) (pcid : String) (t : CallTask) : MockProvider :=
  { m with tasks := Function.update m.tasks pcid t }

/-- The event that is held back for one call changes. -/
def setHeld (m : MockProvider) (pcid : String) (o : Option ProviderEvent) : MockProvider :=
  { m with held := Function.update m.held pcid o }

/-- `_emit` is called. -/
def emit (m : MockProvider) (pcid : String) (e : Emission) : MockProvider :=
  { m.setTask pcid { m.tasks pcid with batch := e.batch } with
    emissions := m.emissions ++ [(pcid, e)] }

/-- `_flush` is called. -/
def flush (m : MockProvider) (pcid : String) : MockProvider :=
  (m.setHeld pcid none).setTask pcid ⟨[], (m.held pcid).toList, true⟩

/-- `_send`, or the next event of the batch. -/
def resume (m : MockProvider) (pcid : String) (reorder : Bool) : MockProvider :=
  match m.tasks pcid with
  | ⟨batch, ev :: sending, flushed⟩ =>
    { m.setTask pcid ⟨batch, sending, flushed⟩ with delivered := m.delivered ++ [(pcid, ev)] }
  | ⟨ev :: batch, [], flushed⟩ =>
    match m.held pcid with
    | none => (m.setHeld pcid (some ev)).setTask pcid ⟨batch, [], flushed⟩
    | some held =>
      let pair := if reorder then [ev, held] else [held, ev]
      (m.setHeld pcid none).setTask pcid ⟨batch, pair, flushed⟩
  | ⟨[], [], _⟩ => m

/-- One step of a call; a call emits nothing while it is busy, and nothing after its flush. -/
def step (m : MockProvider) : Act → MockProvider
  | .emit pcid e =>
    if (m.tasks pcid).Idle ∧ (m.tasks pcid).flushed = false then m.emit pcid e else m
  | .flush pcid =>
    if (m.tasks pcid).Idle ∧ (m.tasks pcid).flushed = false then m.flush pcid else m
  | .resume pcid reorder => m.resume pcid reorder

/-- The entries of a log under one call. -/
def under {α : Type} (pcid : String) (log : List (String × α)) : List α :=
  (log.filter fun e => e.1 == pcid).map Prod.snd

/-- The events delivered under a call. -/
def deliveredTo (m : MockProvider) (pcid : String) : List ProviderEvent := under pcid m.delivered

/-- The events emitted for a call, with their duplicates. -/
def emittedFor (m : MockProvider) (pcid : String) : List ProviderEvent :=
  (under pcid m.emissions).flatMap Emission.batch

section

variable {α : Type} {pcid other : String} {log : List (String × α)} {a : α}

/-- An entry of the same call comes last among the entries of that call. -/
@[simp] theorem under_concat_self : under pcid (log ++ [(pcid, a)]) = under pcid log ++ [a] := by
  simp [under]

/-- An entry of another call is not seen. -/
@[simp] theorem under_concat_of_ne (h : other ≠ pcid) :
    under pcid (log ++ [(other, a)]) = under pcid log := by
  simp [under, h]

end

end MockProvider

end SmartDialer
