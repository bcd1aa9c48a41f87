import SmartDialer.Lib.Agenda
import Mathlib.Data.Prod.Lex

namespace SmartDialer

open Relational

/-!
# `clock.py`

`VirtualClock`, and the part of the event loop that its tasks meet: callbacks are run in the order
in which they became ready.  A task that is run goes on to its next `sleep`, or to something else
that it waits for, or to its end; which of them, and for how long, is an input.  One caller drives
the clock through `advance_to_next`, again and again, as `run_until` does.  No task is cancelled, so
the test of `fut.done()` does nothing.

`advance_to_next` has two phases.  The first one waits until no task is in `critical()`; the second
one polls for a waiter, and does not test `critical()` again.  The first 500 polls are free; what
comes later, and the whole of the first phase, sleeps for a millisecond of real time.  When such a
timer runs out is an input; with nothing else to run, the loop waits for it.
-/

/-- What the clock needs of its numbers: a delay of at least zero does not lead back.  So it is with
    exact fractions, and also with floats, where the sum is rounded. -/
structure Timeline (T D : Type) [LinearOrder T] where
  /-- `self._now + seconds` -/
  after : T → D → T
  le_after (t : T) (d : D) : t ≤ after t d

/-- Whole seconds. -/
def Timeline.nat : Timeline ℕ ℕ := ⟨fun t d => t + d, Nat.le_add_right⟩

/-- A call of `sleep`, with its entry in the heap. -/
structure Sleep (T D : Type) where
  task : String
  /-- The time of the call. -/
  began : T
  seconds : D
  /-- The first component of the entry. -/
  deadline : T
  /-- Its second component, the number of the call. -/
  seq : ℕ
  deriving Repr

/-- The tuples in the heap differ in their second component at the latest. -/
def Sleep.key {T D : Type} (s : Sleep T D) : T ×ₗ ℕ := toLex (s.deadline, s.seq)

/-- The fields of the clock. -/
structure VirtualClock (T D : Type) where
  /-- `_now` -/
  now : T
  /-- The heap, with the least entry first. -/
  waiters : List (Sleep T D)
  /-- `_seq`, the number of calls of `sleep`. -/
  seq : ℕ
  /-- `_critical_depth`, the number of tasks in `critical()`. -/
  critical_depth : ℕ

section

variable {T D : Type} [LinearOrder T]

/-- `sleep` up to its `await`. -/
def VirtualClock.sleep (L : Timeline T D) (c : VirtualClock T D) (task : String) (seconds : D) :
    Sleep T D × VirtualClock T D :=
  let s : Sleep T D := ⟨task, c.now, seconds, L.after c.now seconds, c.seq + 1⟩
  (s, { c with seq := c.seq + 1, waiters := push Sleep.key s c.waiters })

/-- The jump of `advance_to_next`: the entries popped, and the clock after it. -/
def VirtualClock.jump (c : VirtualClock T D) (deadline : T) : List (Sleep T D) × VirtualClock T D :=
  let due := fun s : Sleep T D => decide (s.deadline ≤ deadline)
  (c.waiters.takeWhile due, { c with now := deadline, waiters := c.waiters.dropWhile due })

/-! ### The event loop -/

/-- Where the caller of `advance_to_next` is. -/
inductive Advance where
  /-- In its first phase, which a new call begins with. -/
  | settling
  /-- In its second phase, with a number of free polls left. -/
  | polling (free : ℕ)
  /-- Behind its jump, about to return `True`. -/
  | jumped
  deriving DecidableEq, Repr

/-- What the event loop runs. -/
inductive Callback (T D : Type) where
  /-- A task that is new, or comes back from real I/O. -/
  | start (task : String)
  /-- The future of a sleep has its result. -/
  | wake (s : Sleep T D)
  /-- The caller of `advance_to_next`, after `asyncio.sleep` or at its call. -/
  | driver (phase : Advance)

/-- Is it the caller of `advance_to_next`? -/
def Callback.isDriver : Callback T D → Bool
  | .driver _ => true
  | _ => false

/-- The event loop, with the clock that its tasks share. -/
structure EventLoop (T D : Type) where
  clock : VirtualClock T D
  /-- The callbacks that are ready, the next one first. -/
  ready : List (Callback T D)
  /-- The caller of `advance_to_next` while it is in `asyncio.sleep(0.001)`. -/
  timer : Option Advance
  /-- The calls of `sleep`, oldest first; this and the next log are no part of the program. -/
  begun : List (Sleep T D)
  /-- The sleeps that have returned, oldest first, with `now()` at that moment. -/
  resumed : List (Sleep T D × T)

namespace EventLoop

/-- A new clock, and nothing to run. -/
def init (start : T) : EventLoop T D := ⟨⟨start, [], 0, 0⟩, [], none, [], []⟩

/-- What may happen to the event loop. -/
inductive Act (D : Type) where
  /-- A task is created, or its I/O is done. -/
  | spawn (task : String)
  /-- A task enters or leaves `critical()`. -/
  | enter
  | exit
  /-- Someone calls `advance_to_next`. -/
  | drive
  /-- `asyncio.sleep(0.001)` is over. -/
  | timeout
  /-- `advance_to_next` returns: `True`, and its caller does not call again, as `run_until` does
      not at its end; or `False`, when it has polled for two seconds in vain. -/
  | leave
  /-- The first callback is run, or else the one that waits for the timer; a task then sleeps for
      `next`, or does not. -/
  | run (next : Option D)

/-- A task runs to its next sleep. -/
def goOn (L : Timeline T D) (l : EventLoop T D) (task : String) : Option D → EventLoop T D
  | none => l
  | some seconds =>
    let s := l.clock.sleep L task seconds
    { l with clock := s.2, begun := l.begun ++ [s.1] }

/-- `asyncio.sleep(0)`: the driver goes to the end of the queue. -/
def defer (l : EventLoop T D) (phase : Advance) : EventLoop T D :=
  { l with ready := l.ready ++ [.driver phase] }

/-- `asyncio.sleep(0.001)`: the driver waits for its timer. -/
def nap (l : EventLoop T D) (phase : Advance) : EventLoop T D := { l with timer := some phase }

/-- The driver jumps to a deadline, wakes up who is due, and goes behind them. -/
def release (l : EventLoop T D) (deadline : T) : EventLoop T D :=
  let j := l.clock.jump deadline
  { l with clock := j.2, ready := l.ready ++ j.1.map .wake ++ [.driver .jumped] }

/-- The second phase up to its next `asyncio.sleep`: it jumps as soon as there is a waiter. -/
def poll (l : EventLoop T D) (free : ℕ) : EventLoop T D :=
  match l.clock.waiters, free with
  | w :: _, _ => l.release w.deadline
  | [], free + 1 => l.defer (.polling free)
  | [], 0 => l.nap (.polling 0)

/-- The first phase up to its next `asyncio.sleep`; it may go on to the second one. -/
def settle (l : EventLoop T D) : EventLoop T D :=
  if 0 < l.clock.critical_depth then l.nap .settling else l.poll 500

/-- `advance_to_next` up to its next `asyncio.sleep`.  Behind its jump it returns, and is called
    again. -/
def advance_to_next (l : EventLoop T D) : Advance → EventLoop T D
  | .settling | .jumped => l.settle
  | .polling free => l.poll free

/-- May `advance_to_next` return, and its caller go away? -/
def mayLeave (l : EventLoop T D) : Advance → Bool
  | .settling => false
  | .polling free => free == 0 && l.clock.waiters.isEmpty
  | .jumped => true

/-- Someone is in `advance_to_next`. -/
def isDriven (l : EventLoop T D) : Bool := l.timer.isSome || l.ready.any (·.isDriver)

/-- `critical()` counts who is in it. -/
def setCritical (l : EventLoop T D) (depth : ℕ) : EventLoop T D :=
  { l with clock := { l.clock with critical_depth := depth } }

/-- One step of the event loop. -/
def step (L : Timeline T D) (l : EventLoop T D) : Act D → EventLoop T D
  | .spawn task => { l with ready := l.ready ++ [.start task] }
  | .enter => l.setCritical (l.clock.critical_depth + 1)
  | .exit => l.setCritical (l.clock.critical_depth - 1)
  | .drive => if l.isDriven then l else l.defer .settling
  | .timeout =>
    match l.timer with
    | some phase => { l with timer := none }.defer phase
    | none => l
  | .leave =>
    match l.ready with
    | .driver phase :: ready => if l.mayLeave phase then { l with ready } else l
    | _ => l
  | .run next =>
    match l.ready with
    | [] =>
      match l.timer with
      | some phase => { l with timer := none }.advance_to_next phase
      | none => l
    | .start task :: ready => { l with ready }.goOn L task next
    | .wake s :: ready =>
      { l with ready, resumed := l.resumed ++ [(s, l.clock.now)] }.goOn L s.task next
    | .driver phase :: ready => { l with ready }.advance_to_next phase

/-- The times at which a sleep has returned. -/
def resumptions (l : EventLoop T D) (s : Sleep T D) : List T :=
  (l.resumed.filter fun r => r.1.seq == s.seq).map Prod.snd

end EventLoop

end

end SmartDialer
