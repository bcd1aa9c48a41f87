import SmartDialer.Lib.Rounding

namespace SmartDialer

open Numeric

/-!
# `providers/breaker.py`

The circuit breaker of a provider: closed, open after too many errors, half-open once the cooldown
is over, closed again after enough good probes.  `record` is told how a call attempt ended, `allow`
asks whether a call may be placed; asking is what makes an open breaker half-open.  Results that
are too old are dropped when one is recorded, and only then.
-/

/-- The states of the breaker. -/
inductive BreakerState where
  | closed | open | half_open
  deriving DecidableEq, Repr

/-- The parameters of a breaker and what it remembers: its state, when it opened, the probes it has
    counted, and its window of results. -/
structure CircuitBreaker where
  window_s : ℚ
  threshold : ℚ
  min_calls : ℤ
  cooldown_s : ℚ
  half_open_probes : ℤ
  state : BreakerState
  opened_at : ℚ
  probes : ℤ
  /-- The recorded results with their times, oldest first. -/
  events : List (ℚ × Bool)
  deriving DecidableEq, Repr

namespace CircuitBreaker

/-- `CircuitBreaker(clock, …)`. -/
def new (window_s threshold : ℚ) (min_calls : ℤ) (cooldown_s : ℚ) (half_open_probes : ℤ) :
    CircuitBreaker where
  window_s := window_s
  threshold := threshold
  min_calls := min_calls
  cooldown_s := cooldown_s
  half_open_probes := half_open_probes
  state := .closed
  opened_at := 0
  probes := 0
  events := []

/-- `CircuitBreaker(clock)`. -/
def default : CircuitBreaker := new 10 (1 / 4) 10 15 3

variable (fl : Rounding)

/-- `_trim`. -/
def trim (now : ℚ) (b : CircuitBreaker) : CircuitBreaker :=
  { b with events := b.events.dropWhile fun e => decide (fl (now - e.1) > b.window_s) }

/-- `_open`. -/
def trip (now : ℚ) (b : CircuitBreaker) : CircuitBreaker :=
  { b with state := .open, opened_at := now, probes := 0 }

/-- The failures among the recorded results. -/
def errors (b : CircuitBreaker) : ℕ := b.events.countP fun e => !e.2

/-- `record`: a result enters the window, and the breaker may close or open because of it. -/
def record (now : ℚ) (ok : Bool) (b : CircuitBreaker) : CircuitBreaker :=
  let b := trim fl now { b with events := b.events ++ [(now, ok)] }
  match b.state with
  | .half_open =>
    let b := { b with probes := b.probes + 1 }
    if ok = false then b.trip now
    else if b.probes ≥ b.half_open_probes then { b with state := .closed, events := [] }
    else b
  | .closed =>
    -- without results the division raises, and the breaker stays as it is
    if b.events ≠ [] ∧ b.events.length ≥ b.min_calls ∧
        fl.divNat b.errors b.events.length ≥ b.threshold then
      b.trip now
    else b
  | .open => b

/-- An open breaker stays shut until its cooldown is over. -/
def CoolingDown (now : ℚ) (b : CircuitBreaker) : Prop :=
  b.state = .open ∧ now < fl (b.opened_at + b.cooldown_s)

/-- The condition compares two numbers, so it can be evaluated. -/
instance (now : ℚ) (b : CircuitBreaker) : Decidable (CoolingDown fl now b) :=
  inferInstanceAs (Decidable (_ ∧ _))

/-- `allow`: the answer, and the breaker after the question. -/
def allow (now : ℚ) (b : CircuitBreaker) : Bool × CircuitBreaker :=
  match b.state with
  | .open =>
    if now ≥ fl (b.opened_at + b.cooldown_s) then
      (true, { b with state := .half_open, probes := 0 })   -- let the first probe through
    else (false, b)
  | .half_open => (decide (b.probes < b.half_open_probes), b)
  | .closed => (true, b)

/-- `error_rate`: over all results that are still there, however old. -/
def errorRate (b : CircuitBreaker) : ℚ :=
  if b.events = [] then 0 else fl.divNat b.errors b.events.length

/-! ### Asking -/

variable {fl} {now : ℚ} {b : CircuitBreaker}

/-- Asking drops no result. -/
@[simp] theorem allow_events : (b.allow fl now).2.events = b.events := by
  unfold allow
  split
  · split <;> rfl
  · rfl
  · rfl

/-- Asking changes the state at most, never the window, so it leaves the error rate alone. -/
@[simp] theorem allow_errorRate : (b.allow fl now).2.errorRate fl = b.errorRate fl := by
  unfold errorRate errors
  rw [allow_events]

/-- After asking, a breaker is open only during its cooldown. -/
theorem allow_open_iff : (b.allow fl now).2.state = .open ↔ b.CoolingDown fl now := by
  unfold allow CoolingDown
  split
  · rename_i hs
    split
    · rename_i hnow
      simp [not_lt.mpr hnow]
    · rename_i hnow
      simp [hs, not_le.mp hnow]
  · rename_i hs; simp [hs]
  · rename_i hs; simp [hs]

/-- A breaker in its cooldown admits nothing. -/
theorem allow_of_coolingDown (h : b.CoolingDown fl now) : (b.allow fl now).1 = false := by
  unfold allow
  rw [h.1]
  show (if now ≥ fl (b.opened_at + b.cooldown_s) then
    (true, { b with state := .half_open, probes := 0 }) else (false, b)).1 = false
  rw [if_neg (not_le.mpr h.2)]

end CircuitBreaker

end SmartDialer
