import Mathlib.Data.List.Basic
import Mathlib.Tactic.Cases

namespace SmartDialer

/-!
# States and legal transitions

The enumerations of the domain and the call life cycle: the rank of a call state, the
table of legal successors, the check an event has to pass, and the agent state that a call
state entails.

* `canApply` — the check of the event applier, on the state of a call it has read.
* `legalNext_rank` — a legal successor has a higher rank; hence the terminal states, all at
  the highest rank, have none.
* `legalNext_terminal` — a terminal state is legal from every non-terminal one.
-/

/-- The states of an agent, those of the database type `agent_state`. -/
inductive AgentState where
  | OFFLINE | AVAILABLE | RESERVED | DIALING | CONNECTED | WRAP_UP | PAUSED
  deriving DecidableEq, Repr

/-- The states of a call, in the order of their ranks; the last four are terminal. -/
inductive CallState where
  | QUEUED | RESERVED | INITIATED | RINGING | ANSWERED | CONNECTED
  | COMPLETED | FAILED | CANCELLED | ABANDONED
  deriving DecidableEq, Repr

/-- The states of a borrower within a campaign. -/
inductive BorrowerState where
  | PENDING | LOCKED | IN_CALL | DONE | EXHAUSTED | SUPPRESSED
  deriving DecidableEq, Repr

/-- Why a ledger row was recorded without a transition. -/
inductive Anomaly where
  | OUT_OF_ORDER | ILLEGAL_TRANSITION | UNKNOWN_CALL
  deriving DecidableEq, Repr

/-- The constructor `CallState(value)` of the string enumeration; it raises on other strings. -/
def CallState.ofString? : String → Option CallState
  | "QUEUED" => some .QUEUED
  | "RESERVED" => some .RESERVED
  | "INITIATED" => some .INITIATED
  | "RINGING" => some .RINGING
  | "ANSWERED" => some .ANSWERED
  | "CONNECTED" => some .CONNECTED
  | "COMPLETED" => some .COMPLETED
  | "FAILED" => some .FAILED
  | "CANCELLED" => some .CANCELLED
  | "ABANDONED" => some .ABANDONED
  | _ => none

/-! ### Ranks and successors -/

/-- The position of a call state in its life cycle. -/
def rank : CallState → ℕ
  | .QUEUED => 0
  | .RESERVED => 1
  | .INITIATED => 2
  | .RINGING => 3
  | .ANSWERED => 4
  | .CONNECTED => 5
  | .COMPLETED | .FAILED | .CANCELLED | .ABANDONED => 6

/-- The rank that the four terminal states share. -/
def terminalRank : ℕ := 6

/-- The states of terminal rank. -/
def terminal : List CallState :=
  [CallState.QUEUED, .RESERVED, .INITIATED, .RINGING, .ANSWERED, .CONNECTED, .COMPLETED,
    .FAILED, .CANCELLED, .ABANDONED].filter fun s => rank s == terminalRank

/-- The legal successors of a call state. -/
def legalNext : CallState → List CallState
  | .QUEUED => .RESERVED :: terminal
  | .RESERVED => .INITIATED :: terminal
  | .INITIATED => .RINGING :: .ANSWERED :: terminal
  | .RINGING => .ANSWERED :: terminal
  | .ANSWERED => .CONNECTED :: terminal
  | .CONNECTED => terminal
  | .COMPLETED | .FAILED | .CANCELLED | .ABANDONED => []

/-- May an event claiming `incoming` be applied to a call in state `current`?  If not, why. -/
def canApply (current incoming : CallState) : Bool × Option Anomaly :=
  if rank current ≥ terminalRank then (false, some .OUT_OF_ORDER)
  else if rank incoming ≤ rank current then (false, some .OUT_OF_ORDER)
  else if incoming ∉ legalNext current then (false, some .ILLEGAL_TRANSITION)
  else (true, none)

/-- The agent state that a transition of a call into the given state entails. -/
def agentOnCallState : CallState → Option AgentState
  | .INITIATED => some .DIALING
  | .CONNECTED => some .CONNECTED
  | .COMPLETED => some .WRAP_UP
  | .FAILED | .CANCELLED | .ABANDONED => some .AVAILABLE
  | .QUEUED | .RESERVED | .RINGING | .ANSWERED => none

/-! ### Properties of the table -/

/-- A call state is terminal when its rank is. -/
def CallState.isTerminal (s : CallState) : Bool := rank s == terminalRank

/-- The list and the predicate agree on which states are terminal. -/
theorem mem_terminal {s : CallState} : s ∈ terminal ↔ s.isTerminal = true := by
  cases s <;> decide

/-- No state ranks above the terminal ones. -/
theorem rank_le_terminalRank (s : CallState) : rank s ≤ terminalRank := by
  cases s <;> decide

/-- Terminal states are the states of rank six and above. -/
theorem isTerminal_iff {s : CallState} : s.isTerminal = true ↔ 6 ≤ rank s := by
  cases s <;> decide

/-- A state is live exactly when its rank is below the terminal one; `omega` works with the second
    form. -/
theorem not_isTerminal_iff {s : CallState} : s.isTerminal = false ↔ rank s < 6 := by
  cases s <;> decide

/-- **Progress.** A legal successor has a higher rank. -/
theorem legalNext_rank {s t : CallState} (h : t ∈ legalNext s) : rank s < rank t := by
  cases s <;> cases t <;> revert h <;> decide

/-- A terminal state is a legal successor of every state that is not terminal. -/
theorem legalNext_terminal {s t : CallState} (hs : s.isTerminal = false)
    (ht : t.isTerminal = true) : t ∈ legalNext s := by
  cases s <;> cases t <;> revert hs ht <;> decide

/-- A terminal state has no successor. -/
theorem legalNext_of_isTerminal {s : CallState} (h : s.isTerminal = true) : legalNext s = [] := by
  cases s <;> revert h <;> decide

/-- The check passes exactly on the legal successors. -/
theorem canApply_iff {s t : CallState} : (canApply s t).1 = true ↔ t ∈ legalNext s := by
  cases s <;> cases t <;> decide

/-- A refused event always comes with its anomaly. -/
theorem canApply_anomaly (s t : CallState) :
    (canApply s t).2 = none ↔ (canApply s t).1 = true := by
  cases s <;> cases t <;> decide

end SmartDialer
