import SmartDialer.Correctness.Ticks

namespace SmartDialer

open Relational BorrowerRepo

/-!
# The clock of the leases

Leases and locks are written from the caller's clock.  The sweeps of the agents and of the calls
compare them with that clock; `RECLAIM_EXPIRED_LOCKS` compares the locks with `now()` of Postgres.

* `reap_states_iff` — ticks at one time of the caller leave the same states exactly if both times of
  Postgres lie on the same side of every lock that the orphans leave.
* `reap_states_differ` — a reservation whose lock one of them takes, under a live call.
-/

/-- The states of all agents, calls and borrowers. -/
structure States where
  agents : Table AgentState
  calls : Table CallState
  borrowers : Table BorrowerState
  deriving DecidableEq

/-- The states among the unstamped rows. -/
def Unstamped.states (o : Unstamped) : States where
  agents := o.agents.map fun _ a => a.state
  calls := o.calls.map fun _ c => c.state
  borrowers := o.borrowers.map fun _ b => b.state

/-- The states in a database. -/
def Db.states (db : Db) : States where
  agents := db.agents.map fun _ a => a.state
  calls := db.calls.map fun _ c => c.state
  borrowers := db.borrowers.map fun _ b => b.state

/-- Removing the timestamps leaves the states alone. -/
theorem Db.unstamped_states (db : Db) : db.unstamped.states = db.states := by
  unfold Unstamped.states Db.unstamped
  simp only [Table.map_map]
  rfl

/-- The state of a borrower after a tick depends on `now()` only in the lock sweep. -/
theorem borrowerAfter_state_iff (w₁ w₂ : Time) (n : ℕ) (b : BorrowerRow) :
    (borrowerAfter w₁ n b).state = (borrowerAfter w₂ n b).state ↔
      (n = 0 → b.state = .LOCKED → before b.locked_until w₁ = before b.locked_until w₂) := by
  by_cases hn : n = 0
  · subst hn
    cases h₁ : before b.locked_until w₁ <;> cases h₂ : before b.locked_until w₂ <;>
      cases hs : b.state <;>
      simp [borrowerAfter, failedTimes, isLockExpired, unlockedRow, BorrowerRow.unstamped, hs, h₁,
        h₂]
  · rw [borrowerAfter_of_orphans w₁ hn, borrowerAfter_of_orphans w₂ hn]
    simp only [hn, false_implies]

/-- No orphan belongs to the borrower exactly when none of the orphaned calls is its. -/
theorem Unstamped.orphans_eq_zero_iff (db : Db) (now_ts : Time) (k : ℕ) :
    db.unstamped.orphans now_ts (fun c => c.borrower_id == k) = 0 ↔
      ∀ j c, db.calls.get? j = some c → isOrphan now_ts c = true → c.borrower_id ≠ k := by
  unfold Unstamped.orphans Db.unstamped
  rw [Table.count_map, Table.count_eq_zero_iff]
  simp only [isOrphan_unstamped, Bool.and_eq_false_imp, beq_eq_false_iff_ne]
  exact Iff.rfl

/-- **One clock.** Two ticks at one time of the caller's clock leave the same states whatever
    `now()` was, exactly if it makes no difference to the locks: each is over at both times or at
    neither, except those that are given up with an orphan.  All comparisons but one take the time
    that the caller hands over; the locks of borrowers are compared with `now()`. -/
theorem reap_states_iff (db : Db) (now_ts now₁ now₂ : Time) (registry : Option (List String)) :
    ((reap now₁ now_ts registry).commit db).states =
        ((reap now₂ now_ts registry).commit db).states ↔
      ∀ k b, db.borrowers.get? k = some b → b.state = .LOCKED →
        (∀ j c, db.calls.get? j = some c → isOrphan now_ts c = true → c.borrower_id ≠ k) →
        before b.locked_until now₁ = before b.locked_until now₂ := by
  have hstates : ∀ now, ((reap now now_ts registry).commit db).states =
      (db.unstamped.tick now now_ts).states := by
    intro now
    rw [← Db.unstamped_states, reap_unstamped]
  have hborrowers : ∀ now, (db.unstamped.tick now now_ts).states.borrowers =
      db.borrowers.map fun k b => (borrowerAfter now
        (db.unstamped.orphans now_ts fun c => c.borrower_id == k) b.unstamped).state := by
    intro now
    show ((db.unstamped.tick now now_ts).borrowers.map fun _ b => b.state) = _
    have hfirst : db.unstamped.borrowers = db.borrowers.map fun _ b => b.unstamped := rfl
    rw [Unstamped.tick_borrowers, Table.map_map, hfirst, Table.map_map]
  -- what becomes of agents and calls does not mention `now()`
  have hsame : (db.unstamped.tick now₁ now_ts).states = (db.unstamped.tick now₂ now_ts).states ↔
      (db.unstamped.tick now₁ now_ts).states.borrowers =
        (db.unstamped.tick now₂ now_ts).states.borrowers := by
    constructor
    · exact congrArg States.borrowers
    · intro h
      show States.mk _ _ _ = States.mk _ _ _
      congr 1
  rw [hstates, hstates, hsame, hborrowers, hborrowers, Table.map_eq_map_iff]
  simp only [borrowerAfter_state_iff, Unstamped.orphans_eq_zero_iff]
  constructor
  · intro h k b hb hs horphan
    exact h k b hb horphan hs
  · intro h k b hb horphan hs
    exact h k b hb hs horphan

/-- Ten seconds into a reservation the tick leaves it alone, unless Postgres is ahead: then the
    borrower is up for another call, and the agent and the call are still reserved. -/
theorem reap_states_differ :
    let db := (run (step .default) Sys.init reservedRun).db
    ((reap (secs 10) (secs 10) none).commit db).states ≠
        ((reap (secs 31) (secs 10) none).commit db).states ∧
      ((reap (secs 10) (secs 10) none).commit db).states = db.states ∧
      ((reap (secs 31) (secs 10) none).commit db).states =
        { db.states with borrowers := db.states.borrowers.map fun _ _ => .PENDING } := by
  decide +kernel

end SmartDialer
