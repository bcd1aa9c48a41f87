import SmartDialer.Lib.Run
import SmartDialer.Lib.SessionLock
import SmartDialer.Lib.Table

namespace SmartDialer

open Relational

/-!
# `run_forever` of `worker/pacing_loop.py`

The pacing loops of one campaign and the advisory lock that elects the one of them that ticks.
`pg_try_advisory_lock` grants the lock to the session of a dedicated connection, and the server
drops it when that session ends; a loop learns of the grant once, keeps it in `leader`, and never
asks again.

A loop is one call of `run_forever`; the loops run in any number of processes.  A connection may be
lost without its loop noticing: the loop uses it for the lock alone, and `tick` takes its
transactions from the pool.
-/

/-- Where a loop is. -/
inductive Phase where
  /-- `leader` is false; the lock is tried next. -/
  | polling
  /-- `leader` is true; `tick` runs, or is about to. -/
  | leading
  /-- In the `finally` clause, with the value of `leader`. -/
  | leaving (leader : Bool)
  /-- The connection is back in its pool. -/
  | ended
  /-- The process is gone. -/
  | crashed
  deriving DecidableEq, Repr

/-- A worker in `run_forever`: the connection its pool dedicated to it, and how far it is. -/
structure Loop where
  lock_con : ℕ
  phase : Phase
  deriving DecidableEq, Repr

/-- The workers of one campaign and the server that holds its advisory lock. -/
structure Election where
  /-- The campaign's advisory lock, and the sessions of the server. -/
  server : SessionLock
  loops : Table Loop
  /-- The loops that ran `tick`, oldest first. -/
  ticks : List ℕ

/-- No connection is open, and no worker has started. -/
def Election.init : Election := ⟨.init, .empty, []⟩

/-- The connection is dedicated to a loop. -/
def Election.taken (s : Election) (con : ℕ) : Bool :=
  s.loops.select (fun _ l => l.lock_con == con && l.phase != .ended) ≠ []

/-- A loop goes on to another phase on the same connection. -/
def Election.setPhase (s : Election) (w : ℕ) (phase : Phase) : Election :=
  { s with loops := s.loops.alter w fun l => { l with phase := phase } }

/-! ### Actions -/

/-- What the workers, their pools and the server do, in any order. -/
inductive Election.Act where
  /-- A pool opens a connection. -/
  | connect
  /-- A worker enters `run_forever`: its pool dedicates a connection to it. -/
  | dedicated (w con : ℕ)
  /-- `try_leader` returns; it raises on a connection that is lost. -/
  | tryLeader (w : ℕ)
  /-- The task is cancelled while it waits for `try_leader`, which the server has answered. -/
  | cancelTryLeader (w : ℕ)
  | tick (w : ℕ)
  /-- `tick` or a sleep raises, or the task is cancelled there. -/
  | raised (w : ℕ)
  /-- The `finally` clause, where `release_leader` may fail or be cancelled, and the release of the
      connection to its pool, which may reset it. -/
  | leave (w : ℕ) (completes reset : Bool)
  | crash (w : ℕ)
  /-- The server ends a session; nobody is told. -/
  | lose (con : ℕ)
  deriving Repr

/-- The lock after a loop has left: `release_leader` may have run, and the pool may have reset the
    connection. -/
def released (server : SessionLock) (con : ℕ) (unlocks reset : Bool) : SessionLock :=
  let server := if unlocks then server.unlock con else server
  if reset then server.unlockAll con else server

/-- One action; an action that is not possible in a state changes nothing. -/
def Election.step (s : Election) : Act → Election
  | .connect => { s with server := s.server.openSession }
  | .dedicated w con =>
    if s.loops.get? w = none ∧ con < s.server.opened ∧ s.taken con = false then
      { s with loops := s.loops.insertAt w ⟨con, .polling⟩ }
    else s
  | .tryLeader w =>
    match s.loops.get? w with
    | some ⟨con, .polling⟩ =>
      if con ∈ s.server.live then
        if s.server.grants con then
          { s.setPhase w .leading with server := s.server.tryLock con }
        else s  -- it sleeps and polls again
      else s.setPhase w (.leaving false)
    | _ => s
  | .cancelTryLeader w =>
    match s.loops.get? w with
    | some ⟨con, .polling⟩ =>
      { s.setPhase w (.leaving false) with server := s.server.tryLock con }
    | _ => s
  | .tick w =>
    match s.loops.get? w with
    | some ⟨_, .leading⟩ => { s with ticks := s.ticks ++ [w] }
    | _ => s
  | .raised w =>
    match s.loops.get? w with
    | some ⟨_, .polling⟩ => s.setPhase w (.leaving false)
    | some ⟨_, .leading⟩ => s.setPhase w (.leaving true)
    | _ => s
  | .leave w completes reset =>
    match s.loops.get? w with
    | some ⟨con, .leaving leader⟩ =>
      { s.setPhase w .ended with server := released s.server con (leader && completes) reset }
    | _ => s
  | .crash w =>
    match s.loops.get? w with
    | some ⟨_, .ended⟩ => s
    | some _ => s.setPhase w .crashed
    | none => s
  | .lose con => { s with server := s.server.endSession con }

end SmartDialer
