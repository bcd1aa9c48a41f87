import SmartDialer.Lib.Table
import SmartDialer.Lib.Txn
import SmartDialer.Domain.Transitions
import Mathlib.Data.List.Sort

namespace SmartDialer

open Relational

/-!
# The database

The tables of `migrations/001_init.sql`, the counter triggers of `002_counters.sql`, and the
primitive writes that the statements of the repositories are made of.

* Timestamps are microseconds (the resolution of `timestamptz`).  `now` is always Postgres'
  own `now()`, the start of the transaction; the callers' clocks appear only as parameters.
* A `Db` carries the two unique indexes on `calls` as fields.  A write to `calls` is checked
  against them and aborts the transaction when it breaks one, as Postgres does.
* A write to `agents` or `calls` fires the counter trigger once for each row it writes.
* `versions` records every row image a statement writes to `calls`, oldest first.  It is not
  a table of the program: it is Postgres' chain of tuple versions, kept for observation.
-/

/-- A point in time, in microseconds. -/
abbrev Time := ℤ

/-- A duration of whole seconds. -/
def secs (n : ℤ) : Time := n * 1000000

/-- `column < t` on a nullable timestamp: not true when the column is null. -/
def before (l : Option Time) (t : Time) : Bool :=
  match l with
  | some e => decide (e < t)
  | none => false

/-- A comparison with `NULL` selects nothing. -/
@[simp] theorem before_none (t : Time) : before none t = false := rfl

/-- A comparison with a stored time is the comparison of the times. -/
@[simp] theorem before_some (e t : Time) : before (some e) t = decide (e < t) := rfl

/-! ### Rows -/

/-- A row of `campaigns`; the rest of it is configuration that no modelled statement reads. -/
structure CampaignRow where
  is_active : Bool
  deriving DecidableEq, Repr

/-- A row of `agents`. -/
structure AgentRow where
  campaign_id : ℕ
  ext_ref : String
  state : AgentState
  version : ℕ
  lease_owner : Option String
  lease_expires_at : Option Time
  current_call_id : Option ℕ
  state_changed_at : Time
  updated_at : Time
  deriving DecidableEq, Repr

/-- A row of `borrowers`. -/
structure BorrowerRow where
  campaign_id : ℕ
  phone : String
  priority : ℤ
  state : BorrowerState
  attempt_count : ℕ
  max_attempts : ℕ
  next_eligible_at : Time
  locked_by : Option String
  locked_until : Option Time
  deriving DecidableEq, Repr

/-- A row of `calls`. -/
structure CallRow where
  campaign_id : ℕ
  agent_id : Option ℕ
  borrower_id : ℕ
  provider : String
  provider_call_id : Option String
  state : CallState
  state_rank : ℕ
  attempt_no : ℕ
  idempotency_key : String
  lease_owner : Option String
  lease_expires_at : Option Time
  initiated_at : Option Time
  ringing_at : Option Time
  answered_at : Option Time
  connected_at : Option Time
  terminal_at : Option Time
  failure_reason : Option String
  created_at : Time
  deriving DecidableEq, Repr

/-- A row of `provider_events`, the ledger. -/
structure EventRow where
  provider : String
  provider_event_id : String
  provider_call_id : Option String
  call_id : Option ℕ
  event_type : String
  provider_ts : Time
  received_at : Time
  applied : Bool
  anomaly : Option Anomaly
  payload : String
  deriving DecidableEq, Repr

/-- A row of `campaign_counters`, which only triggers write. -/
structure CountersRow where
  agents_available : ℤ
  agents_reserved : ℤ
  agents_dialing : ℤ
  agents_connected : ℤ
  agents_wrapup : ℤ
  calls_ringing : ℤ
  calls_connected : ℤ
  updated_at : Time
  deriving DecidableEq, Repr

/-! ### Counter triggers -/

/-- `CASE WHEN b THEN 1 ELSE 0 END`. -/
def ind (b : Bool) : ℤ := if b then 1 else 0

/-- The column defaults of a new counters row. -/
def CountersRow.default (now : Time) : CountersRow := ⟨0, 0, 0, 0, 0, 0, 0, now⟩

/-- `trg_agents_counters`: without an old row it is fired by an `INSERT`, with one by an
    `UPDATE`, which counts only when the state is distinct. -/
def trgAgentsCounters (now : Time) (old : Option AgentRow) (new : AgentRow)
    (counters : Table CountersRow) : Table CountersRow :=
  match old with
  | none =>
    (counters.insertAt new.campaign_id (.default now)).modify (fun c _ => c == new.campaign_id)
      fun r => { r with
        agents_available := r.agents_available + ind (new.state == .AVAILABLE)
        agents_reserved := r.agents_reserved + ind (new.state == .RESERVED)
        agents_dialing := r.agents_dialing + ind (new.state == .DIALING)
        agents_connected := r.agents_connected + ind (new.state == .CONNECTED)
        agents_wrapup := r.agents_wrapup + ind (new.state == .WRAP_UP)
        updated_at := now }
  | some old =>
    if old.state ≠ new.state then
      counters.modify (fun c _ => c == new.campaign_id) fun r => { r with
        agents_available := r.agents_available
          + ind (new.state == .AVAILABLE) - ind (old.state == .AVAILABLE)
        agents_reserved := r.agents_reserved
          + ind (new.state == .RESERVED) - ind (old.state == .RESERVED)
        agents_dialing := r.agents_dialing
          + ind (new.state == .DIALING) - ind (old.state == .DIALING)
        agents_connected := r.agents_connected
          + ind (new.state == .CONNECTED) - ind (old.state == .CONNECTED)
        agents_wrapup := r.agents_wrapup
          + ind (new.state == .WRAP_UP) - ind (old.state == .WRAP_UP)
        updated_at := now }
    else counters

/-- `state IN ('INITIATED','RINGING')`. -/
def CallState.isRinging (s : CallState) : Bool := s == .INITIATED || s == .RINGING

/-- `trg_calls_counters`, with the same convention. -/
def trgCallsCounters (now : Time) (old : Option CallRow) (new : CallRow)
    (counters : Table CountersRow) : Table CountersRow :=
  match old with
  | none =>
    (counters.insertAt new.campaign_id (.default now)).modify (fun c _ => c == new.campaign_id)
      fun r => { r with
        calls_ringing := r.calls_ringing + ind new.state.isRinging
        calls_connected := r.calls_connected + ind (new.state == .CONNECTED)
        updated_at := now }
  | some old =>
    if old.state ≠ new.state then
      counters.modify (fun c _ => c == new.campaign_id) fun r => { r with
        calls_ringing := r.calls_ringing + ind new.state.isRinging - ind old.state.isRinging
        calls_connected := r.calls_connected
          + ind (new.state == .CONNECTED) - ind (old.state == .CONNECTED)
        updated_at := now }
    else counters

/-! ### The tables and their constraints -/

/-- The value of `UNIQUE (idempotency_key)`. -/
def CallRow.keyIndex (c : CallRow) : Option String := some c.idempotency_key

/-- The value of `idx_calls_provider_id`, absent while there is no provider call id. -/
def CallRow.refIndex (c : CallRow) : Option (String × String) :=
  c.provider_call_id.map fun pcid => (c.provider, pcid)

/-- The tables, with the two unique indexes on `calls` as fields: a database that breaks one of them
    cannot be built. -/
structure Db where
  campaigns : Table CampaignRow
  agents : Table AgentRow
  borrowers : Table BorrowerRow
  calls : Table CallRow
  provider_events : Table EventRow
  campaign_counters : Table CountersRow
  /-- The row images written to `calls`, oldest first. -/
  versions : List (ℕ × CallRow)
  /-- `UNIQUE (idempotency_key)`: a retry cannot double-dial. -/
  keyUnique : calls.UniqueOn CallRow.keyIndex
  /-- `UNIQUE (provider, provider_call_id)` where the latter is not null. -/
  refUnique : calls.UniqueOn CallRow.refIndex

/-- The database after the migrations: every table is empty. -/
def Db.empty : Db where
  campaigns := .empty
  agents := .empty
  borrowers := .empty
  calls := .empty
  provider_events := .empty
  campaign_counters := .empty
  versions := []
  keyUnique := Table.uniqueOn_empty _
  refUnique := Table.uniqueOn_empty _

/-- What makes a statement fail. -/
inductive SqlError where
  | uniqueViolation
  deriving DecidableEq, Repr

/-- A transaction on the database. -/
abbrev Tx := Txn SqlError Db

/-! ### Primitive writes -/

/-- The database after `agents` is updated: the rows selected by `p` are set by `f`. -/
def Db.setAgents (db : Db) (now : Time) (p : ℕ → AgentRow → Bool) (f : AgentRow → AgentRow) : Db :=
  { db with
    agents := db.agents.modify p f
    campaign_counters := (db.agents.select p).foldl
      (fun counters e => trgAgentsCounters now (some e.2) (f e.2) counters) db.campaign_counters }

/-- `UPDATE agents … RETURNING`. -/
def updateAgents (now : Time) (p : ℕ → AgentRow → Bool) (f : AgentRow → AgentRow) :
    Tx (List (ℕ × AgentRow)) := fun db =>
  .ok ((db.agents.select p).map fun e => (e.1, f e.2), db.setAgents now p f)

/-- `INSERT INTO agents … RETURNING id`, under `UNIQUE (campaign_id, ext_ref)`. -/
def insertAgent (now : Time) (r : AgentRow) : Tx ℕ := fun db =>
  if db.agents.select (fun _ a =>
      a.campaign_id == r.campaign_id && a.ext_ref == r.ext_ref) = [] then
    .ok (db.agents.nextId,
      { db with
        agents := db.agents.push r
        campaign_counters := trgAgentsCounters now none r db.campaign_counters })
  else .error .uniqueViolation

/-- The database after `borrowers` is updated. -/
def Db.setBorrowers (db : Db) (p : ℕ → BorrowerRow → Bool) (f : BorrowerRow → BorrowerRow) : Db :=
  { db with borrowers := db.borrowers.modify p f }

/-- `UPDATE borrowers … RETURNING`. -/
def updateBorrowers (p : ℕ → BorrowerRow → Bool) (f : BorrowerRow → BorrowerRow) :
    Tx (List (ℕ × BorrowerRow)) := fun db =>
  .ok ((db.borrowers.select p).map fun e => (e.1, f e.2), db.setBorrowers p f)

/-- `UPDATE calls … RETURNING`, checked against the unique indexes. -/
def updateCalls (now : Time) (p : ℕ → CallRow → Bool) (f : CallRow → CallRow) :
    Tx (List (ℕ × CallRow)) := fun db =>
  let rows := (db.calls.select p).map fun e => (e.1, f e.2)
  if h : (db.calls.modify p f).UniqueOn CallRow.keyIndex ∧
      (db.calls.modify p f).UniqueOn CallRow.refIndex then
    .ok (rows,
      { db with
        calls := db.calls.modify p f
        campaign_counters := (db.calls.select p).foldl
          (fun counters e => trgCallsCounters now (some e.2) (f e.2) counters) db.campaign_counters
        versions := db.versions ++ rows
        keyUnique := h.1
        refUnique := h.2 })
  else .error .uniqueViolation

/-- `INSERT INTO calls … RETURNING id`, checked against the unique indexes. -/
def insertCall (now : Time) (r : CallRow) : Tx ℕ := fun db =>
  if h : (db.calls.push r).UniqueOn CallRow.keyIndex ∧
      (db.calls.push r).UniqueOn CallRow.refIndex then
    .ok (db.calls.nextId,
      { db with
        calls := db.calls.push r
        campaign_counters := trgCallsCounters now none r db.campaign_counters
        versions := db.versions ++ [(db.calls.nextId, r)]
        keyUnique := h.1
        refUnique := h.2 })
  else .error .uniqueViolation

/-- The database after `provider_events` is updated. -/
def Db.setEvents (db : Db) (p : ℕ → EventRow → Bool) (f : EventRow → EventRow) : Db :=
  { db with provider_events := db.provider_events.modify p f }

/-- `UPDATE provider_events …`. -/
def updateEvents (p : ℕ → EventRow → Bool) (f : EventRow → EventRow) :
    Tx (List (ℕ × EventRow)) := fun db =>
  .ok ((db.provider_events.select p).map fun e => (e.1, f e.2), db.setEvents p f)

end SmartDialer
