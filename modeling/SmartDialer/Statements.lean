import SmartDialer.Lib.Run
import SmartDialer.Repo.Agents
import SmartDialer.Repo.Calls

namespace SmartDialer

open Relational

/-!
# Runs of single statements

Every statement of the program that writes `agents` or `calls`, and runs of them in any order,
whatever the transactions around them.  `release`, `login`, `logout` and `pause` are
`forceState` with their own arguments.
-/

/-- A statement that writes `agents` or `calls`, with its arguments. -/
inductive Stmt where
  | createAgent (now : Time) (campaign_id : ℕ) (ext_ref : String)
  | reserve (now : Time) (agent_id version : ℕ) (worker : String) (lease_until : Time)
  | forceState (now : Time) (agent_id : ℕ) (state : AgentState) (worker : Option String)
      (lease_until : Option Time) (call_id : Option ℕ)
  | reclaimAgents (now now_ts : Time)
  | releaseWrapup (now now_ts : Time)
  | createCall (now : Time) (campaign_id agent_id borrower_id : ℕ) (provider : String)
      (attempt_no : ℕ) (idem worker : String) (lease_until : Time)
  | advance (now : Time) (call_id : ℕ) (state : CallState) (provider_call_id : Option String)
      (lease_until : Option Time) (failure_reason : Option String)
  | cancelIfNotAnswered (now : Time) (call_id : ℕ) (reason : String)
  | failOrphanCalls (now now_ts : Time)
  deriving Repr

/-- Commit one statement; one that fails leaves the database as it was. -/
def Stmt.exec (db : Db) : Stmt → Db
  | .createAgent now campaign_id ext_ref =>
    (AgentRepo.create now campaign_id ext_ref).commit db
  | .reserve now agent_id version worker lease_until =>
    (AgentRepo.reserve now agent_id version worker lease_until).commit db
  | .forceState now agent_id state worker lease_until call_id =>
    (AgentRepo.forceState now agent_id state worker lease_until call_id).commit db
  | .reclaimAgents now now_ts => (SmartDialer.reclaimAgents now now_ts).commit db
  | .releaseWrapup now now_ts => (SmartDialer.releaseWrapup now now_ts).commit db
  | .createCall now campaign_id agent_id borrower_id provider attempt_no idem worker lease_until =>
    (CallRepo.create now campaign_id agent_id borrower_id provider attempt_no idem worker
      lease_until).commit db
  | .advance now call_id state provider_call_id lease_until failure_reason =>
    (CallRepo.advance now call_id state provider_call_id lease_until failure_reason).commit db
  | .cancelIfNotAnswered now call_id reason =>
    (CallRepo.cancelIfNotAnswered now call_id reason).commit db
  | .failOrphanCalls now now_ts => (SmartDialer.failOrphanCalls now now_ts).commit db

/-- The agents that the `WHERE` clause of a statement selects; an `INSERT`, or an `UPDATE` of
    `calls`, selects none. -/
def Stmt.selects : Stmt → ℕ → AgentRow → Bool
  | .reserve _ agent_id version _ _ => fun i a =>
    i == agent_id && (a.state == .AVAILABLE && a.version == version)
  | .forceState _ agent_id _ _ _ _ => fun i _ => i == agent_id
  | .reclaimAgents _ now_ts => fun _ a => isReclaimed now_ts a
  | .releaseWrapup _ now_ts => fun _ a => isWrapupOver now_ts a
  | .createAgent .. | .createCall .. | .advance .. | .cancelIfNotAnswered ..
  | .failOrphanCalls .. => fun _ _ => false

/-- The ways in which a statement changes `agents` and `calls`: a row is added, or the rows
    selected by a filter are set.  The second index is the filter on `agents`. -/
inductive Stmt.Effect (db : Db) : (ℕ → AgentRow → Bool) → Db → Prop
  | none : Effect db (fun _ _ => false) db
  | insertAgent {now : Time} {r : AgentRow} {i : ℕ} {db' : Db}
      (h : (SmartDialer.insertAgent now r).run db = .ok (i, db')) :
      Effect db (fun _ _ => false) db'
  | updateAgents (now : Time) (p : ℕ → AgentRow → Bool) (f : AgentRow → AgentRow)
      (hf : ∀ a, (f a).campaign_id = a.campaign_id ∧ (f a).version = a.version + 1) :
      Effect db p (db.setAgents now p f)
  | insertCall {now : Time} {r : CallRow} {i : ℕ} {db' : Db}
      (h : (SmartDialer.insertCall now r).run db = .ok (i, db')) :
      Effect db (fun _ _ => false) db'
  | updateCalls {now : Time} {p : ℕ → CallRow → Bool} {f : CallRow → CallRow}
      {rows : List (ℕ × CallRow)} {db' : Db} (hf : ∀ c, (f c).campaign_id = c.campaign_id)
      (h : (SmartDialer.updateCalls now p f).run db = .ok (rows, db')) :
      Effect db (fun _ _ => false) db'

/-- A program whose only write is one update of `calls` has the effect of that update. -/
private theorem effect_of_updateCalls {α : Type} {now : Time} {p : ℕ → CallRow → Bool}
    {f : CallRow → CallRow} (hf : ∀ c, (f c).campaign_id = c.campaign_id)
    (g : List (ℕ × CallRow) → α) (db : Db) :
    Stmt.Effect db (fun _ _ => false)
      ((updateCalls now p f >>= fun rows => pure (g rows)).commit db) := by
  rcases Txn.commit_cases (updateCalls now p f >>= fun rows => pure (g rows)) db with
    ⟨a, h, _⟩ | ⟨h, _⟩
  · obtain ⟨rows, db₁, h₁, h₂⟩ := Txn.run_bind_ok.mp h
    obtain ⟨_, heq⟩ := Txn.run_pure_ok.mp h₂
    rw [heq]
    exact .updateCalls hf h₁
  · rw [h]
    exact .none

/-- **Statements.** Every statement has one of the effects, on the agents that it selects; an update
    of `agents` bumps the version of each row it writes. -/
theorem Stmt.exec_effect (db : Db) (s : Stmt) : Stmt.Effect db s.selects (s.exec db) := by
  cases s with
  | createAgent now campaign_id ext_ref =>
    rcases Txn.commit_cases (AgentRepo.create now campaign_id ext_ref) db with ⟨i, h, _⟩ | ⟨h, _⟩
    · exact .insertAgent h
    · rw [Stmt.exec, h]; exact .none
  | reserve now agent_id version worker lease_until =>
    exact .updateAgents now _ _ fun _ => ⟨rfl, rfl⟩
  | forceState now agent_id state worker lease_until call_id =>
    exact .updateAgents now _ _ fun _ => ⟨rfl, rfl⟩
  | reclaimAgents now now_ts => exact .updateAgents now _ _ fun _ => ⟨rfl, rfl⟩
  | releaseWrapup now now_ts => exact .updateAgents now _ _ fun _ => ⟨rfl, rfl⟩
  | createCall now campaign_id agent_id borrower_id provider attempt_no idem worker lease_until =>
    rcases Txn.commit_cases (CallRepo.create now campaign_id agent_id borrower_id provider
      attempt_no idem worker lease_until) db with ⟨i, h, _⟩ | ⟨h, _⟩
    · exact .insertCall h
    · rw [Stmt.exec, h]; exact .none
  | advance now call_id state provider_call_id lease_until failure_reason =>
    exact effect_of_updateCalls
      (f := CallRepo.advancedRow now state provider_call_id lease_until failure_reason)
      (fun _ => rfl) List.head? db
  | cancelIfNotAnswered now call_id reason =>
    exact effect_of_updateCalls (f := CallRepo.cancelledRow now reason) (fun _ => rfl) List.head? db
  | failOrphanCalls now now_ts =>
    obtain ⟨db', h, _⟩ := failOrphanCalls_run now now_ts db
    rw [Stmt.exec, (Txn.commit_of_run h).1]
    exact .updateCalls (f := orphanedRow now) (fun _ => rfl) h

end SmartDialer
