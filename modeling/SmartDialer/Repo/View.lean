import SmartDialer.Repo.Db

namespace SmartDialer

open Relational

/-!
# The view of the statements

What the invariants of this development are about: the contents of the four tables that the
workers write, and the row images of `calls`.  A `View` leaves out the constraints and the
counters of a `Db`, so the effect of a statement on it is a plain function, and two programs
with the same effect have equal views.

* `Db.view_setAgents`, `Db.view_setBorrowers`, `Db.view_setEvents` — the writes that cannot fail.
* `updateCalls_view` — a write to `calls` that commits; `updateCalls_total` — one that leaves
  the indexed columns alone always does.
-/

/-- The tables without the indexes and the counters: what statements do to it composes without
    proofs about the indexes. -/
structure View where
  agents : Table AgentRow
  borrowers : Table BorrowerRow
  calls : Table CallRow
  provider_events : Table EventRow
  versions : List (ℕ × CallRow)

/-- The view of a database. -/
def Db.view (db : Db) : View :=
  ⟨db.agents, db.borrowers, db.calls, db.provider_events, db.versions⟩

/-- The view, table by table. -/
@[simp] theorem Db.view_agents (db : Db) : db.view.agents = db.agents := rfl
@[simp] theorem Db.view_borrowers (db : Db) : db.view.borrowers = db.borrowers := rfl
@[simp] theorem Db.view_calls (db : Db) : db.view.calls = db.calls := rfl
@[simp] theorem Db.view_provider_events (db : Db) :
    db.view.provider_events = db.provider_events := rfl
@[simp] theorem Db.view_versions (db : Db) : db.view.versions = db.versions := rfl

namespace View

/-- Update one agent. -/
def setAgent (v : View) (agent_id : ℕ) (f : AgentRow → AgentRow) : View :=
  { v with agents := v.agents.alter agent_id f }

/-- Update the agent that a call names, if it names one. -/
def setAgentOf (v : View) (agent_id : Option ℕ) (f : AgentRow → AgentRow) : View :=
  match agent_id with
  | some agent_id => v.setAgent agent_id f
  | none => v

/-- Where no agent is named, none is written. -/
@[simp] theorem setAgentOf_none (v : View) (f : AgentRow → AgentRow) :
    v.setAgentOf none f = v := rfl

/-- Where an agent is named, its row is written. -/
@[simp] theorem setAgentOf_some (v : View) (agent_id : ℕ) (f : AgentRow → AgentRow) :
    v.setAgentOf (some agent_id) f = v.setAgent agent_id f := rfl

/-- Update one borrower. -/
def setBorrower (v : View) (borrower_id : ℕ) (f : BorrowerRow → BorrowerRow) : View :=
  { v with borrowers := v.borrowers.alter borrower_id f }

/-- Update one ledger row. -/
def setEvent (v : View) (event_id : ℕ) (f : EventRow → EventRow) : View :=
  { v with provider_events := v.provider_events.alter event_id f }

/-- Update the call with row `r`. -/
def setCall (v : View) (call_id : ℕ) (r : CallRow) (f : CallRow → CallRow) : View :=
  { v with
    calls := v.calls.alter call_id f
    versions := v.versions ++ [(call_id, f r)] }

section

variable (v : View) (i : ℕ) (fa : AgentRow → AgentRow) (fb : BorrowerRow → BorrowerRow)
  (fe : EventRow → EventRow) (r : CallRow) (fc : CallRow → CallRow) (o : Option ℕ)

/-- Writing one agent, table by table. -/
@[simp] theorem setAgent_agents : (v.setAgent i fa).agents = v.agents.alter i fa := rfl
@[simp] theorem setAgent_borrowers : (v.setAgent i fa).borrowers = v.borrowers := rfl
@[simp] theorem setAgent_calls : (v.setAgent i fa).calls = v.calls := rfl
@[simp] theorem setAgent_provider_events :
    (v.setAgent i fa).provider_events = v.provider_events := rfl
@[simp] theorem setAgent_versions : (v.setAgent i fa).versions = v.versions := rfl

/-- Writing the agent of a call, if it has one, leaves the other tables alone. -/
@[simp] theorem setAgentOf_borrowers : (v.setAgentOf o fa).borrowers = v.borrowers := by
  cases o <;> rfl
@[simp] theorem setAgentOf_calls : (v.setAgentOf o fa).calls = v.calls := by cases o <;> rfl
@[simp] theorem setAgentOf_provider_events :
    (v.setAgentOf o fa).provider_events = v.provider_events := by cases o <;> rfl
@[simp] theorem setAgentOf_versions : (v.setAgentOf o fa).versions = v.versions := by
  cases o <;> rfl

/-- Writing one borrower, table by table. -/
@[simp] theorem setBorrower_agents : (v.setBorrower i fb).agents = v.agents := rfl
@[simp] theorem setBorrower_borrowers :
    (v.setBorrower i fb).borrowers = v.borrowers.alter i fb := rfl
@[simp] theorem setBorrower_calls : (v.setBorrower i fb).calls = v.calls := rfl
@[simp] theorem setBorrower_provider_events :
    (v.setBorrower i fb).provider_events = v.provider_events := rfl
@[simp] theorem setBorrower_versions : (v.setBorrower i fb).versions = v.versions := rfl

/-- Writing one ledger row, table by table. -/
@[simp] theorem setEvent_agents : (v.setEvent i fe).agents = v.agents := rfl
@[simp] theorem setEvent_borrowers : (v.setEvent i fe).borrowers = v.borrowers := rfl
@[simp] theorem setEvent_calls : (v.setEvent i fe).calls = v.calls := rfl
@[simp] theorem setEvent_provider_events :
    (v.setEvent i fe).provider_events = v.provider_events.alter i fe := rfl
@[simp] theorem setEvent_versions : (v.setEvent i fe).versions = v.versions := rfl

/-- Writing one call, table by table; its new row image is recorded. -/
@[simp] theorem setCall_agents : (v.setCall i r fc).agents = v.agents := rfl
@[simp] theorem setCall_borrowers : (v.setCall i r fc).borrowers = v.borrowers := rfl
@[simp] theorem setCall_calls : (v.setCall i r fc).calls = v.calls.alter i fc := rfl
@[simp] theorem setCall_provider_events :
    (v.setCall i r fc).provider_events = v.provider_events := rfl
@[simp] theorem setCall_versions : (v.setCall i r fc).versions = v.versions ++ [(i, fc r)] := rfl

end

end View

/-! ### Writes that cannot fail -/

/-- An `UPDATE agents` seen on the view. -/
@[simp] theorem Db.view_setAgents (db : Db) (now : Time) (p : ℕ → AgentRow → Bool)
    (f : AgentRow → AgentRow) :
    (db.setAgents now p f).view = { db.view with agents := db.agents.modify p f } := rfl

/-- An `UPDATE borrowers` seen on the view. -/
@[simp] theorem Db.view_setBorrowers (db : Db) (p : ℕ → BorrowerRow → Bool)
    (f : BorrowerRow → BorrowerRow) :
    (db.setBorrowers p f).view = { db.view with borrowers := db.borrowers.modify p f } := rfl

/-- An `UPDATE provider_events` seen on the view. -/
@[simp] theorem Db.view_setEvents (db : Db) (p : ℕ → EventRow → Bool) (f : EventRow → EventRow) :
    (db.setEvents p f).view = { db.view with
      provider_events := db.provider_events.modify p f } := rfl

/-- A new agent and its key. -/
theorem insertAgent_run {now : Time} {r : AgentRow} {db db' : Db} {i : ℕ}
    (h : (insertAgent now r).run db = .ok (i, db')) :
    db'.view = { db.view with agents := db.agents.push r } := by
  change (if _ then _ else _) = _ at h
  split at h
  · cases h; rfl
  · cases h

/-! ### Writes to `calls` -/

/-- A committed update returns and records the rows it wrote. -/
theorem updateCalls_view {now : Time} {p : ℕ → CallRow → Bool} {f : CallRow → CallRow} {db db' : Db}
    {rows : List (ℕ × CallRow)} (h : (updateCalls now p f).run db = .ok (rows, db')) :
    rows = (db.calls.select p).map (fun e => (e.1, f e.2)) ∧
      db'.view = { db.view with
        calls := db.calls.modify p f
        versions := db.versions ++ rows } := by
  change (if _ : _ then _ else _) = _ at h
  split at h
  · cases h; exact ⟨rfl, rfl⟩
  · cases h

/-- An update that keeps the indexes does not fail. -/
theorem updateCalls_of_unique (now : Time) {p : ℕ → CallRow → Bool} {f : CallRow → CallRow}
    {db : Db} (hkey : (db.calls.modify p f).UniqueOn CallRow.keyIndex)
    (href : (db.calls.modify p f).UniqueOn CallRow.refIndex) :
    ∃ db', (updateCalls now p f).run db =
      .ok ((db.calls.select p).map fun e => (e.1, f e.2), db') := by
  rw [StateT.run, updateCalls]
  simp only [dif_pos (And.intro hkey href)]
  exact ⟨_, rfl⟩

/-- An update that leaves the indexed columns alone cannot fail. -/
theorem updateCalls_total (now : Time) (p : ℕ → CallRow → Bool) (f : CallRow → CallRow) (db : Db)
    (hkey : ∀ k r, db.calls.get? k = some r → p k r = true →
      (f r).keyIndex = r.keyIndex ∧ (f r).refIndex = r.refIndex) :
    ∃ db', (updateCalls now p f).run db =
      .ok ((db.calls.select p).map fun e => (e.1, f e.2), db') := by
  have h₁ := db.keyUnique.modify (p := p) (f := f) fun k r hr hp => (hkey k r hr hp).1
  have h₂ := db.refUnique.modify (p := p) (f := f) fun k r hr hp => (hkey k r hr hp).2
  exact updateCalls_of_unique now h₁ h₂

/-- An update that selects no row changes nothing. -/
theorem updateCalls_none (now : Time) (p : ℕ → CallRow → Bool) (f : CallRow → CallRow) (db : Db)
    (hp : ∀ k r, db.calls.get? k = some r → p k r = false) :
    (updateCalls now p f).run db = .ok ([], db) := by
  have hsel : db.calls.select p = [] := Table.select_eq_nil_iff.mpr hp
  have hmod : db.calls.modify p f = db.calls := Table.modify_eq_self f hp
  show (if _ : _ then _ else _) = _
  rw [dif_pos (by rw [hmod]; exact ⟨db.keyUnique, db.refUnique⟩)]
  cases db
  simp_all

/-- An update of one row under a guard that the row meets. -/
theorem updateCalls_key {now : Time} {call_id : ℕ} {r : CallRow} {g : CallRow → Bool}
    {f : CallRow → CallRow} {db db' : Db} {rows : List (ℕ × CallRow)}
    (h : (updateCalls now (fun i c => i == call_id && g c) f).run db = .ok (rows, db'))
    (hr : db.calls.get? call_id = some r) (hg : g r = true) :
    rows = [(call_id, f r)] ∧ db'.view = db.view.setCall call_id r f := by
  obtain ⟨hrows, hview⟩ := updateCalls_view h
  have hsel : rows = [(call_id, f r)] := by
    rw [hrows, Table.select_key_of_pos hr hg]
    rfl
  refine ⟨hsel, ?_⟩
  rw [hview, Table.modify_key_of_pos f hr hg, hsel]
  rfl

/-- A committed insertion stores the row under the next key; its index values were free. -/
theorem insertCall_run {now : Time} {r : CallRow} {db db' : Db} {i : ℕ}
    (h : (insertCall now r).run db = .ok (i, db')) :
    i = db.calls.nextId ∧
      db'.view = { db.view with
        calls := db.calls.push r
        versions := db.versions ++ [(db.calls.nextId, r)] } ∧
      ∀ j s, db.calls.get? j = some s → s.idempotency_key ≠ r.idempotency_key := by
  change (if _ : _ then _ else _) = _ at h
  split at h
  · rename_i hu
    cases h
    refine ⟨rfl, rfl, fun j s hs heq => ?_⟩
    have hj : (db.calls.push r).get? j = some s := by
      rw [Table.get?_push, if_neg (Table.ne_nextId hs), hs]
    have hn : (db.calls.push r).get? db.calls.nextId = some r := by simp
    exact Table.ne_nextId hs (hu.1 j s _ r hj hn (by simp [CallRow.keyIndex])
      (by simp [CallRow.keyIndex, heq]))
  · cases h

/-- A row with a free key and no provider reference can be inserted. -/
theorem insertCall_total (now : Time) (r : CallRow) (db : Db)
    (hkey : ∀ j s, db.calls.get? j = some s → s.idempotency_key ≠ r.idempotency_key)
    (href : r.provider_call_id = none) :
    ∃ db', (insertCall now r).run db = .ok (db.calls.nextId, db') := by
  have h₁ : (db.calls.push r).UniqueOn CallRow.keyIndex :=
    db.keyUnique.push fun j s hs heq => hkey j s hs (by simpa [CallRow.keyIndex] using heq)
  have h₂ : (db.calls.push r).UniqueOn CallRow.refIndex :=
    db.refUnique.push_none (by simp [CallRow.refIndex, href])
  rw [StateT.run, insertCall]
  simp only [dif_pos (And.intro h₁ h₂)]
  exact ⟨_, rfl⟩

end SmartDialer
