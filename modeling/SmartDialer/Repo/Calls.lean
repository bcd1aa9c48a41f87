import SmartDialer.Repo.View

namespace SmartDialer

open Relational

/-!
# `repo/calls.py`

The statements on `calls`, including `FAIL_ORPHAN_CALLS` of `worker/reaper.py`.  Four guards
protect one row: `ADVANCE` compares ranks, `CANCEL_IF_NOT_ANSWERED` names the states it
accepts, `FAIL_ORPHAN_CALLS` looks at `terminal_at`, the lease and the state, and `CREATE`
relies on the unique idempotency key.
-/

/-- `idempotency_key` of `ids.py`: `campaign:borrower:attempt`. -/
def idempotencyKey (campaign_id borrower_id attempt_no : ℕ) : String :=
  s!"{campaign_id}:{borrower_id}:{attempt_no}"

namespace CallRepo

/-- The row `CREATE` inserts. -/
def createdRow (now : Time) (campaign_id agent_id borrower_id : ℕ) (provider : String)
    (attempt_no : ℕ) (idem worker : String) (lease_until : Time) : CallRow :=
  { campaign_id := campaign_id
    agent_id := some agent_id
    borrower_id := borrower_id
    provider := provider
    provider_call_id := none
    state := .RESERVED
    state_rank := 1
    attempt_no := attempt_no
    idempotency_key := idem
    lease_owner := some worker
    lease_expires_at := some lease_until
    initiated_at := none
    ringing_at := none
    answered_at := none
    connected_at := none
    terminal_at := none
    failure_reason := none
    created_at := now }

/-- `CREATE`: it raises when the idempotency key is taken. -/
def create (now : Time) (campaign_id agent_id borrower_id : ℕ) (provider : String)
    (attempt_no : ℕ) (idem worker : String) (lease_until : Time) : Tx ℕ :=
  insertCall now
    (createdRow now campaign_id agent_id borrower_id provider attempt_no idem worker lease_until)

/-- The row `ADVANCE` writes; `COALESCE(a, b)` is `a.or b`. -/
def advancedRow (now : Time) (state : CallState) (provider_call_id : Option String)
    (lease_until : Option Time) (failure_reason : Option String) (c : CallRow) : CallRow :=
  { c with
    state := state
    state_rank := rank state
    provider_call_id := c.provider_call_id.or provider_call_id
    initiated_at := c.initiated_at.or (if state = .INITIATED then some now else none)
    ringing_at := c.ringing_at.or (if state = .RINGING then some now else none)
    answered_at := c.answered_at.or (if state = .ANSWERED then some now else none)
    connected_at := c.connected_at.or (if state = .CONNECTED then some now else none)
    terminal_at := if rank state ≥ 6 then some now else c.terminal_at
    lease_expires_at := if rank state ≥ 6 then none else lease_until
    failure_reason := failure_reason.or c.failure_reason }

/-- `ADVANCE`: the ordering guard is `state_rank < $3`; no row means that the race was lost. -/
def advance (now : Time) (call_id : ℕ) (state : CallState) (provider_call_id : Option String)
    (lease_until : Option Time) (failure_reason : Option String) : Tx (Option (ℕ × CallRow)) := do
  let rows ← updateCalls now (fun i c => i == call_id && decide (c.state_rank < rank state))
    (advancedRow now state provider_call_id lease_until failure_reason)
  return rows.head?

/-- `fail`: `ADVANCE` to `FAILED`, so a call that has ended already is left alone. -/
def fail (now : Time) (call_id : ℕ) (reason : String) : Tx (Option (ℕ × CallRow)) :=
  advance now call_id .FAILED none none (some reason)

/-- The row `CANCEL_IF_NOT_ANSWERED` writes. -/
def cancelledRow (now : Time) (reason : String) (c : CallRow) : CallRow :=
  { c with
    state := .CANCELLED
    state_rank := 6
    terminal_at := some now
    lease_expires_at := none
    failure_reason := some reason }

/-- `CANCEL_IF_NOT_ANSWERED`: takes effect only while nobody has picked up. -/
def cancelIfNotAnswered (now : Time) (call_id : ℕ) (reason : String) :
    Tx (Option (ℕ × CallRow)) := do
  let rows ← updateCalls now
    (fun i c => i == call_id && c.state.isRinging) (cancelledRow now reason)
  return rows.head?

/-- `GET_BY_PROVIDER_REF`: a null reference matches nothing. -/
def getByProviderRef (provider : String) (provider_call_id : Option String) :
    Tx (Option (ℕ × CallRow)) := do
  let db ← get
  return (db.calls.select fun _ c =>
    provider_call_id.isSome && c.provider == provider
      && c.provider_call_id == provider_call_id).head?

/-- The calls of the campaign that nobody has answered yet. -/
def ringing (campaign_id : ℕ) (db : Db) : List (ℕ × CallRow) :=
  db.calls.select fun _ c => c.campaign_id == campaign_id && c.state.isRinging

/-- The `count(*)` of `cancel_excess_ringing`. -/
def countRinging (campaign_id : ℕ) : Tx ℕ := do
  let db ← get
  return (ringing campaign_id db).length

/-- `ORDER BY initiated_at ASC`: null timestamps come last. -/
def initiatedBefore (x y : CallRow) : Bool :=
  match x.initiated_at, y.initiated_at with
  | some t, some u => decide (t ≤ u)
  | none, some _ => false
  | _, none => true

/-- `list_ringing_oldest`. -/
def listRingingOldest (campaign_id limit : ℕ) : Tx (List ℕ) := do
  let db ← get
  let rows := (ringing campaign_id db).insertionSort fun x y => initiatedBefore x.2 y.2 = true
  return (rows.take limit).map Prod.fst

end CallRepo

/-- The rows `FAIL_ORPHAN_CALLS` selects. -/
def isOrphan (now_ts : Time) (c : CallRow) : Bool :=
  c.terminal_at.isNone && before c.lease_expires_at now_ts
    && (c.state == .QUEUED || c.state == .RESERVED || c.state == .INITIATED)

/-- The row `FAIL_ORPHAN_CALLS` writes: the lease stays. -/
def orphanedRow (now : Time) (c : CallRow) : CallRow :=
  { c with
    state := .FAILED
    state_rank := 6
    terminal_at := some now
    failure_reason := some "LEASE_EXPIRED_NO_EVENTS" }

/-- `FAIL_ORPHAN_CALLS`. -/
def failOrphanCalls (now now_ts : Time) : Tx (List (ℕ × CallRow)) :=
  updateCalls now (fun _ c => isOrphan now_ts c) (orphanedRow now)

/-! ### Effects -/

namespace CallRepo

/-- `ADVANCE` loses on a call that has reached the rank, and then changes nothing. -/
theorem advance_lost {now : Time} {call_id : ℕ} {state : CallState} {pcid : Option String}
    {lease_until : Option Time} {reason : Option String} {db : Db}
    (h : ∀ r, db.calls.get? call_id = some r → rank state ≤ r.state_rank) :
    (advance now call_id state pcid lease_until reason).run db = .ok (none, db) := by
  have hrun := updateCalls_none now
    (fun i c => i == call_id && decide (c.state_rank < rank state))
    (advancedRow now state pcid lease_until reason) db fun k r hr => by
      by_cases hk : k = call_id
      · subst hk; simpa using h r hr
      · simp [hk]
  rw [advance, Txn.run_bind_of_ok hrun]
  rfl

/-- `ADVANCE` wins on a call below the rank, unless the provider reference is taken. -/
theorem advance_won {now : Time} {call_id : ℕ} {state : CallState} {pcid : Option String}
    {lease_until : Option Time} {reason : Option String} {db db' : Db} {o : Option (ℕ × CallRow)}
    {r : CallRow} (hr : db.calls.get? call_id = some r) (hrank : r.state_rank < rank state)
    (h : (advance now call_id state pcid lease_until reason).run db = .ok (o, db')) :
    o = some (call_id, advancedRow now state pcid lease_until reason r) ∧
      db'.view = db.view.setCall call_id r (advancedRow now state pcid lease_until reason) := by
  obtain ⟨rows, db₁, h₁, h₂⟩ := Txn.run_bind_ok.mp h
  obtain ⟨rfl, rfl⟩ := Txn.run_pure_ok.mp h₂
  obtain ⟨rfl, hview⟩ := updateCalls_key (g := fun c => decide (c.state_rank < rank state)) h₁ hr
    (by simpa using hrank)
  exact ⟨rfl, hview⟩

/-- Without a new provider reference `ADVANCE` cannot fail. -/
theorem advance_total (now : Time) (call_id : ℕ) (state : CallState) (pcid : Option String)
    (lease_until : Option Time) (reason : Option String) (db : Db)
    (h : ∀ r, db.calls.get? call_id = some r → pcid = none ∨ r.provider_call_id.isSome) :
    ∃ o db', (advance now call_id state pcid lease_until reason).run db = .ok (o, db') := by
  obtain ⟨db', hrun⟩ := updateCalls_total now
    (fun i c => i == call_id && decide (c.state_rank < rank state))
    (advancedRow now state pcid lease_until reason) db fun k r hr hp => by
      simp only [Bool.and_eq_true, beq_iff_eq] at hp
      obtain ⟨rfl, _⟩ := hp
      refine ⟨rfl, ?_⟩
      have hor : r.provider_call_id.or pcid = r.provider_call_id := by
        rcases h r hr with rfl | hs
        · exact Option.or_none
        · rw [Option.or_of_isSome hs]
      simp [CallRow.refIndex, advancedRow, hor]
  exact ⟨_, db', Txn.run_bind_of_ok hrun⟩

/-- The two outcomes of `ADVANCE`. -/
theorem advance_cases {now : Time} {call_id : ℕ} {state : CallState} {pcid : Option String}
    {lease_until : Option Time} {reason : Option String} {db db' : Db} {o : Option (ℕ × CallRow)}
    (h : (advance now call_id state pcid lease_until reason).run db = .ok (o, db')) :
    (o = none ∧ db' = db ∧ ∀ r, db.calls.get? call_id = some r → rank state ≤ r.state_rank) ∨
      ∃ r, db.calls.get? call_id = some r ∧ r.state_rank < rank state ∧
        o = some (call_id, advancedRow now state pcid lease_until reason r) ∧
        db'.view = db.view.setCall call_id r (advancedRow now state pcid lease_until reason) := by
  by_cases hr : ∃ r, db.calls.get? call_id = some r ∧ r.state_rank < rank state
  · obtain ⟨r, hr, hrank⟩ := hr
    exact Or.inr ⟨r, hr, hrank, advance_won hr hrank h⟩
  · have hlost : ∀ r, db.calls.get? call_id = some r → rank state ≤ r.state_rank :=
      fun r hr' => not_lt.mp fun hlt => hr ⟨r, hr', hlt⟩
    rw [advance_lost hlost] at h
    cases h
    exact Or.inl ⟨rfl, rfl, hlost⟩

/-- The two outcomes of `CANCEL_IF_NOT_ANSWERED`, which cannot fail. -/
theorem cancelIfNotAnswered_run (now : Time) (call_id : ℕ) (reason : String) (db : Db) :
    ∃ o db', (cancelIfNotAnswered now call_id reason).run db = .ok (o, db') ∧
      ((o = none ∧ db' = db) ∨
        ∃ r, db.calls.get? call_id = some r ∧ r.state.isRinging = true ∧
          o = some (call_id, cancelledRow now reason r) ∧
          db'.view = db.view.setCall call_id r (cancelledRow now reason)) := by
  by_cases hr : ∃ r, db.calls.get? call_id = some r ∧ r.state.isRinging = true
  · obtain ⟨r, hr, hs⟩ := hr
    obtain ⟨db', hrun⟩ := updateCalls_total now (fun i c => i == call_id && c.state.isRinging)
      (cancelledRow now reason) db fun _ _ _ _ => ⟨rfl, rfl⟩
    obtain ⟨hrows, hview⟩ := updateCalls_key hrun hr hs
    rw [hrows] at hrun
    exact ⟨_, db', Txn.run_bind_of_ok hrun, Or.inr ⟨r, hr, hs, rfl, hview⟩⟩
  · have hrun := updateCalls_none now (fun i c => i == call_id && c.state.isRinging)
      (cancelledRow now reason) db fun k r hk => by
        by_cases h : k = call_id
        · subst h
          cases hs : r.state.isRinging with
          | true => exact absurd ⟨r, hk, hs⟩ hr
          | false => simp
        · simp [h]
    exact ⟨none, db, Txn.run_bind_of_ok hrun, Or.inl ⟨rfl, rfl⟩⟩

/-- The call that a provider reference finds carries it. -/
theorem getByProviderRef_run (provider : String) (pcid : Option String) (db : Db) :
    ∃ o, (getByProviderRef provider pcid).run db = .ok (o, db) ∧
      ∀ e, o = some e → db.calls.get? e.1 = some e.2 ∧ e.2.provider = provider ∧
        e.2.provider_call_id = pcid ∧ pcid.isSome = true := by
  refine ⟨_, rfl, fun e he => ?_⟩
  obtain ⟨hr, hp⟩ := Table.mem_select.mp (List.mem_of_mem_head? he)
  simp only [Bool.and_eq_true, beq_iff_eq] at hp
  exact ⟨hr, hp.1.2, hp.2, hp.1.1⟩

/-- The reference of a call finds that call. -/
theorem getByProviderRef_found {db : Db} {call_id : ℕ} {c : CallRow} {ref : String}
    (hc : db.calls.get? call_id = some c) (href : c.provider_call_id = some ref) :
    (getByProviderRef c.provider (some ref)).run db = .ok (some (call_id, c), db) := by
  obtain ⟨o, hrun, hspec⟩ := getByProviderRef_run c.provider (some ref) db
  have hsel : (call_id, c) ∈ db.calls.select fun _ d =>
      (some ref).isSome && d.provider == c.provider && d.provider_call_id == some ref :=
    Table.mem_select.mpr ⟨hc, by simp [href]⟩
  cases o with
  | none =>
    -- the selection is not empty
    have hnil : (db.calls.select fun _ d =>
        (some ref).isSome && d.provider == c.provider && d.provider_call_id == some ref) = [] := by
      have hhead : ((db.calls.select fun _ d => (some ref).isSome && d.provider == c.provider
          && d.provider_call_id == some ref).head?, db) = (none, db) := Except.ok.inj hrun
      exact List.head?_eq_none_iff.mp (Prod.ext_iff.mp hhead).1
    rw [hnil] at hsel
    cases hsel
  | some e =>
    obtain ⟨hget, hprovider, hrefe, _⟩ := hspec e rfl
    -- the index allows one call only
    have hid : e.1 = call_id := by
      refine db.refUnique e.1 e.2 call_id c hget hc ?_ ?_
      · simp [CallRow.refIndex, hrefe]
      · simp [CallRow.refIndex, hrefe, href, hprovider]
    rw [hid, hc, Option.some.injEq] at hget
    have he : e = (call_id, c) := Prod.ext hid hget.symm
    rw [hrun, he]

end CallRepo

/-- The reaper's sweep cannot fail. -/
theorem failOrphanCalls_run (now now_ts : Time) (db : Db) :
    ∃ db', (failOrphanCalls now now_ts).run db =
        .ok ((db.calls.select fun _ c => isOrphan now_ts c).map fun e => (e.1, orphanedRow now e.2),
          db') ∧
      db'.view = { db.view with
        calls := db.calls.modify (fun _ c => isOrphan now_ts c) (orphanedRow now)
        versions := db.versions ++
          (db.calls.select fun _ c => isOrphan now_ts c).map fun e =>
            (e.1, orphanedRow now e.2) } := by
  obtain ⟨db', hrun⟩ := updateCalls_total now (fun _ c => isOrphan now_ts c) (orphanedRow now) db
    fun _ _ _ _ => ⟨rfl, rfl⟩
  exact ⟨db', hrun, (updateCalls_view hrun).2⟩

end SmartDialer
