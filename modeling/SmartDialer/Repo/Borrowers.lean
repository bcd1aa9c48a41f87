import SmartDialer.Repo.View

namespace SmartDialer

open Relational

/-!
# `repo/borrowers.py`

Claiming, releasing and rescheduling borrowers.  Every statement that ends an attempt raises
`attempt_count` by one and sets the state whatever it was before.
-/

/-- The default `max_attempts` of the schema. -/
def defaultMaxAttempts : ℕ := 3

namespace BorrowerRepo

/-- May `CLAIM_BATCH` of this campaign return the borrower at this time? -/
def claimable (campaign_id : ℕ) (now : Time) (b : BorrowerRow) : Bool :=
  b.campaign_id == campaign_id && b.state == .PENDING && decide (b.next_eligible_at ≤ now)

/-- The row `CLAIM_BATCH` writes. -/
def lockedRow (worker : String) (lease_until : Time) (b : BorrowerRow) : BorrowerRow :=
  { b with state := .LOCKED, locked_by := some worker, locked_until := some lease_until }

/-- `CLAIM_BATCH`: lock up to `n` eligible borrowers, by priority and then by eligibility,
    skipping the ones that a concurrent transaction holds. -/
def claimBatch (now : Time) (locked : List ℕ) (campaign_id n : ℕ) (worker : String)
    (lease_until : Time) : Tx (List (ℕ × BorrowerRow)) := do
  let db ← get
  let cand := ((db.borrowers.select fun i b =>
      claimable campaign_id now b && !locked.contains i).insertionSort fun x y =>
        x.2.priority < y.2.priority ∨
          x.2.priority = y.2.priority ∧ x.2.next_eligible_at ≤ y.2.next_eligible_at).take n
  let _ ← updateBorrowers (fun i _ => cand.any fun e => e.1 == i) (lockedRow worker lease_until)
  return cand.map fun e => (e.1, lockedRow worker lease_until e.2)

/-- `CLAIM_ONE`: the next borrower that may be dialed and that no other transaction has locked. -/
def claimOne (now : Time) (locked : List ℕ) (campaign_id : ℕ) (worker : String)
    (lease_until : Time) : Tx (Option (ℕ × BorrowerRow)) := do
  let rows ← claimBatch now locked campaign_id 1 worker lease_until
  return rows.head?

/-- The row `RELEASE` and `RECLAIM_EXPIRED_LOCKS` write. -/
def unlockedRow (b : BorrowerRow) : BorrowerRow :=
  { b with state := .PENDING, locked_by := none, locked_until := none }

/-- `RELEASE`. -/
def release (borrower_id : ℕ) : Tx PUnit := do
  let _ ← updateBorrowers (fun i _ => i == borrower_id) unlockedRow

/-- The row `RESCHEDULE` writes. -/
def rescheduledRow (now backoff : Time) (b : BorrowerRow) : BorrowerRow :=
  { b with
    attempt_count := b.attempt_count + 1
    state := if b.attempt_count + 1 ≥ b.max_attempts then .EXHAUSTED else .PENDING
    next_eligible_at := now + backoff
    locked_by := none
    locked_until := none }

/-- `RESCHEDULE`: count the attempt and try again later, unless the attempts are used up. -/
def reschedule (now : Time) (borrower_id : ℕ) (backoff : Time) : Tx PUnit := do
  let _ ← updateBorrowers (fun i _ => i == borrower_id) (rescheduledRow now backoff)

/-- The row `MARK_DONE` writes. -/
def doneRow (b : BorrowerRow) : BorrowerRow :=
  { b with
    attempt_count := b.attempt_count + 1
    state := .DONE
    locked_by := none
    locked_until := none }

/-- `MARK_DONE`. -/
def markDone (borrower_id : ℕ) : Tx PUnit := do
  let _ ← updateBorrowers (fun i _ => i == borrower_id) doneRow

/-- The row that the end of a call in the given state writes. -/
def endedRow (now : Time) (call_state : CallState) (backoff : Time) : BorrowerRow → BorrowerRow :=
  if call_state = .COMPLETED then doneRow else rescheduledRow now backoff

/-- `on_call_terminal`: a completed call settles the borrower, any other end puts it off. -/
def onCallTerminal (now : Time) (borrower_id : ℕ) (call_state : CallState) (backoff : Time) :
    Tx PUnit :=
  if call_state = .COMPLETED then markDone borrower_id
  else reschedule now borrower_id backoff

/-- The rows `RECLAIM_EXPIRED_LOCKS` selects. -/
def isLockExpired (now : Time) (b : BorrowerRow) : Bool :=
  b.state == .LOCKED && before b.locked_until now

/-- `RECLAIM_EXPIRED_LOCKS`. -/
def reclaimExpiredLocks (now : Time) : Tx (List (ℕ × BorrowerRow)) :=
  updateBorrowers (fun _ b => isLockExpired now b) unlockedRow

/-- The row that a borrower starts from; `priority`, `max_attempts` and `next_eligible_at` are
    the columns that the `INSERT` leaves to the schema. -/
def seededRow (now : Time) (campaign_id : ℕ) (phone : String) (priority : ℤ) (max_attempts : ℕ) :
    BorrowerRow :=
  { campaign_id := campaign_id
    phone := phone
    priority := priority
    state := .PENDING
    attempt_count := 0
    max_attempts := max_attempts
    next_eligible_at := now
    locked_by := none
    locked_until := none }

/-- One row of `seed_many`, `ON CONFLICT (campaign_id, phone) DO NOTHING`. -/
def seed (now : Time) (campaign_id : ℕ) (phone : String) (priority : ℤ) (max_attempts : ℕ) :
    Tx PUnit := fun db =>
  if db.borrowers.select (fun _ b => b.campaign_id == campaign_id && b.phone == phone) = [] then
    .ok (⟨⟩, { db with
      borrowers := db.borrowers.push (seededRow now campaign_id phone priority max_attempts) })
  else .ok (⟨⟩, db)

/-- `seed_many`: the schema defaults are priority 100 and three attempts. -/
def seedMany (now : Time) (campaign_id : ℕ) (phones : List String) : Tx PUnit :=
  forM phones fun phone => seed now campaign_id phone 100 defaultMaxAttempts

/-! ### Effects -/

/-- Claiming one borrower locks an eligible one that nobody holds, or does nothing. -/
theorem claimOne_run (now : Time) (locked : List ℕ) (campaign_id : ℕ) (worker : String)
    (lease_until : Time) (db : Db) :
    ∃ o db', (claimOne now locked campaign_id worker lease_until).run db = .ok (o, db') ∧
      ((o = none ∧ db'.view = db.view) ∨
        ∃ i b, o = some (i, lockedRow worker lease_until b) ∧ db.borrowers.get? i = some b ∧
          claimable campaign_id now b = true ∧ i ∉ locked ∧
          db'.view = db.view.setBorrower i (lockedRow worker lease_until)) := by
  refine ⟨_, _, rfl, ?_⟩
  rw [Db.view_setBorrowers]
  generalize hc : List.take 1 _ = cand
  match cand, hc with
  | [], _ =>
    left
    refine ⟨rfl, ?_⟩
    have hself : db.borrowers.modify
        (fun i _ => ([] : List (ℕ × BorrowerRow)).any fun e => e.1 == i)
        (lockedRow worker lease_until) = db.borrowers :=
      Table.modify_eq_self _ fun _ _ _ => rfl
    rw [hself]
    rfl
  | [e], hc =>
    right
    have hmem : e ∈ db.borrowers.select fun i b =>
        claimable campaign_id now b && !locked.contains i :=
      (List.mem_insertionSort _).mp (List.mem_of_mem_take (hc ▸ List.mem_singleton_self e))
    obtain ⟨hr, hp⟩ := Table.mem_select.mp hmem
    simp only [Bool.and_eq_true, Bool.not_eq_true', List.contains_eq_mem,
      decide_eq_false_iff_not] at hp
    refine ⟨e.1, e.2, rfl, hr, hp.1, hp.2, ?_⟩
    rw [View.setBorrower, Table.alter, Table.modify_congr (q := fun i _ => i == e.1)]
    · rfl
    · intro k r _
      simp [eq_comm]
  | _ :: _ :: _, hc =>
    have := congrArg List.length hc
    simp only [List.length_take, List.length_cons] at this
    omega

/-- `RELEASE` does not fail, and its effect on the view is one row. -/
theorem release_run (borrower_id : ℕ) (db : Db) :
    ∃ db', (release borrower_id).run db = .ok (⟨⟩, db') ∧
      db'.view = db.view.setBorrower borrower_id unlockedRow := ⟨_, rfl, rfl⟩

/-- `RESCHEDULE` does not fail, and its effect on the view is one row. -/
theorem reschedule_run (now : Time) (borrower_id : ℕ) (backoff : Time) (db : Db) :
    ∃ db', (reschedule now borrower_id backoff).run db = .ok (⟨⟩, db') ∧
      db'.view = db.view.setBorrower borrower_id (rescheduledRow now backoff) := ⟨_, rfl, rfl⟩

/-- The end of a call writes one borrower: `endedRow` says how. -/
theorem onCallTerminal_run (now : Time) (borrower_id : ℕ) (call_state : CallState) (backoff : Time)
    (db : Db) : ∃ db', (onCallTerminal now borrower_id call_state backoff).run db = .ok (⟨⟩, db') ∧
      db'.view = db.view.setBorrower borrower_id (endedRow now call_state backoff) := by
  unfold onCallTerminal endedRow
  split
  · exact ⟨_, rfl, rfl⟩
  · exact ⟨_, rfl, rfl⟩

/-- Seeding adds a row or, for a known phone number, nothing. -/
theorem seed_run (now : Time) (campaign_id : ℕ) (phone : String) (priority : ℤ) (max_attempts : ℕ)
    (db : Db) : ∃ db', (seed now campaign_id phone priority max_attempts).run db = .ok (⟨⟩, db') ∧
      (db'.view = { db.view with
          borrowers := db.borrowers.push (seededRow now campaign_id phone priority max_attempts) } ∨
        db'.view = db.view) := by
  unfold seed
  rw [StateT.run]
  split
  · exact ⟨_, rfl, Or.inl rfl⟩
  · exact ⟨_, rfl, Or.inr rfl⟩

/-- The first phone is inserted (or was there), and the others follow. -/
theorem seedMany_cons (now : Time) (campaign_id : ℕ) (phone : String) (phones : List String)
    (db : Db) : ∃ db', (seed now campaign_id phone 100 defaultMaxAttempts).run db = .ok (⟨⟩, db') ∧
      (seedMany now campaign_id (phone :: phones)).run db
        = (seedMany now campaign_id phones).run db' := by
  obtain ⟨db', hrun, _⟩ := seed_run now campaign_id phone 100 defaultMaxAttempts db
  refine ⟨db', hrun, ?_⟩
  show (forM (phone :: phones) _ : Tx PUnit).run db = _
  rw [List.forM_cons, StateT.run_bind, hrun]
  rfl

/-- No insertion fails, a phone that is there already included. -/
theorem seedMany_run (now : Time) (campaign_id : ℕ) (phones : List String) (db : Db) :
    ∃ db', (seedMany now campaign_id phones).run db = .ok (⟨⟩, db') := by
  induction phones generalizing db with
  | nil => exact ⟨db, rfl⟩
  | cons phone phones ih =>
    obtain ⟨db', _, hmany⟩ := seedMany_cons now campaign_id phone phones db
    obtain ⟨db'', hrest⟩ := ih db'
    exact ⟨db'', hmany.trans hrest⟩

/-! ### Rows -/

section

variable (now backoff : Time) (b : BorrowerRow)

/-- Putting a borrower off counts an attempt. -/
@[simp] theorem rescheduledRow_attempt_count :
    (rescheduledRow now backoff b).attempt_count = b.attempt_count + 1 := rfl
/-- The limit of a borrower is never written. -/
@[simp] theorem rescheduledRow_max_attempts :
    (rescheduledRow now backoff b).max_attempts = b.max_attempts := rfl
/-- A borrower stays in its campaign. -/
@[simp] theorem rescheduledRow_campaign_id :
    (rescheduledRow now backoff b).campaign_id = b.campaign_id := rfl

/-- Rescheduling makes the borrower pending while attempts are left, and exhausted otherwise. -/
theorem rescheduledRow_state :
    (b.attempt_count + 1 < b.max_attempts ∧ (rescheduledRow now backoff b).state = .PENDING) ∨
      (b.max_attempts ≤ b.attempt_count + 1 ∧
        (rescheduledRow now backoff b).state = .EXHAUSTED) := by
  unfold rescheduledRow
  by_cases h : b.attempt_count + 1 ≥ b.max_attempts
  · exact Or.inr ⟨h, if_pos h⟩
  · exact Or.inl ⟨by omega, if_neg h⟩

/-- However the call ended, the attempt counts once. -/
@[simp] theorem endedRow_attempt_count (call_state : CallState) :
    (endedRow now call_state backoff b).attempt_count = b.attempt_count + 1 := by
  unfold endedRow; split <;> rfl

/-- The end of a call does not change the limit. -/
@[simp] theorem endedRow_max_attempts (call_state : CallState) :
    (endedRow now call_state backoff b).max_attempts = b.max_attempts := by
  unfold endedRow; split <;> rfl

/-- The end of a call does not move the borrower to another campaign. -/
@[simp] theorem endedRow_campaign_id (call_state : CallState) :
    (endedRow now call_state backoff b).campaign_id = b.campaign_id := by
  unfold endedRow; split <;> rfl

/-- The end of a call makes the borrower pending only while attempts are left. -/
theorem endedRow_state (call_state : CallState) :
    (b.attempt_count + 1 < b.max_attempts ∧ (endedRow now call_state backoff b).state = .PENDING) ∨
      (endedRow now call_state backoff b).state = .EXHAUSTED ∨
        (endedRow now call_state backoff b).state = .DONE := by
  unfold endedRow
  split
  · exact Or.inr (Or.inr rfl)
  · rcases rescheduledRow_state now backoff b with h | h
    · exact Or.inl h
    · exact Or.inr (Or.inl h.2)

end

end BorrowerRepo

end SmartDialer
