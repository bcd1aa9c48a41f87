import SmartDialer.Correctness.Attempts

namespace SmartDialer

open Relational

/-!
# The books of the borrowers

The floor without the agents and the attempts: the borrowers and the calls made for them.  Most
moves of the floor are not visible here; the rest open a call for a pending borrower, move a live
call on, end one and count the attempt, count an attempt whose call had ended before (`Entry.late`),
or remove the locks that expired (`Entry.unlocked`).

* `Books.Step` — what can happen to the books.
* `Floor.Step.books` — the floor refines the books, since an attempt in flight remembers the
  borrower of its call.
-/

/-- What counting the attempts is about. -/
structure Books where
  borrowers : Table BorrowerRow
  calls : Table CallRow

/-- The books of a floor forget the agents and the attempts. -/
def Floor.books (F : Floor) : Books := ⟨F.borrowers, F.calls⟩

/-- The books of a state. -/
def Sys.books (s : Sys) : Books := ⟨s.db.borrowers, s.db.calls⟩

/-- The entries of the books, as far as a result may restrict them. -/
inductive Entry where
  | routine
  | late (borrower_id : ℕ)
  | unlocked (now : Time)

/-- A borrower after one more attempt has been counted. -/
structure BorrowerRow.Counted (b b' : BorrowerRow) : Prop where
  attempt_count : b'.attempt_count = b.attempt_count + 1
  max_attempts : b'.max_attempts = b.max_attempts
  campaign_id : b'.campaign_id = b.campaign_id
  state : (b.attempt_count + 1 < b.max_attempts ∧ b'.state = .PENDING) ∨
    b'.state = .EXHAUSTED ∨ b'.state = .DONE

/-- `RESCHEDULE` counts one attempt. -/
theorem BorrowerRepo.counted_rescheduledRow (now backoff : Time) (b : BorrowerRow) :
    b.Counted (rescheduledRow now backoff b) :=
  ⟨rfl, rfl, rfl, (rescheduledRow_state now backoff b).imp_right fun h => Or.inl h.2⟩

/-- `on_call_terminal` counts one attempt, however the call has ended. -/
theorem BorrowerRepo.counted_endedRow (now backoff : Time) (call_state : CallState)
    (b : BorrowerRow) : b.Counted (endedRow now call_state backoff b) :=
  ⟨endedRow_attempt_count .., endedRow_max_attempts .., endedRow_campaign_id ..,
    endedRow_state now backoff b call_state⟩

/-- A borrower that is pending after an attempt was counted has attempts left. -/
theorem BorrowerRow.Counted.lt_of_pending {b b' : BorrowerRow} (h : b.Counted b')
    (hs : b'.state = .PENDING) : b.attempt_count + 1 < b.max_attempts := by
  rcases h.state with ⟨hlt, _⟩ | hex | hdone
  · exact hlt
  · rw [hs] at hex; cases hex
  · rw [hs] at hdone; cases hdone

/-- Counting an attempt locks no borrower. -/
theorem BorrowerRow.Counted.not_locked {b b' : BorrowerRow} (h : b.Counted b') :
    b'.state ≠ .LOCKED := by
  rcases h.state with ⟨_, hs⟩ | hs | hs <;> rw [hs] <;> decide

/-- What can happen to the books. -/
inductive Books.Step (B : Books) : Entry → Books → Prop
  | kept : Step B .routine B
  | seeded {now : Time} {campaign_id : ℕ} {phone : String} {priority : ℤ} {max_attempts : ℕ} :
      Step B .routine { B with
        borrowers := B.borrowers.push
          (BorrowerRepo.seededRow now campaign_id phone priority max_attempts) }
  | unclaimed {lease : Time} {worker : String} {borrower_id : ℕ} {b : BorrowerRow}
      (hb : B.borrowers.get? borrower_id = some b) (hs : b.state = .PENDING) :
      Step B .routine { B with
        borrowers := (B.borrowers.alter borrower_id (BorrowerRepo.lockedRow worker lease)).alter
          borrower_id BorrowerRepo.unlockedRow }
  /-- A call is created for the next attempt, under a key that is free. -/
  | opened {now lease : Time} {worker provider : String} {agent_id borrower_id : ℕ}
      {b : BorrowerRow} (hb : B.borrowers.get? borrower_id = some b) (hs : b.state = .PENDING)
      (hfree : ∀ j c, B.calls.get? j = some c →
        c.idempotency_key ≠ idempotencyKey b.campaign_id borrower_id (b.attempt_count + 1)) :
      Step B .routine
        { borrowers := B.borrowers.alter borrower_id (BorrowerRepo.lockedRow worker lease)
          calls := B.calls.push (CallRepo.createdRow now b.campaign_id agent_id borrower_id provider
            (b.attempt_count + 1) (idempotencyKey b.campaign_id borrower_id (b.attempt_count + 1))
            worker lease) }
  | moved {call_id : ℕ} {c : CallRow} {f : CallRow → CallRow}
      (hc : B.calls.get? call_id = some c) (hlive : c.state.isTerminal = false)
      (hf : c.Evolves (f c)) (hlive' : (f c).state.isTerminal = false) :
      Step B .routine { B with calls := B.calls.alter call_id f }
  /-- A call ends, and the attempt is counted. -/
  | ended {call_id : ℕ} {c : CallRow} {f : CallRow → CallRow} {g : BorrowerRow → BorrowerRow}
      (hc : B.calls.get? call_id = some c) (hlive : c.state.isTerminal = false)
      (hf : c.Evolves (f c)) (hend : (f c).state.isTerminal = true)
      (hg : ∀ b : BorrowerRow, b.Counted (g b)) :
      Step B .routine
        { borrowers := B.borrowers.alter c.borrower_id g, calls := B.calls.alter call_id f }
  /-- An attempt is counted without a call. -/
  | late {borrower_id : ℕ} {g : BorrowerRow → BorrowerRow}
      (hg : ∀ b : BorrowerRow, b.Counted (g b)) :
      Step B (.late borrower_id) { B with borrowers := B.borrowers.alter borrower_id g }
  | unlocked {now : Time} :
      Step B (.unlocked now) { B with
        borrowers := B.borrowers.modify (fun _ b => BorrowerRepo.isLockExpired now b)
          BorrowerRepo.unlockedRow }

/-! ### Refinement -/

/-- A condition on the entries, as a condition on the moves of the floor. -/
def Floor.Guard (K : Books → Entry → Prop) (F : Floor) : Move → Prop
  | .refusedLate att => K F.books (.late att.reservation.borrower_id)
  | .unlocked now => K F.books (.unlocked now)
  | _ => True

variable {K : Books → Entry → Prop}

/-- **Refinement.** Every move of the floor is an entry of the books, if only an empty one. -/
theorem Floor.Step.books {F F' : Floor} {m : Move} (hm : F.Step m F') (h : F.Attempted)
    (hK : ∀ B, K B .routine) (hguard : F.Guard K m) : Path Books.Step K F.books F'.books := by
  have hroutine : ∀ {B}, Books.Step F.books .routine B → Path Books.Step K F.books B :=
    .single (hK _)
  cases hm with
  | hired | staffed | unreserved | placed | forgotten | dialedLate | reclaimed | wrapupOver =>
    exact .refl _
  | seeded => exact hroutine .seeded
  | unclaimed hb hs => exact hroutine (.unclaimed hb hs)
  | allotted _ _ hb hs hbc hfree =>
    subst hbc
    exact hroutine (.opened hb hs hfree)
  | dialed hatt hc hs =>
    refine hroutine (.moved hc (by rw [hs]; rfl) (CallRepo.evolves_advancedRow ?_ _ _ _ _) rfl)
    rw [hs]
    decide
  | refused hatt hc hlive hf hend =>
    -- the borrower that the attempt remembers is the one of the call
    obtain ⟨c, hc', _, hborrower, _⟩ := h.call hatt
    rw [hc, Option.some.injEq] at hc'
    subst hc'
    apply hroutine
    rw [Floor.books, ← hborrower]
    exact .ended hc hlive hf hend fun b => BorrowerRepo.counted_rescheduledRow _ _ b
  | refusedLate =>
    exact .single hguard (.late fun b => BorrowerRepo.counted_rescheduledRow _ _ b)
  | rang hc hs hf hring => exact hroutine (.moved hc (by rw [hs]; rfl) hf (by rw [hring]; rfl))
  | connected hc hs _ hf hconn =>
    exact hroutine (.moved hc (live_of_isRinging hs) hf (by rw [hconn]; rfl))
  | ended hc hlive _ _ hf hfinal hend =>
    exact hroutine (.ended hc hlive hf (by rw [hfinal]; exact hend)
      fun b => BorrowerRepo.counted_endedRow _ _ _ b)
  | orphaned hc hlive _ hf hend =>
    exact hroutine (.ended hc hlive hf hend fun b => BorrowerRepo.counted_rescheduledRow _ _ b)
  | unlocked => exact .single hguard .unlocked

/-- The permission for a step, from the two entries that a condition may restrict. -/
theorem permits_guard {s : Sys} {a : Act}
    (hlate : ∀ now i att, a = .rejected now i → s.attempts.get? i = some att → att.placed = true →
      (∀ c, s.db.calls.get? att.reservation.call_id = some c → c.state.isTerminal = true) →
      K s.books (.late att.reservation.borrower_id))
    (hunlocked : ∀ now now_ts registry B, a = .reap now now_ts registry →
      B.calls = s.db.calls.modify (fun _ c => isOrphan now_ts c) (orphanedRow now) →
      (∀ i b, B.borrowers.get? i = some b → b.state = .LOCKED → s.db.borrowers.get? i = some b) →
      K B (.unlocked now)) : Permits (Floor.Guard K) s a where
  routine := fun F m hm => by cases m <;> trivial
  staffed := fun _ _ _ => trivial
  refusedLate := hlate
  orphaned := fun _ _ _ _ _ _ _ _ _ _ => trivial
  unlocked := fun now now_ts registry F ha hcalls hlocked =>
    hunlocked now now_ts registry F.books ha hcalls hlocked

/-- The invariant that the refinement rests on. -/
structure Sys.Kept (s : Sys) : Prop where
  live : s.Live
  attempted : s.floor.Attempted

/-- The invariant holds of the empty database. -/
theorem kept_init : Sys.init.Kept := ⟨live_init, fun _ _ h => by cases h⟩

/-- **Step.** Every action of the system is a path of entries of the books. -/
theorem step_books (cfg : Settings) {s : Sys} {a : Act} (h : s.Kept) (hK : ∀ B, K B .routine)
    (hp : Permits (Floor.Guard K) s a) : Path Books.Step K s.books (step cfg s a).books := by
  have hpath := step_path cfg h.live hp
  refine hpath.map Floor.books (I := Floor.Attempted) ?_ ?_ h.attempted
  · intro F m F' hF _ hm
    exact hF.step hm
  · intro F m F' hF hH hm
    exact hm.books hF hK hH

/-- **Step.** No action breaks the invariant, whatever the state it is taken in. -/
theorem kept_step (cfg : Settings) {s : Sys} (h : s.Kept) (a : Act) : (step cfg s a).Kept where
  live := live_step cfg h.live a
  attempted := (step_path cfg h.live (permits_true s a)).invariant (I := Floor.Attempted)
    (fun _ _ _ hF _ hm => hF.step hm) h.attempted

end SmartDialer
