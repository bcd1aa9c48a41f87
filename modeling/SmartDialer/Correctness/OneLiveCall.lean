import SmartDialer.Correctness.Keys

namespace SmartDialer

open Relational

/-!
# One live call for each borrower

Nothing but the unique key keeps a borrower from being dialed twice at a time, and the key names
the next attempt, so it protects a live call as long as that call is the borrower's next attempt.
Every end of a call counts the attempt together with ending it; the transaction after a
`ProviderError` counts it also when the call had ended before, and then the next call's key is free
although a call may be live.

* `Books.Serial` — a live call is the next attempt, unless the attempts are used up.
* `Books.Timely` — a late count finds the borrower idle, or uses the attempts up.
-/

/-- The attempts are used up, and the borrower is out of the pool. -/
structure BorrowerRow.Spent (b : BorrowerRow) : Prop where
  attempts : b.max_attempts ≤ b.attempt_count
  not_pending : b.state ≠ .PENDING
  not_locked : b.state ≠ .LOCKED

/-- A count that uses the attempts up takes the borrower out of the pool. -/
theorem BorrowerRow.Counted.spent {b b' : BorrowerRow} (h : b.Counted b')
    (hmax : b.max_attempts ≤ b.attempt_count + 1) : b'.Spent where
  attempts := by rw [h.max_attempts, h.attempt_count]; exact hmax
  not_pending := fun hs => by have := h.lt_of_pending hs; omega
  not_locked := h.not_locked

/-- No call of the borrower is live. -/
def Books.Idle (B : Books) (borrower_id : ℕ) : Prop :=
  ∀ i c, B.calls.get? i = some c → c.borrower_id = borrower_id → c.state.isTerminal = true

/-- A borrower has at most one live call, and that is its next attempt while it has any left. -/
structure Books.Serial (B : Books) : Prop where
  keyed : B.Keyed
  single : ∀ i j c d, B.calls.get? i = some c → B.calls.get? j = some d →
    c.borrower_id = d.borrower_id → c.state.isTerminal = false → d.state.isTerminal = false → i = j
  current : ∀ i c b, B.calls.get? i = some c → c.state.isTerminal = false →
    B.borrowers.get? c.borrower_id = some b → c.attempt_no = b.attempt_count + 1 ∨ b.Spent

/-- A late count finds the borrower idle or at its last attempt. -/
def Books.Timely (B : Books) : Entry → Prop
  | .late borrower_id => B.Idle borrower_id ∨
      ∀ b, B.borrowers.get? borrower_id = some b → b.max_attempts ≤ b.attempt_count + 1
  | _ => True

namespace Books.Serial

variable {B : Books}

/-- Nobody has been called. -/
theorem init : Sys.init.books.Serial :=
  ⟨.init, (fun _ _ _ _ h => by cases h), fun _ _ _ h => by cases h⟩

/-- While the key of the next attempt is free, a pending borrower is idle. -/
theorem idle_of_free (h : B.Serial) {borrower_id : ℕ} {b : BorrowerRow}
    (hb : B.borrowers.get? borrower_id = some b) (hs : b.state = .PENDING)
    (hfree : ∀ j c, B.calls.get? j = some c →
      c.idempotency_key ≠ idempotencyKey b.campaign_id borrower_id (b.attempt_count + 1)) :
    B.Idle borrower_id := by
  intro i c hc hcb
  by_contra hlive
  rw [Bool.not_eq_true] at hlive
  subst hcb
  rcases h.current i c b hc hlive hb with hn | hspent
  · exact (h.keyed.key_ne_iff hc hb _).mp (hfree i c hc) ⟨rfl, hn⟩
  · exact hspent.not_pending hs

/-- Live calls that were live before, for borrowers whose count stayed or whose attempts are used
    up. -/
private theorem of_live {B' : Books} (h : B.Serial) (hkeyed : B'.Keyed)
    (hlive : ∀ i c', B'.calls.get? i = some c' → c'.state.isTerminal = false →
      ∃ c, B.calls.get? i = some c ∧ c.state.isTerminal = false ∧
        c'.borrower_id = c.borrower_id ∧ c'.attempt_no = c.attempt_no ∧
        ∀ b', B'.borrowers.get? c.borrower_id = some b' →
          b'.Spent ∨ ∃ b, B.borrowers.get? c.borrower_id = some b ∧
            b'.attempt_count = b.attempt_count ∧ (b.Spent → b'.Spent)) : B'.Serial where
  keyed := hkeyed
  single := by
    intro i j c' d' hc' hd' hb hcl hdl
    obtain ⟨c, hc, hcl₀, hcb, _, _⟩ := hlive i c' hc' hcl
    obtain ⟨d, hd, hdl₀, hdb, _, _⟩ := hlive j d' hd' hdl
    rw [hcb, hdb] at hb
    exact h.single i j c d hc hd hb hcl₀ hdl₀
  current := by
    intro i c' b' hc' hcl hb'
    obtain ⟨c, hc, hcl₀, hcb, hcn, hrow⟩ := hlive i c' hc' hcl
    rw [hcb] at hb'
    rcases hrow b' hb' with hspent | ⟨b, hb, hcount, hspent⟩
    · exact Or.inr hspent
    · rw [hcn, hcount]
      exact (h.current i c b hc hcl₀ hb).imp_right hspent

/-- A lock is held by a borrower that is not spent. -/
private theorem not_spent_of_lock {now : Time} {b : BorrowerRow}
    (h : BorrowerRepo.isLockExpired now b = true) : ¬ b.Spent := by
  intro hspent
  simp only [BorrowerRepo.isLockExpired, Bool.and_eq_true, beq_iff_eq] at h
  exact hspent.not_locked h.1

/-- **Step.** Every timely entry keeps the calls of a borrower one after the other. -/
theorem step {B' : Books} {e : Entry} (h : B.Serial) (hK : B.Timely e) (hm : B.Step e B') :
    B'.Serial := by
  have hkeyed : B'.Keyed := h.keyed.step hm
  cases hm with
  | kept => exact h
  | seeded =>
    refine h.of_live hkeyed fun i c hc hcl => ⟨c, hc, hcl, rfl, rfl, fun b' hb' => Or.inr ?_⟩
    rcases Table.cases_of_get?_push hb' with ⟨hid, _⟩ | hb
    · exact absurd hid (h.keyed.borrower_ne_nextId hc)
    · exact ⟨b', hb, rfl, id⟩
  | @unclaimed lease worker borrower_id b hb hs =>
    refine h.of_live hkeyed fun i c hc hcl => ⟨c, hc, hcl, rfl, rfl, fun b' hb' => Or.inr ?_⟩
    rw [Table.alter_alter] at hb'
    rcases Table.cases_of_get?_alter hb hb' with ⟨hid, rfl⟩ | ⟨_, hb₀⟩
    · exact ⟨b, hid ▸ hb, rfl, fun hspent => absurd hs hspent.not_pending⟩
    · exact ⟨b', hb₀, rfl, id⟩
  | @opened now lease worker provider agent_id borrower_id b hb hs hfree =>
    have hidle := h.idle_of_free hb hs hfree
    refine ⟨hkeyed, ?_, ?_⟩
    · intro i j c d hc hd hbid hcl hdl
      -- a call made before is of another borrower, or has ended
      rcases Table.cases_of_get?_push hc with ⟨rfl, rfl⟩ | hc <;>
        rcases Table.cases_of_get?_push hd with ⟨rfl, rfl⟩ | hd
      · rfl
      · rw [hidle j d hd hbid.symm] at hdl; cases hdl
      · rw [hidle i c hc hbid] at hcl; cases hcl
      · exact h.single i j c d hc hd hbid hcl hdl
    · intro i c b' hc hcl hb'
      obtain ⟨b₀, hb₀, rfl⟩ := Table.exists_of_get?_alter hb'
      rcases Table.cases_of_get?_push hc with ⟨rfl, rfl⟩ | hc
      · rw [show b₀ = b from Option.some.inj (hb₀.symm.trans hb)]
        left
        split <;> rfl
      · rw [if_neg fun hid => by rw [hidle i c hc hid] at hcl; cases hcl]
        exact h.current i c b₀ hc hcl hb₀
  | @moved call_id c f hc hlive hf hlive' =>
    apply h.of_live hkeyed
    intro i c' hc' hcl
    rcases Table.cases_of_get?_alter hc hc' with ⟨hid, rfl⟩ | ⟨_, hd⟩
    · exact ⟨c, hid ▸ hc, hlive, hf.borrower_id, hf.attempt_no,
        fun b' hb' => Or.inr ⟨b', hb', rfl, id⟩⟩
    · exact ⟨c', hd, hcl, rfl, rfl, fun b' hb' => Or.inr ⟨b', hb', rfl, id⟩⟩
  | @ended call_id c f g hc hlive hf hend hg =>
    apply h.of_live hkeyed
    intro i c' hc' hcl
    rcases Table.cases_of_get?_alter hc hc' with ⟨_, rfl⟩ | ⟨hid, hd⟩
    · rw [hend] at hcl
      cases hcl
    · refine ⟨c', hd, hcl, rfl, rfl, fun b' hb' => Or.inr ?_⟩
      obtain ⟨b, hb, rfl⟩ := Table.exists_of_get?_alter hb'
      -- the borrower of the call that ended has no other live call
      rw [if_neg fun hbid => hid (h.single i call_id c' c hd hc hbid hcl hlive)]
      exact ⟨b, hb, rfl, id⟩
  | @late borrower_id g hg =>
    refine h.of_live hkeyed fun i c hc hcl => ⟨c, hc, hcl, rfl, rfl, fun b' hb' => ?_⟩
    obtain ⟨b, hb, rfl⟩ := Table.exists_of_get?_alter hb'
    by_cases hid : c.borrower_id = borrower_id
    · rw [if_pos hid]
      rcases hK with hidle | hlast
      · rw [hidle i c hc hid] at hcl; cases hcl
      · exact Or.inl ((hg b).spent (hlast b (hid ▸ hb)))
    · rw [if_neg hid]
      exact Or.inr ⟨b, hb, rfl, id⟩
  | @unlocked now =>
    refine h.of_live hkeyed fun i c hc hcl => ⟨c, hc, hcl, rfl, rfl, fun b' hb' => Or.inr ?_⟩
    obtain ⟨b, hb, rfl⟩ := Table.exists_of_get?_modify hb'
    refine ⟨b, hb, ?_⟩
    split
    · rename_i hlock
      exact ⟨rfl, fun hspent => absurd hspent (not_spent_of_lock hlock)⟩
    · exact ⟨rfl, id⟩

end Books.Serial

/-! ### Runs -/

/-- No borrower has two calls that have not ended. -/
def Sys.OneLiveCall (s : Sys) : Prop :=
  ∀ i c, s.db.calls.get? i = some c → ∀ j d, s.db.calls.get? j = some d →
    c.borrower_id = d.borrower_id → c.state ∉ terminal → d.state ∉ terminal → i = j

/-- The calls are finitely many. -/
instance (s : Sys) : Decidable s.OneLiveCall :=
  inferInstanceAs (Decidable (∀ i c, s.db.calls.get? i = some c → ∀ j d,
    s.db.calls.get? j = some d → c.borrower_id = d.borrower_id → c.state ∉ terminal →
      d.state ∉ terminal → i = j))

/-- The transaction after a `ProviderError` finds its call still live, or the borrower without a
    live call, or the borrower at its last attempt. -/
def FailureTimely (s : Sys) : Act → Prop
  | .rejected _ call_id => ∀ att ∈ s.attempts.get? call_id, att.placed = true →
      (∃ c ∈ s.db.calls.get? att.reservation.call_id, c.state.isTerminal = false) ∨
      (∀ i c, s.db.calls.get? i = some c → c.borrower_id = att.reservation.borrower_id →
        c.state.isTerminal = true) ∨
      ∀ b ∈ s.db.borrowers.get? att.reservation.borrower_id, b.max_attempts ≤ b.attempt_count + 1
  | _ => True

/-- The condition looks at one attempt, its call and its borrower. -/
instance (s : Sys) (a : Act) : Decidable (FailureTimely s a) :=
  match a with
  | .rejected _ call_id =>
    inferInstanceAs (Decidable (∀ att ∈ s.attempts.get? call_id, att.placed = true →
      (∃ c ∈ s.db.calls.get? att.reservation.call_id, c.state.isTerminal = false) ∨
      (∀ i c, s.db.calls.get? i = some c → c.borrower_id = att.reservation.borrower_id →
        c.state.isTerminal = true) ∨
      ∀ b ∈ s.db.borrowers.get? att.reservation.borrower_id, b.max_attempts ≤ b.attempt_count + 1))
  | .createAgent .. | .login .. | .logout .. | .pause .. | .seed .. | .reserveAndCreate ..
  | .placeCall .. | .accepted .. | .abandon .. | .pullback .. | .reap .. | .ingest .. | .fetch ..
  | .read .. | .commit .. | .rollback .. => inferInstanceAs (Decidable True)

/-- A timely transaction makes a timely late count, if any. -/
theorem FailureTimely.late {s : Sys} {now : Time} {i : ℕ} {att : Attempt}
    (h : FailureTimely s (.rejected now i)) (hatt : s.attempts.get? i = some att)
    (hplaced : att.placed = true) (hended : ∀ c, s.db.calls.get? att.reservation.call_id = some c →
      c.state.isTerminal = true) : s.books.Timely (.late att.reservation.borrower_id) := by
  rcases h att hatt hplaced with ⟨c, hc, hlive⟩ | hidle | hlast
  · rw [hended c hc] at hlive
    cases hlive
  · exact Or.inl hidle
  · exact Or.inr hlast

/-- The condition on the action is one on the moves it makes of the books. -/
theorem FailureTimely.permits {s : Sys} {a : Act} (h : FailureTimely s a) :
    Permits (Floor.Guard Books.Timely) s a := by
  refine permits_guard ?_ fun _ _ _ _ _ _ _ => trivial
  rintro now i att rfl hatt hplaced hended
  exact h.late hatt hplaced hended

/-- **Run.** While the failure transactions are timely, the calls of a borrower come one after the
    other. -/
theorem serial_run (cfg : Settings) {acts : List Act}
    (h : Along (step cfg) FailureTimely Sys.init acts) :
    (run (step cfg) Sys.init acts).books.Serial :=
  invariant_of_simulation (L := Sys.Kept) (G := FailureTimely) (H := Books.Timely)
    (I := Books.Serial) (fun _ a hs _ => kept_step cfg hs a)
    (fun _ _ hs ha => step_books cfg hs (fun _ => trivial) ha.permits)
    (fun _ _ _ hB hK hm => hB.step hK hm) kept_init .init h

/-- **One live call.** In every run whose failure transactions are timely, no borrower has two live
    calls in any state reached.  The condition is about the late ones: `FAIL` then matches no row,
    the reaper having failed the call, but the borrower is rescheduled all the same, and may by then
    be on another call. -/
theorem one_live_call (cfg : Settings) (acts : List Act)
    (h : Along (step cfg) FailureTimely Sys.init acts) :
    (run (step cfg) Sys.init acts).OneLiveCall := by
  have hserial := serial_run cfg h
  intro i c hc j d hd hb hcl hdl
  rw [mem_terminal, Bool.not_eq_true] at hcl hdl
  exact hserial.single i j c d hc hd hb hcl hdl

/-- A provider that refuses a call at once, and one that refuses it after the reaper has failed it:
    the borrower is idle by then. -/
def timelyFailures : List Act :=
  [.createAgent 0 7 "ext-1", .login 0 1, .seed 0 7 "+15550001" 100 3,
    .reserveAndCreate 0 0 [] [] (some "mock") "w1" 7, .placeCall 1, .rejected (secs 1) 1,
    .reserveAndCreate (secs 61) (secs 61) [] [] (some "mock") "w1" 7, .placeCall 2,
    .reap (secs 92) (secs 92) none, .rejected (secs 93) 2]

/-- A run with two failures, one of them after the reaper had come first: three attempts are
    counted, and no two calls lived at once. -/
theorem one_live_call_timelyFailures :
    (run (step .default) Sys.init timelyFailures).OneLiveCall ∧
      ((run (step .default) Sys.init timelyFailures).db.borrowers.get? 1).map (·.attempt_count)
        = some 3 :=
  ⟨one_live_call .default timelyFailures (by decide +kernel), by decide +kernel⟩

/-- The first allocation waits for its provider while the reaper fails its call, and the borrower is
    dialed again under the second key.  The `ProviderError` that then arrives counts the attempt
    once more, so the third key is free while the second call is live. -/
def lateFailure : List Act :=
  [.createAgent 0 7 "ext-1", .login 0 1, .createAgent 0 7 "ext-2", .login 0 2,
    .seed 0 7 "+15550001" 100 3,
    .reserveAndCreate 0 0 [] [] (some "mock") "w1" 7, .placeCall 1,
    .reap (secs 31) (secs 31) none,
    .reserveAndCreate (secs 151) (secs 151) [] [] (some "mock") "w2" 7, .placeCall 2,
    .accepted (secs 152) (secs 152) 2 "pc-2",
    .rejected (secs 153) 1,
    .reserveAndCreate (secs 213) (secs 213) [] [] (some "mock") "w2" 7]

/-- Without the condition it fails: two calls to one borrower live at the end. -/
theorem lateFailure_two_live_calls :
    ¬ (run (step .default) Sys.init lateFailure).OneLiveCall := by
  decide +kernel

end SmartDialer
