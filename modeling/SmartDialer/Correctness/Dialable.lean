import SmartDialer.Correctness.OneLiveCall

namespace SmartDialer

open Relational

/-!
# Claimable borrowers can be dialed

The predicate of the claim is about `borrowers`, the constraint that a claim may run into is about
`calls`.  They agree while a borrower that is pending has no live call (`Books.Quiet`).  The lock is
what keeps a borrower with a live call from being pending; it is written once, for the time of the
reservation, and the sweep of the expired locks looks neither at the call nor at its lease.

* `LocksCover` — a tick of the reaper finds no expired lock over a call that it leaves alive.
* `Sys.Dialable` — what then holds: the key of the next attempt is free, and the first transaction
  of an allocation does not raise.
-/

/-- A pending borrower is idle, and no call is beyond the next attempt of its borrower. -/
structure Books.Quiet (B : Books) : Prop where
  idle : ∀ k b, B.borrowers.get? k = some b → b.state = .PENDING → B.Idle k
  counted : ∀ i c b, B.calls.get? i = some c → B.borrowers.get? c.borrower_id = some b →
    c.attempt_no ≤ b.attempt_count ∨
      (c.state.isTerminal = false ∧ c.attempt_no = b.attempt_count + 1)

/-- A timely entry that unlocks idle borrowers only. -/
def Books.Calm (B : Books) : Entry → Prop
  | .late borrower_id => B.Timely (.late borrower_id)
  | .unlocked now => ∀ k b, B.borrowers.get? k = some b → BorrowerRepo.isLockExpired now b = true →
      B.Idle k
  | .routine => True

namespace Books.Quiet

variable {B : Books}

/-- Nobody is in the pool, so everybody in it can be dialed. -/
theorem init : Sys.init.books.Quiet := ⟨(fun _ _ h => by cases h), fun _ _ _ h => by cases h⟩

/-- The key of the next attempt of a pending borrower is free. -/
theorem key_free (h : B.Quiet) (hkeyed : B.Keyed) {k : ℕ} {b : BorrowerRow}
    (hb : B.borrowers.get? k = some b) (hs : b.state = .PENDING) {i : ℕ} {c : CallRow}
    (hc : B.calls.get? i = some c) :
    c.idempotency_key ≠ idempotencyKey b.campaign_id k (b.attempt_count + 1) := by
  rw [hkeyed.key_ne_iff hc hb]
  rintro ⟨rfl, hn⟩
  rcases h.counted i c b hc hb with hle | ⟨hlive, _⟩
  · omega
  · rw [h.idle _ b hb hs i c hc rfl] at hlive
    cases hlive

/-- Counting an attempt leaves no call beyond the next one. -/
private theorem counted_of_counted {b b' : BorrowerRow} {c : CallRow} (hb : b.Counted b')
    (h : c.attempt_no ≤ b.attempt_count ∨
      (c.state.isTerminal = false ∧ c.attempt_no = b.attempt_count + 1)) :
    c.attempt_no ≤ b'.attempt_count := by
  have hcount := hb.attempt_count
  rcases h with h | ⟨_, h⟩ <;> omega

/-- A pending borrower stays idle, or becomes pending only while it is idle. -/
private theorem idle_step {B' : Books} {e : Entry} (h : B.Quiet) (hS : B.Serial) (hK : B.Calm e)
    (hm : B.Step e B') {k : ℕ} {b' : BorrowerRow} (hb' : B'.borrowers.get? k = some b')
    (hs' : b'.state = .PENDING) : B'.Idle k := by
  cases hm with
  | kept => exact h.idle k b' hb' hs'
  | seeded =>
    rcases Table.cases_of_get?_push hb' with ⟨rfl, _⟩ | hb
    · intro i c hc hck
      exact absurd hck (hS.keyed.borrower_ne_nextId hc)
    · exact h.idle k b' hb hs'
  | @unclaimed lease worker borrower_id b hb hs =>
    rw [Table.alter_alter] at hb'
    rcases Table.cases_of_get?_alter hb hb' with ⟨rfl, _⟩ | ⟨_, hb₀⟩
    · exact h.idle k b hb hs
    · exact h.idle k b' hb₀ hs'
  | @opened now lease worker provider agent_id borrower_id b hb hs hfree =>
    -- the borrower of the new call is locked
    rcases Table.cases_of_get?_alter hb hb' with ⟨_, rfl⟩ | ⟨hid, hb₀⟩
    · cases hs'
    · intro i c hc hck
      rcases Table.cases_of_get?_push hc with ⟨_, rfl⟩ | hc
      · exact absurd hck.symm hid
      · exact h.idle k b' hb₀ hs' i c hc hck
  | @moved call_id c f hc hlive hf hlive' =>
    intro i c' hc' hck
    rcases Table.cases_of_get?_alter hc hc' with ⟨_, rfl⟩ | ⟨_, hd⟩
    · -- the borrower of a live call is not pending
      have hover := h.idle k b' hb' hs' call_id c hc (hf.borrower_id ▸ hck)
      rw [hover] at hlive
      cases hlive
    · exact h.idle k b' hb' hs' i c' hd hck
  | @ended call_id c f g hc hlive hf hend hg =>
    intro i c' hc' hck
    rcases Table.cases_of_get?_alter hc hc' with ⟨_, rfl⟩ | ⟨hid, hd⟩
    · exact hend
    · obtain ⟨b, hb, heq⟩ := Table.exists_of_get?_alter hb'
      by_cases hk : k = c.borrower_id
      · -- no other call of the borrower is live
        by_contra hdl
        rw [Bool.not_eq_true] at hdl
        exact hid (hS.single i call_id c' c hd hc (hck.trans hk) hdl hlive)
      · rw [if_neg hk] at heq
        rw [heq] at hs'
        exact h.idle k b hb hs' i c' hd hck
  | @late borrower_id g hg =>
    obtain ⟨b, hb, rfl⟩ := Table.exists_of_get?_alter hb'
    by_cases hid : k = borrower_id
    · rw [if_pos hid] at hs'
      have hlt := (hg b).lt_of_pending hs'
      rcases hK with hidle | hlast
      · exact hid ▸ hidle
      · have hmax := hlast b (hid ▸ hb)
        omega
    · rw [if_neg hid] at hs'
      exact h.idle k b hb hs'
  | @unlocked now =>
    obtain ⟨b, hb, rfl⟩ := Table.exists_of_get?_modify hb'
    cases hlock : BorrowerRepo.isLockExpired now b with
    | true => exact hK k b hb hlock
    | false =>
      rw [hlock] at hs'
      exact h.idle k b hb hs'

/-- No call gets beyond the next attempt of its borrower. -/
private theorem counted_step {B' : Books} {e : Entry} (h : B.Quiet) (hS : B.Serial)
    (hm : B.Step e B') {i : ℕ} {c' : CallRow} {b' : BorrowerRow} (hc' : B'.calls.get? i = some c')
    (hb' : B'.borrowers.get? c'.borrower_id = some b') :
    c'.attempt_no ≤ b'.attempt_count ∨
      (c'.state.isTerminal = false ∧ c'.attempt_no = b'.attempt_count + 1) := by
  cases hm with
  | kept => exact h.counted i c' b' hc' hb'
  | seeded =>
    rcases Table.cases_of_get?_push hb' with ⟨hid, _⟩ | hb
    · exact absurd hid (hS.keyed.borrower_ne_nextId hc')
    · exact h.counted i c' b' hc' hb
  | @unclaimed lease worker borrower_id b hb hs =>
    rw [Table.alter_alter] at hb'
    obtain ⟨b₀, hb₀, rfl⟩ := Table.exists_of_get?_alter hb'
    have hold := h.counted i c' b₀ hc' hb₀
    split <;> exact hold
  | @opened now lease worker provider agent_id borrower_id b hb hs hfree =>
    rcases Table.cases_of_get?_push hc' with ⟨_, rfl⟩ | hc
    · -- the new call is the next attempt
      rcases Table.cases_of_get?_alter hb hb' with ⟨_, rfl⟩ | ⟨hid, _⟩
      · exact Or.inr ⟨rfl, rfl⟩
      · exact absurd rfl hid
    · obtain ⟨b₀, hb₀, rfl⟩ := Table.exists_of_get?_alter hb'
      have hold := h.counted i c' b₀ hc hb₀
      split <;> exact hold
  | @moved call_id c f hc hlive hf hlive' =>
    rcases Table.cases_of_get?_alter hc hc' with ⟨_, rfl⟩ | ⟨_, hd⟩
    · rw [hf.borrower_id] at hb'
      rw [hf.attempt_no, hlive']
      exact (h.counted call_id c b' hc hb').imp_right fun hn => ⟨rfl, hn.2⟩
    · exact h.counted i c' b' hd hb'
  | @ended call_id c f g hc hlive hf hend hg =>
    obtain ⟨b, hb, rfl⟩ := Table.exists_of_get?_alter hb'
    rcases Table.cases_of_get?_alter hc hc' with ⟨_, rfl⟩ | ⟨_, hd⟩
    · rw [hf.borrower_id] at hb ⊢
      rw [if_pos rfl, hf.attempt_no]
      exact Or.inl (counted_of_counted (hg b) (h.counted call_id c b hc hb))
    · have hold := h.counted i c' b hd hb
      split
      · exact Or.inl (counted_of_counted (hg b) hold)
      · exact hold
  | @late borrower_id g hg =>
    obtain ⟨b, hb, rfl⟩ := Table.exists_of_get?_alter hb'
    have hold := h.counted i c' b hc' hb
    split
    · exact Or.inl (counted_of_counted (hg b) hold)
    · exact hold
  | @unlocked now =>
    obtain ⟨b, hb, rfl⟩ := Table.exists_of_get?_modify hb'
    have hold := h.counted i c' b hc' hb
    split <;> exact hold

/-- **Step.** Every calm entry keeps the pending borrowers idle. -/
theorem step {B' : Books} {e : Entry} (h : B.Quiet) (hS : B.Serial) (hK : B.Calm e)
    (hm : B.Step e B') : B'.Quiet where
  idle := fun _ _ hb hs => h.idle_step hS hK hm hb hs
  counted := fun _ _ _ hc hb => h.counted_step hS hm hc hb

end Books.Quiet

/-- A calm entry is timely. -/
theorem Books.Calm.timely {B : Books} {e : Entry} (h : B.Calm e) : B.Timely e := by
  cases e with
  | late => exact h
  | routine | unlocked => trivial

/-! ### Runs -/

/-- A tick of the reaper finds no expired lock of a borrower with a live call, except for calls that
    it fails itself. -/
def LocksCover (s : Sys) : Act → Prop
  | .reap now now_ts _ => ∀ k b, s.db.borrowers.get? k = some b →
      BorrowerRepo.isLockExpired now b = true → ∀ i c, s.db.calls.get? i = some c →
        c.borrower_id = k → c.state.isTerminal = false → isOrphan now_ts c = true
  | _ => True

/-- Borrowers and calls are finitely many, so the condition can be checked before a tick. -/
instance (s : Sys) (a : Act) : Decidable (LocksCover s a) :=
  match a with
  | .reap now now_ts _ =>
    inferInstanceAs (Decidable (∀ k b, s.db.borrowers.get? k = some b →
      BorrowerRepo.isLockExpired now b = true → ∀ i c, s.db.calls.get? i = some c →
        c.borrower_id = k → c.state.isTerminal = false → isOrphan now_ts c = true))
  | .createAgent .. | .login .. | .logout .. | .pause .. | .seed .. | .reserveAndCreate ..
  | .placeCall .. | .rejected .. | .accepted .. | .abandon .. | .pullback .. | .ingest ..
  | .fetch .. | .read .. | .commit .. | .rollback .. => inferInstanceAs (Decidable True)

/-- What is assumed of the steps of a run. -/
def DialableAssumed (s : Sys) (a : Act) : Prop := FailureTimely s a ∧ LocksCover s a

/-- Both halves can be checked. -/
instance (s : Sys) (a : Act) : Decidable (DialableAssumed s a) :=
  inferInstanceAs (Decidable (FailureTimely s a ∧ LocksCover s a))

/-- The condition on the action is one on the moves it makes of the books. -/
theorem DialableAssumed.permits {s : Sys} {a : Act} (h : DialableAssumed s a) :
    Permits (Floor.Guard Books.Calm) s a := by
  refine permits_guard ?_ ?_
  · rintro now i att rfl hatt hplaced hended
    exact h.1.late hatt hplaced hended
  · rintro now now_ts registry B rfl hcalls hlocked k b hb hlock i c hc hck
    rw [hcalls] at hc
    obtain ⟨c₀, hc₀, rfl⟩ := Table.exists_of_get?_modify hc
    -- the calls that the tick has left alone are the ones that it found
    cases ho : isOrphan now_ts c₀ with
    | true => rfl
    | false =>
      rw [ho] at hck
      show c₀.state.isTerminal = true
      have hstate : b.state = .LOCKED := by
        simp only [BorrowerRepo.isLockExpired, Bool.and_eq_true, beq_iff_eq] at hlock
        exact hlock.1
      by_contra hlive
      rw [Bool.not_eq_true] at hlive
      have horphan := h.2 k b (hlocked k b hb hstate) hlock i c₀ hc₀ hck hlive
      rw [ho] at horphan
      cases horphan

/-- **Run.** Under the assumptions the pending borrowers are idle in every state reached. -/
theorem quiet_run (cfg : Settings) {acts : List Act}
    (h : Along (step cfg) DialableAssumed Sys.init acts) :
    (run (step cfg) Sys.init acts).books.Serial ∧ (run (step cfg) Sys.init acts).books.Quiet :=
  invariant_of_simulation (L := Sys.Kept) (G := DialableAssumed) (H := Books.Calm)
    (I := fun B => B.Serial ∧ B.Quiet) (fun _ a hs _ => kept_step cfg hs a)
    (fun _ _ hs ha => step_books cfg hs (fun _ => trivial) ha.permits)
    (fun _ _ _ hB hK hm => ⟨hB.1.step hK.timely hm, hB.2.step hB.1 hK hm⟩) kept_init
    ⟨.init, .init⟩ h

/-- Whatever borrower a claim may return can be dialed. -/
structure Sys.Dialable (s : Sys) : Prop where
  /-- The key of the next attempt of a claimable borrower is free. -/
  key_free : ∀ campaign_id now k b, s.db.borrowers.get? k = some b →
    BorrowerRepo.claimable campaign_id now b = true → ∀ i c, s.db.calls.get? i = some c →
      c.idempotency_key ≠ idempotencyKey campaign_id k (b.attempt_count + 1)
  /-- A borrower with a live call is not claimable. -/
  idle : ∀ campaign_id now k b, s.db.borrowers.get? k = some b →
    BorrowerRepo.claimable campaign_id now b = true → ∀ i c, s.db.calls.get? i = some c →
      c.borrower_id = k → c.state ∈ terminal
  /-- The first transaction of an allocation does not raise. -/
  allocates : ∀ now lockedAgents lockedBorrowers pick worker campaign_id lease,
    ((reserveAndCreate now lockedAgents lockedBorrowers pick worker campaign_id lease).result
      s.db).isSome = true

/-- **Claimable borrowers can be dialed** in every state of every run in which the failure
    transactions are timely and the locks cover the calls that the reaper leaves alive.  The lock of
    a borrower is renewed by nobody and outlasts neither a long ring nor a talk, so the sweep of
    expired locks can make a borrower claimable whose call lives on; its next call would then have
    the key of that one. -/
theorem claimable_dialable (cfg : Settings) (acts : List Act)
    (h : Along (step cfg) DialableAssumed Sys.init acts) :
    (run (step cfg) Sys.init acts).Dialable := by
  obtain ⟨hserial, hquiet⟩ := quiet_run cfg h
  have hclaim : ∀ {campaign_id now} {b : BorrowerRow},
      BorrowerRepo.claimable campaign_id now b = true → b.campaign_id = campaign_id ∧
        b.state = .PENDING := by
    intro campaign_id now b hb
    simp only [BorrowerRepo.claimable, Bool.and_eq_true, beq_iff_eq] at hb
    exact hb.1
  have hfree : ∀ campaign_id now k b,
      (run (step cfg) Sys.init acts).db.borrowers.get? k = some b →
      BorrowerRepo.claimable campaign_id now b = true → ∀ i c,
      (run (step cfg) Sys.init acts).db.calls.get? i = some c →
        c.idempotency_key ≠ idempotencyKey campaign_id k (b.attempt_count + 1) := by
    intro campaign_id now k b hb hc i c hi
    obtain ⟨rfl, hs⟩ := hclaim hc
    exact hquiet.key_free hserial.keyed hb hs hi
  refine ⟨hfree, ?_, ?_⟩
  · intro campaign_id now k b hb hc i c hi hck
    rw [mem_terminal]
    exact hquiet.idle k b hb (hclaim hc).2 i c hi hck
  · intro now lockedAgents lockedBorrowers pick worker campaign_id lease
    obtain ⟨o, db', hrun⟩ := reserveAndCreate_total now lockedAgents lockedBorrowers pick worker
      campaign_id lease _ (hfree campaign_id now)
    rw [(Txn.commit_of_run hrun).2]
    rfl

/-- A call that is over before its borrower's lock expires, and a crash that leaves a lock behind:
    the tick that removes it also fails the call. -/
def coveredLocks : List Act :=
  [.createAgent 0 7 "ext-1", .login 0 1, .seed 0 7 "+15550001" 100 3,
    .reserveAndCreate 0 0 [] [] (some "mock") "w1" 7, .placeCall 1,
    .accepted (secs 1) (secs 1) 1 "pc-1", .reap (secs 2) (secs 2) none, .pullback (secs 3) 1,
    .reserveAndCreate (secs 33) (secs 33) [] [] (some "mock") "w1" 7, .abandon 2,
    .reap (secs 64) (secs 64) none]

/-- A lock is swept in this run, and its borrower can be dialed at the end. -/
theorem claimable_dialable_coveredLocks :
    (run (step .default) Sys.init coveredLocks).Dialable ∧
      ((run (step .default) Sys.init coveredLocks).db.borrowers.get? 1).map (·.state)
        = some .PENDING :=
  ⟨claimable_dialable .default coveredLocks (by decide +kernel), by decide +kernel⟩

/-- The clock of the program and the clock of Postgres are the same. -/
def Act.RealClock : Act → Prop
  | .reserveAndCreate now clock_now .. => now = clock_now
  | .accepted now clock_now .. => now = clock_now
  | .reap now clock_now .. => now = clock_now
  | _ => True

/-- The lock of 30 seconds expires while the call is being set up, under a lease of 45. -/
def expiredLock : List Act :=
  [.createAgent 0 7 "ext-1", .login 0 1, .createAgent 0 7 "ext-2", .login 0 2,
    .seed 0 7 "+15550001" 100 3,
    .reserveAndCreate 0 0 [] [] (some "mock") "w1" 7, .placeCall 1,
    .accepted (secs 1) (secs 1) 1 "pc-1",
    .reap (secs 31) (secs 31) none]

/-- Without the condition it fails, although both clocks agree: the borrower is back in the pool
    while its call lives, and the next allocation of it raises. -/
theorem expiredLock_not_dialable :
    (∀ a ∈ expiredLock, a.RealClock) ∧ ¬ (run (step .default) Sys.init expiredLock).Dialable := by
  refine ⟨?_, fun h => ?_⟩
  · simp [expiredLock, Act.RealClock]
  · have hraise := h.allocates (secs 31) [] [] (some "mock") "w2" 7 (secs 61)
    exact absurd hraise (by decide +kernel)

end SmartDialer
