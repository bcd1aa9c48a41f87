import SmartDialer.Lib.Counting
import SmartDialer.Correctness.Cancels

namespace SmartDialer

open Relational AgentRepo BorrowerRepo

/-!
# Ticks of the reaper

What a tick makes of a row depends on the row, on the number of orphaned calls that name it, and on
the two times.  `Unstamped` is the database without the stamps, which say when the tick ran, and
`Unstamped.tick` a tick on it.

* `reap_unstamped` — the reaper's transaction is a tick on what is left.
* `Unstamped.tick_tick` — a later tick absorbs an earlier one.
* `reap_absorbs` — so ticks before another one make no difference.
-/

/-! ### Outcomes -/

/-- An agent without its version and the times of its changes. -/
def AgentRow.unstamped (a : AgentRow) : AgentRow :=
  { a with version := 0, state_changed_at := 0, updated_at := 0 }

/-- A call without the time of its end. -/
def CallRow.unstamped (c : CallRow) : CallRow :=
  { c with terminal_at := c.terminal_at.map fun _ => 0 }

/-- A borrower without the time of the next attempt. -/
def BorrowerRow.unstamped (b : BorrowerRow) : BorrowerRow := { b with next_eligible_at := 0 }

/-- The agents, calls and borrowers without their stamps. -/
structure Unstamped where
  agents : Table AgentRow
  calls : Table CallRow
  borrowers : Table BorrowerRow
  deriving DecidableEq

/-- What is left of a database. -/
def Db.unstamped (db : Db) : Unstamped where
  agents := db.agents.map fun _ a => a.unstamped
  calls := db.calls.map fun _ c => c.unstamped
  borrowers := db.borrowers.map fun _ b => b.unstamped

/-- An agent after a tick with `n` orphans of its own. -/
def agentAfter (now_ts : Time) (n : ℕ) (a : AgentRow) : AgentRow :=
  (sweptAgent 0 now_ts (if n = 0 then a else forcedRow 0 .AVAILABLE none none none a)).unstamped

/-- A call after a tick. -/
def callAfter (now_ts : Time) (c : CallRow) : CallRow :=
  if isOrphan now_ts c then orphanedRow 0 c else c

/-- A borrower whose attempts have failed `n` times. -/
def failedTimes (n : ℕ) (b : BorrowerRow) : BorrowerRow :=
  if n = 0 then b else
    { b with
      attempt_count := b.attempt_count + n
      state := if b.attempt_count + n ≥ b.max_attempts then .EXHAUSTED else .PENDING
      locked_by := none
      locked_until := none }

/-- A borrower after a tick with `n` orphans of its own. -/
def borrowerAfter (now : Time) (n : ℕ) (b : BorrowerRow) : BorrowerRow :=
  let b₁ := failedTimes n b
  (if isLockExpired now b₁ then unlockedRow b₁ else b₁).unstamped

namespace Unstamped

/-- The number of orphans with some property. -/
def orphans (o : Unstamped) (now_ts : Time) (p : CallRow → Bool) : ℕ :=
  o.calls.count fun _ c => isOrphan now_ts c && p c

/-- A tick at a time of Postgres and a time of the caller's clock. -/
def tick (now now_ts : Time) (o : Unstamped) : Unstamped where
  agents := o.agents.map fun i => agentAfter now_ts (o.orphans now_ts fun c => c.agent_id == some i)
  calls := o.calls.map fun _ => callAfter now_ts
  borrowers := o.borrowers.map fun k =>
    borrowerAfter now (o.orphans now_ts fun c => c.borrower_id == k)

section

variable (now now_ts : Time) (o : Unstamped)

/-- An agent after a tick depends on its own row and on the number of its orphans. -/
theorem tick_agents : (o.tick now now_ts).agents = o.agents.map fun i =>
    agentAfter now_ts (o.orphans now_ts fun c => c.agent_id == some i) := rfl

/-- A call after a tick depends on its own row. -/
theorem tick_calls : (o.tick now now_ts).calls = o.calls.map fun _ => callAfter now_ts := rfl

/-- A borrower after a tick depends on its own row and on the number of its orphans. -/
theorem tick_borrowers : (o.tick now now_ts).borrowers = o.borrowers.map fun k =>
    borrowerAfter now (o.orphans now_ts fun c => c.borrower_id == k) := rfl

end

end Unstamped

/-! ### The reaper -/

/-- Without the stamps, releasing an agent more than once is releasing it once. -/
private theorem unstamped_foldl_agent (now : Time) (i : ℕ) (l : List (ℕ × CallRow)) (a : AgentRow) :
    (l.foldl (fun a e =>
        if e.2.agent_id = some i then forcedRow now .AVAILABLE none none none a else a) a).unstamped
      = (if l.countP (fun e => e.2.agent_id == some i) = 0 then a
          else forcedRow 0 .AVAILABLE none none none a).unstamped := by
  induction l generalizing a with
  | nil => rfl
  | cons e l ih =>
    rw [List.foldl_cons, ih, List.countP_cons]
    by_cases hi : e.2.agent_id = some i
    · simp only [hi, if_true, beq_self_eq_true, Nat.add_one_ne_zero, if_false]
      split <;> rfl
    · have hb : (e.2.agent_id == some i) = false := beq_eq_false_iff_ne.mpr hi
      simp only [hi, hb, Bool.false_eq_true, if_false, Nat.add_zero]

/-- Without the stamps, what several orphans make of a borrower depends on their number. -/
private theorem unstamped_foldl_borrower (now : Time) (k : ℕ) (l : List (ℕ × CallRow))
    (b : BorrowerRow) :
    (l.foldl (fun b e =>
        if e.2.borrower_id = k then rescheduledRow now (secs 120) b else b) b).unstamped
      = (failedTimes (l.countP fun e => e.2.borrower_id == k) b).unstamped := by
  induction l generalizing b with
  | nil => rfl
  | cons e l ih =>
    rw [List.foldl_cons, ih, List.countP_cons]
    by_cases hk : e.2.borrower_id = k
    · simp only [hk, if_true, beq_self_eq_true]
      unfold failedTimes
      rw [if_neg (Nat.add_one_ne_zero _)]
      split
      · rename_i h0
        rw [h0]
        rfl
      · -- only the count after the last failure says whether the borrower is exhausted
        simp [BorrowerRow.unstamped, rescheduledRow, Nat.add_assoc, Nat.add_comm 1]
    · have hb : (e.2.borrower_id == k) = false := beq_eq_false_iff_ne.mpr hk
      simp only [hk, hb, Bool.false_eq_true, if_false, Nat.add_zero]

/-- The sweeps do not look at the stamps. -/
private theorem unstamped_sweptAgent (now now_ts : Time) {a a' : AgentRow}
    (h : a.unstamped = a'.unstamped) :
    (sweptAgent now now_ts a).unstamped = (sweptAgent 0 now_ts a').unstamped := by
  obtain ⟨_, _, state, _, _, lease, _, _, _⟩ := a
  obtain ⟨_, _, state', _, _, lease', _, _, _⟩ := a'
  simp only [AgentRow.unstamped, AgentRow.mk.injEq, true_and, and_true] at h
  obtain ⟨rfl, rfl, rfl, rfl, rfl, rfl⟩ := h
  cases hb : before lease now_ts <;> cases state <;>
    simp [sweptAgent, isReclaimed, isWrapupOver, reclaimedRow, wrapupReleasedRow,
      AgentRow.unstamped, hb]

/-- The lock sweep looks at no stamp. -/
private theorem unstamped_unlocked (now : Time) {b b' : BorrowerRow}
    (h : b.unstamped = b'.unstamped) :
    (if isLockExpired now b then unlockedRow b else b).unstamped
      = (if isLockExpired now b' then unlockedRow b' else b').unstamped := by
  obtain ⟨_, _, _, state, _, _, _, _, locked⟩ := b
  obtain ⟨_, _, _, state', _, _, _, _, locked'⟩ := b'
  simp only [BorrowerRow.unstamped, BorrowerRow.mk.injEq, true_and] at h
  obtain ⟨rfl, rfl, rfl, rfl, rfl, rfl, rfl, rfl⟩ := h
  cases hb : before locked now <;> cases state <;>
    simp [isLockExpired, unlockedRow, BorrowerRow.unstamped, hb]

/-- Whether a call is an orphan depends on no stamp. -/
@[simp] theorem isOrphan_unstamped (now_ts : Time) (c : CallRow) :
    isOrphan now_ts c.unstamped = isOrphan now_ts c := by
  simp [isOrphan, CallRow.unstamped]

/-- **Refinement.** The reaper's transaction is a tick on what is left. -/
theorem reap_unstamped (now now_ts : Time) (registry : Option (List String)) (db : Db) :
    ((reap now now_ts registry).commit db).unstamped = db.unstamped.tick now now_ts := by
  -- orphans are told by columns that a time stamp does not touch
  have hcount : ∀ p : CallRow → Bool, (∀ c, p c.unstamped = p c) →
      db.unstamped.orphans now_ts p =
        (db.calls.select fun _ c => isOrphan now_ts c).countP fun e => p e.2 := by
    intro p hp
    rw [Table.countP_select db.calls _ fun _ c => p c]
    unfold Unstamped.orphans Db.unstamped
    rw [Table.count_map]
    simp only [isOrphan_unstamped, hp]
  have hcalls : ((reap now now_ts registry).commit db).unstamped.calls =
      (db.unstamped.tick now now_ts).calls := by
    show (((reap now now_ts registry).commit db).calls.map fun _ c => c.unstamped) =
      (db.calls.map fun _ c => c.unstamped).map fun _ => callAfter now_ts
    rw [reap_calls, Table.modify_eq_map, Table.map_map, Table.map_map]
    apply Table.map_congr
    intro k c _
    unfold callAfter
    rw [isOrphan_unstamped]
    split <;> rfl
  -- the orphans of an agent in turn, then the two sweeps
  have hagents : ((reap now now_ts registry).commit db).unstamped.agents =
      (db.unstamped.tick now now_ts).agents := by
    show (((reap now now_ts registry).commit db).agents.map fun _ a => a.unstamped) =
      (db.agents.map fun _ a => a.unstamped).map fun i =>
        agentAfter now_ts (db.unstamped.orphans now_ts fun c => c.agent_id == some i)
    rw [reap_agents, Table.map_map, Table.map_map]
    apply Table.map_congr
    intro i a _
    rw [hcount _ fun _ => rfl]
    apply unstamped_sweptAgent
    rw [unstamped_foldl_agent]
    split <;> rfl
  have hborrowers : ((reap now now_ts registry).commit db).unstamped.borrowers =
      (db.unstamped.tick now now_ts).borrowers := by
    show (((reap now now_ts registry).commit db).borrowers.map fun _ b => b.unstamped) =
      (db.borrowers.map fun _ b => b.unstamped).map fun k =>
        borrowerAfter now (db.unstamped.orphans now_ts fun c => c.borrower_id == k)
    rw [reap_borrowers, Table.map_map, Table.map_map]
    apply Table.map_congr
    intro k b _
    rw [hcount _ fun _ => rfl]
    apply unstamped_unlocked
    rw [unstamped_foldl_borrower]
    unfold failedTimes
    split <;> rfl
  show Unstamped.mk _ _ _ = Unstamped.mk _ _ _
  congr 1

/-! ### Absorption -/

section

variable {t₁ t₂ w₁ w₂ : Time} {n m : ℕ}

/-- What was over stays over. -/
theorem before_mono {l : Option Time} (h : t₁ ≤ t₂) (hb : before l t₁ = true) :
    before l t₂ = true := by
  cases l with
  | none => cases hb
  | some e =>
    rw [before_some, decide_eq_true_iff] at hb ⊢
    exact lt_of_lt_of_le hb h

/-- An orphan is one at any later time. -/
theorem isOrphan_mono {c : CallRow} (h : t₁ ≤ t₂) (ho : isOrphan t₁ c = true) :
    isOrphan t₂ c = true := by
  unfold isOrphan at ho ⊢
  simp only [Bool.and_eq_true] at ho ⊢
  exact ⟨⟨ho.1.1, before_mono h ho.1.2⟩, ho.2⟩

/-- A failed call is no orphan any more. -/
theorem isOrphan_callAfter (t₁ t₂ : Time) (c : CallRow) :
    isOrphan t₂ (callAfter t₁ c) = (isOrphan t₂ c && !isOrphan t₁ c) := by
  unfold callAfter
  cases h : isOrphan t₁ c <;> simp [isOrphan, orphanedRow]

/-- For a call the later tick alone would have done the same. -/
theorem callAfter_callAfter (h : t₁ ≤ t₂) (c : CallRow) :
    callAfter t₂ (callAfter t₁ c) = callAfter t₂ c := by
  cases ho : isOrphan t₁ c with
  | false =>
    have hsame : callAfter t₁ c = c := by
      rw [callAfter, ho]
      rfl
    rw [hsame]
  | true =>
    -- the second tick does not find it again
    have hnone := isOrphan_callAfter t₁ t₂ c
    rw [ho, Bool.not_true, Bool.and_false] at hnone
    rw [callAfter, hnone, if_neg Bool.false_ne_true, callAfter, callAfter, ho,
      isOrphan_mono h ho]

/-- Sweeping an agent again at a later time. -/
private theorem sweptAgent_sweptAgent (h : t₁ ≤ t₂) (a : AgentRow) :
    (sweptAgent 0 t₂ (sweptAgent 0 t₁ a).unstamped).unstamped = (sweptAgent 0 t₂ a).unstamped := by
  cases hb₁ : before a.lease_expires_at t₁ with
  | true =>
    -- the first sweep has cleared the lease
    have hb₂ := before_mono h hb₁
    cases hs : a.state <;> simp [sweptAgent, isReclaimed, isWrapupOver, reclaimedRow,
      wrapupReleasedRow, AgentRow.unstamped, hs, hb₁, hb₂]
  | false =>
    have hsame : sweptAgent 0 t₁ a = a := by
      simp [sweptAgent, isReclaimed, isWrapupOver, hb₁]
    rw [hsame]
    exact unstamped_sweptAgent _ _ rfl

/-- The agent of an orphan is available, whatever else. -/
private theorem agentAfter_of_orphans (t : Time) (hn : n ≠ 0) (a : AgentRow) :
    agentAfter t n a = (forcedRow 0 .AVAILABLE none none none a).unstamped := by
  unfold agentAfter
  rw [if_neg hn]
  rfl

/-- For an agent the later tick alone would have done the same, had it found all the orphans. -/
theorem agentAfter_agentAfter (h : t₁ ≤ t₂) (a : AgentRow) :
    agentAfter t₂ m (agentAfter t₁ n a) = agentAfter t₂ (n + m) a := by
  by_cases hm : m = 0
  · by_cases hn : n = 0
    · rw [hm, hn]
      exact sweptAgent_sweptAgent h a
    · -- an available agent without a lease is left alone
      rw [hm, Nat.add_zero, agentAfter_of_orphans t₁ hn, agentAfter_of_orphans t₂ hn]
      rfl
  · have hnm : n + m ≠ 0 := by omega
    rw [agentAfter_of_orphans t₂ hm, agentAfter_of_orphans t₂ hnm]
    unfold agentAfter sweptAgent
    simp only
    split <;> split <;> split <;> rfl

/-- A borrower whose attempt has failed is not locked. -/
theorem borrowerAfter_of_orphans (w : Time) (hn : n ≠ 0) (b : BorrowerRow) :
    borrowerAfter w n b = (failedTimes n b).unstamped := by
  have hnot : isLockExpired w (failedTimes n b) = false := by
    unfold isLockExpired failedTimes
    rw [if_neg hn]
    simp only
    split <;> rfl
  unfold borrowerAfter
  simp only
  rw [if_neg (by rw [hnot]; exact Bool.false_ne_true)]

/-- A tick with no orphan of the borrower's only takes an expired lock. -/
private theorem borrowerAfter_zero (w : Time) (b : BorrowerRow) :
    borrowerAfter w 0 b = (if isLockExpired w b then unlockedRow b else b).unstamped := rfl

/-- A lock that is over is over at any later time. -/
private theorem isLockExpired_mono {b : BorrowerRow} (h : w₁ ≤ w₂)
    (hb : isLockExpired w₁ b = true) : isLockExpired w₂ b = true := by
  unfold isLockExpired at hb ⊢
  simp only [Bool.and_eq_true] at hb ⊢
  exact ⟨hb.1, before_mono h hb.2⟩

/-- Failures add up over two ticks. -/
private theorem failedTimes_failedTimes (b : BorrowerRow) :
    (failedTimes m (failedTimes n b).unstamped).unstamped = (failedTimes (n + m) b).unstamped := by
  by_cases hn : n = 0
  · rw [hn, Nat.zero_add]
    unfold failedTimes
    split <;> rfl
  · by_cases hm : m = 0
    · rw [hm]
      rfl
    · have hnm : n + m ≠ 0 := by omega
      unfold failedTimes
      rw [if_neg hm, if_neg hn, if_neg hnm]
      simp [BorrowerRow.unstamped, Nat.add_assoc]

/-- For a borrower the later tick alone would have done the same, had it found all the orphans. -/
theorem borrowerAfter_borrowerAfter (h : w₁ ≤ w₂) (b : BorrowerRow) :
    borrowerAfter w₂ m (borrowerAfter w₁ n b) = borrowerAfter w₂ (n + m) b := by
  by_cases hn : n = 0
  · rw [hn, Nat.zero_add]
    by_cases hm : m = 0
    · rw [hm, borrowerAfter_zero, borrowerAfter_zero, borrowerAfter_zero]
      by_cases hb : isLockExpired w₁ b = true
      · -- the first tick has taken the lock
        rw [if_pos hb, if_pos (isLockExpired_mono h hb)]
        rfl
      · rw [if_neg hb]
        exact unstamped_unlocked w₂ rfl
    · -- a failed attempt takes the lock, whether the first tick has or not
      rw [borrowerAfter_of_orphans w₂ hm, borrowerAfter_of_orphans w₂ hm, borrowerAfter_zero]
      unfold failedTimes
      rw [if_neg hm, if_neg hm]
      split <;> rfl
  · have hnm : n + m ≠ 0 := by omega
    rw [borrowerAfter_of_orphans w₁ hn, borrowerAfter_of_orphans w₂ hnm,
      ← failedTimes_failedTimes]
    by_cases hm : m = 0
    · have hlock := borrowerAfter_of_orphans w₂ hn b
      rw [borrowerAfter] at hlock
      have hsame : (failedTimes n b).unstamped.unstamped = (failedTimes n b).unstamped := rfl
      rw [hm, borrowerAfter_zero, unstamped_unlocked w₂ hsame, hlock]
      rfl
    · rw [borrowerAfter_of_orphans w₂ hm]

end

namespace Unstamped

/-- The orphans of a tick are orphans of a later one, unless it comes after the tick. -/
theorem orphans_tick {t₁ t₂ : Time} (h : t₁ ≤ t₂) (w : Time) (o : Unstamped) {p : CallRow → Bool}
    (hp : ∀ c, p (orphanedRow 0 c) = p c) :
    o.orphans t₁ p + (o.tick w t₁).orphans t₂ p = o.orphans t₂ p := by
  have hcount : (o.tick w t₁).orphans t₂ p = o.calls.count fun _ c =>
      isOrphan t₂ c && !isOrphan t₁ c && p c := by
    unfold orphans tick
    rw [Table.count_map]
    apply Table.count_congr
    intro k c _
    rw [isOrphan_callAfter]
    congr 1
    unfold callAfter
    split
    · exact hp c
    · rfl
  rw [hcount]
  symm
  -- an orphan of the later tick was one before, or only its lease has run out since
  apply Table.count_add
  · intro k c _
    have hmono := isOrphan_mono (c := c) h
    cases h₁ : isOrphan t₁ c <;> cases h₂ : isOrphan t₂ c <;> simp_all
  · intro k c _
    cases isOrphan t₁ c <;> simp

/-- **Absorption.** A tick makes all earlier ones redundant. -/
theorem tick_tick {t₁ t₂ w₁ w₂ : Time} (ht : t₁ ≤ t₂) (hw : w₁ ≤ w₂) (o : Unstamped) :
    (o.tick w₁ t₁).tick w₂ t₂ = o.tick w₂ t₂ := by
  have hagents : ((o.tick w₁ t₁).tick w₂ t₂).agents = (o.tick w₂ t₂).agents := by
    simp only [tick_agents]
    rw [Table.map_map]
    apply Table.map_congr
    intro i a _
    -- the orphans of the two ticks together are those that the later one alone would find
    rw [agentAfter_agentAfter ht, orphans_tick ht]
    exact fun _ => rfl
  have hcalls : ((o.tick w₁ t₁).tick w₂ t₂).calls = (o.tick w₂ t₂).calls := by
    simp only [tick_calls]
    rw [Table.map_map]
    apply Table.map_congr
    intro k c _
    exact callAfter_callAfter ht c
  have hborrowers : ((o.tick w₁ t₁).tick w₂ t₂).borrowers = (o.tick w₂ t₂).borrowers := by
    simp only [tick_borrowers]
    rw [Table.map_map]
    apply Table.map_congr
    intro k b _
    rw [borrowerAfter_borrowerAfter hw, orphans_tick ht]
    exact fun _ => rfl
  show Unstamped.mk _ _ _ = Unstamped.mk _ _ _
  congr 1

end Unstamped

/-! ### Ticks one after the other -/

/-- A tick of a worker's reaper. -/
structure Tick where
  /-- `now()` of Postgres. -/
  now : Time
  /-- `clock.now()` of the worker. -/
  now_ts : Time
  registry : Option (List String)
  deriving DecidableEq

/-- The database after a tick. -/
def Tick.step (db : Db) (t : Tick) : Db := (reap t.now t.now_ts t.registry).commit db

/-- A tick of the reaper, without the stamps, is a tick on what is left. -/
theorem Tick.step_unstamped (db : Db) (t : Tick) :
    (t.step db).unstamped = db.unstamped.tick t.now t.now_ts :=
  reap_unstamped t.now t.now_ts t.registry db

/-- **Ticks are harmless.** After a tick, all that earlier ticks have done makes no difference to
    the agents, calls and borrowers, whoever ran them and however often; and so none of them is
    missed if it is skipped. -/
theorem reap_absorbs (db : Db) (ticks : List Tick) (last : Tick)
    (h : ∀ t ∈ ticks, t.now ≤ last.now ∧ t.now_ts ≤ last.now_ts) :
    (run Tick.step db (ticks ++ [last])).unstamped = (last.step db).unstamped := by
  induction ticks generalizing db with
  | nil => rfl
  | cons t ticks ih =>
    obtain ⟨hnow, hnow_ts⟩ := h t List.mem_cons_self
    -- after the first tick the others make no difference, and then it makes none either
    have hrest := ih (t.step db) fun t' ht' => h t' (List.mem_cons_of_mem _ ht')
    show (run Tick.step (t.step db) (ticks ++ [last])).unstamped = _
    rw [hrest]
    simp only [Tick.step_unstamped]
    exact Unstamped.tick_tick hnow_ts hnow db.unstamped

/-- An agent, a borrower and a call, reserved together. -/
def reservedRun : List Act :=
  [.createAgent 0 7 "ext-1", .login 0 1, .seed 0 7 "+15550001" 100 3,
    .reserveAndCreate 0 0 [] [] (some "mock") "w1" 7]

/-- Two workers tick right after the leases, and one of them again. -/
theorem reap_absorbs_reserved :
    let db := (run (step .default) Sys.init reservedRun).db
    let first : Tick := ⟨secs 31, secs 31, some ["mock"]⟩
    let last : Tick := ⟨secs 40, secs 32, none⟩
    (run Tick.step db [first, first, last]).unstamped = (last.step db).unstamped :=
  reap_absorbs _ [_, _] _ (by decide)

end SmartDialer
