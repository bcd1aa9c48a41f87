import SmartDialer.System

namespace SmartDialer

open Relational

/-!
# `allocate_batch`

The allocations of one tick.  Each is a task of its own (`_allocate_one`), and between two actions
of a task anything may happen: actions of the other tasks, and any action of the system.  A
transaction that deadlocks has no effect and is tried again, at most `MAX_DEADLOCK_RETRIES` times in
all; the transaction after a refusal is not, so a deadlock there ends the task like any other
exception (`crash`).

* `Allocation` — how far a task is.
* `Batch.invoked` — the invocations of `provider.place_call` by the tasks of the batch.
* `invoked_le` — there is at most one for each task.
-/

/-- How often a transaction of an allocation is tried. -/
def MAX_DEADLOCK_RETRIES : ℕ := 3

/-- How far `_allocate_one` is. -/
inductive Allocation where
  | created
  /-- In front of a try of the first transaction; the lease counts from `clock_now`. -/
  | reserving (clock_now : Time) (attempt : ℕ)
  /-- The provider is about to be called. -/
  | reserved (r : Reservation)
  /-- The provider has not answered yet. -/
  | waiting (r : Reservation)
  /-- In front of a try of the second transaction; the lease counts from `clock_now`. -/
  | recording (r : Reservation) (pcid : String) (clock_now : Time) (attempt : ℕ)
  | done (ok : Bool)
  | raised
  deriving DecidableEq, Repr

/-- Has the task not called its provider yet? -/
def Allocation.mayInvoke : Allocation → Bool
  | .created | .reserving .. | .reserved .. => true
  | .waiting .. | .recording .. | .done .. | .raised => false

/-- The system with the allocations of one tick that run concurrently on it. -/
structure Batch where
  sys : Sys
  tasks : List Allocation
  /-- The invocations of `provider.place_call` by the tasks, oldest first. -/
  invoked : List CallRequest

namespace Batch

/-- What the tasks do, by their number, and what happens between. -/
inductive Act where
  | start (i : ℕ) (clock_now : Time)
  /-- The first transaction goes through. -/
  | reserve (i : ℕ) (now : Time) (lockedAgents lockedBorrowers : List ℕ) (pick : Option String)
  /-- A try of a transaction deadlocks. -/
  | deadlock (i : ℕ)
  | invoke (i : ℕ)
  | accept (i : ℕ) (clock_now : Time) (pcid : String)
  | reject (i : ℕ) (now : Time)
  /-- The second transaction goes through. -/
  | record (i : ℕ) (now : Time)
  /-- The task ends with an exception. -/
  | crash (i : ℕ)
  | world (a : SmartDialer.Act)

/-- `asyncio.gather` over `n` tasks. -/
def begin (sys : Sys) (n : ℕ) : Batch := ⟨sys, List.replicate n .created, []⟩

/-- Task `i` moves on, and the system with it. -/
def move (b : Batch) (i : ℕ) (task : Allocation) (sys : Sys) : Batch :=
  { b with sys := sys, tasks := b.tasks.set i task }

/-- The state of a task is no part of the system. -/
@[simp] theorem move_sys (b : Batch) (i : ℕ) (task : Allocation) (sys : Sys) :
    (b.move i task sys).sys = sys := rfl

variable (cfg : Settings) (worker : String) (campaign_id : ℕ)

/-- The task after a try that deadlocked. -/
def retry (b : Batch) (i : ℕ) : Batch :=
  match b.tasks[i]? with
  | some (.reserving clock_now attempt) =>
    if attempt + 1 < MAX_DEADLOCK_RETRIES then
      b.move i (.reserving clock_now (attempt + 1)) b.sys
    else b.move i (.done false) b.sys
  | some (.recording r pcid clock_now attempt) =>
    if attempt + 1 < MAX_DEADLOCK_RETRIES then
      b.move i (.recording r pcid clock_now (attempt + 1)) b.sys
    else b.move i (.done false) (SmartDialer.step cfg b.sys (.abandon r.call_id))
  | _ => b

/-- One step of a batch, or of the system around it. -/
def step (b : Batch) : Act → Batch
  | .start i clock_now =>
    match b.tasks[i]? with
    | some .created => b.move i (.reserving clock_now 0) b.sys
    | _ => b
  | .reserve i now lockedAgents lockedBorrowers pick =>
    match b.tasks[i]? with
    | some (.reserving clock_now _) =>
      let x := reserveAndCreate now lockedAgents lockedBorrowers pick worker campaign_id
        (reserveUntil clock_now cfg)
      let task := match x.result b.sys.db with
        | some (some r) => .reserved r
        | some none => .done false
        | none => .raised
      b.move i task (SmartDialer.step cfg b.sys
        (.reserveAndCreate now clock_now lockedAgents lockedBorrowers pick worker campaign_id))
    | _ => b
  | .deadlock i => b.retry cfg i
  | .invoke i =>
    match b.tasks[i]? with
    | some (.reserved r) =>
      { b.move i (.waiting r) (SmartDialer.step cfg b.sys (.placeCall r.call_id)) with
        invoked := b.invoked ++ [callRequest cfg r] }
    | _ => b
  | .accept i clock_now pcid =>
    match b.tasks[i]? with
    | some (.waiting r) => b.move i (.recording r pcid clock_now 0) b.sys
    | _ => b
  | .reject i now =>
    match b.tasks[i]? with
    | some (.waiting r) =>
      b.move i (.done false) (SmartDialer.step cfg b.sys (.rejected now r.call_id))
    | _ => b
  | .record i now =>
    match b.tasks[i]? with
    | some (.recording r pcid clock_now _) =>
      let x := recordInitiated now r pcid worker (dialUntil clock_now cfg)
      let task := if (x.result b.sys.db).isSome then .done true else .raised
      b.move i task (SmartDialer.step cfg b.sys (.accepted now clock_now r.call_id pcid))
    | _ => b
  | .crash i =>
    match b.tasks[i]? with
    | some .created | some (.reserving ..) => b.move i .raised b.sys
    | some (.reserved r) | some (.waiting r) | some (.recording r ..) =>
      b.move i .raised (SmartDialer.step cfg b.sys (.abandon r.call_id))
    | _ => b
  | .world a => { b with sys := SmartDialer.step cfg b.sys a }

/-- What `allocate_batch` returns once all tasks are done. -/
def placed (b : Batch) : ℕ := b.tasks.count (.done true)

/-! ### One step -/

/-- What a step does to the tasks: nothing, or it moves one of them, which calls its provider in
    that step or does not get a second chance to. -/
inductive Moved (b b' : Batch) : Prop
  | same (htasks : b'.tasks = b.tasks) (hinvoked : b'.invoked = b.invoked)
  | quiet (i : ℕ) (old new : Allocation) (hold : b.tasks[i]? = some old)
      (htasks : b'.tasks = b.tasks.set i new) (hnew : new.mayInvoke → old.mayInvoke)
      (hinvoked : b'.invoked = b.invoked)
  | invoked (i : ℕ) (old new : Allocation) (req : CallRequest) (hold : b.tasks[i]? = some old)
      (htasks : b'.tasks = b.tasks.set i new) (hmay : old.mayInvoke) (hmust : ¬ new.mayInvoke)
      (hinvoked : b'.invoked = b.invoked ++ [req])

/-- A task that moves without invoking the provider is a move of the batch, whatever happened to the
    system. -/
theorem Moved.move {b : Batch} {i : ℕ} {old : Allocation} (hold : b.tasks[i]? = some old)
    (new : Allocation) (hnew : new.mayInvoke → old.mayInvoke) (sys : Sys) :
    Moved b (b.move i new sys) := .quiet i old new hold rfl hnew rfl

/-- A deadlock sends the task back to where it was or ends it; it invokes nothing. -/
theorem retry_moved (b : Batch) (i : ℕ) : Moved b (b.retry cfg i) := by
  unfold retry
  split
  · rename_i hold
    split
    · exact .move hold _ (fun _ => rfl) _
    · exact .move hold _ (fun _ => rfl) _
  · rename_i hold
    split
    · exact .move hold _ (by simp [Allocation.mayInvoke]) _
    · exact .move hold _ (by simp [Allocation.mayInvoke]) _
  · exact .same rfl rfl

/-- Every action of a batch is a move: at most one task goes on, and the provider is invoked only by
    one that has not invoked it before. -/
theorem step_moved (b : Batch) (a : Act) : Moved b (b.step cfg worker campaign_id a) := by
  cases a with
  | world a => exact .same rfl rfl
  | deadlock i => exact retry_moved cfg b i
  | invoke i =>
    simp only [step]
    split
    · rename_i hold
      exact .invoked i _ _ _ hold rfl rfl (by simp [Allocation.mayInvoke]) rfl
    · exact .same rfl rfl
  | start i clock_now =>
    simp only [step]
    split
    · rename_i hold; exact .move hold _ (fun _ => rfl) _
    · exact .same rfl rfl
  | reserve i now lockedAgents lockedBorrowers pick =>
    simp only [step]
    split
    · rename_i hold; exact .move hold _ (fun _ => rfl) _
    · exact .same rfl rfl
  | accept i clock_now pcid =>
    simp only [step]
    split
    · rename_i hold; exact .move hold _ (by simp [Allocation.mayInvoke]) _
    · exact .same rfl rfl
  | reject i now =>
    simp only [step]
    split
    · rename_i hold; exact .move hold _ (by simp [Allocation.mayInvoke]) _
    · exact .same rfl rfl
  | record i now =>
    simp only [step]
    split
    · -- whether the transaction raises or not
      rename_i hold
      apply Moved.move hold
      split <;> simp [Allocation.mayInvoke]
    · exact .same rfl rfl
  | crash i =>
    simp only [step]
    split <;> rename_i hold
    all_goals first
      | exact .move hold _ (by simp [Allocation.mayInvoke]) _
      | exact .same rfl rfl

/-! ### The whole batch -/

/-- The invocations, and the tasks that may still make one, are no more than the tasks. -/
def Bounded (n : ℕ) (b : Batch) : Prop := b.invoked.length + b.tasks.countP (·.mayInvoke) ≤ n

/-- A move keeps the bound, because a task that invokes the provider gives up its right to do so. -/
theorem Bounded.moved {n : ℕ} {b b' : Batch} (h : b.Bounded n) (hmoved : Moved b b') :
    b'.Bounded n := by
  unfold Bounded at h ⊢
  cases hmoved with
  | same htasks hinvoked => rwa [htasks, hinvoked]
  | quiet i old new hold htasks hnew hinvoked =>
    -- the task keeps its chance or loses it
    obtain ⟨hi, rfl⟩ := List.getElem?_eq_some_iff.mp hold
    have hpos : (b.tasks[i].mayInvoke : Bool) → 0 < b.tasks.countP (·.mayInvoke) := fun hmay =>
      List.countP_pos_iff.mpr ⟨_, List.getElem_mem hi, hmay⟩
    rw [htasks, hinvoked, List.countP_set hi]
    by_cases hmay : b.tasks[i].mayInvoke
    · have := hpos hmay
      rw [if_pos hmay]
      split <;> omega
    · rw [if_neg hmay, if_neg fun hn => hmay (hnew hn)]
      omega
  | invoked i old new req hold htasks hmay hmust hinvoked =>
    -- the task goes over from the one count to the other
    obtain ⟨hi, rfl⟩ := List.getElem?_eq_some_iff.mp hold
    have hpos : 0 < b.tasks.countP (·.mayInvoke) :=
      List.countP_pos_iff.mpr ⟨_, List.getElem_mem hi, hmay⟩
    rw [htasks, hinvoked, List.countP_set hi, if_pos hmay, if_neg hmust, List.length_append,
      List.length_singleton]
    omega

/-- The tasks of a batch call their providers at most once each, whatever happens between. -/
theorem invoked_le (sys : Sys) (n : ℕ) (acts : List Act) :
    (run (step cfg worker campaign_id) (begin sys n) acts).invoked.length ≤ n := by
  have hbegin : (begin sys n).Bounded n := by
    unfold Bounded begin
    rw [List.length_nil, Nat.zero_add]
    exact List.countP_le_length.trans List.length_replicate.le
  have hstep : ∀ b a, Bounded n b → Bounded n (step cfg worker campaign_id b a) :=
    fun b a hb => Bounded.moved hb (step_moved cfg worker campaign_id b a)
  have hbound := invariant_run hstep hbegin acts
  unfold Bounded at hbound
  omega

end Batch

end SmartDialer
