import SmartDialer.Correctness.VirtualTime

namespace SmartDialer

open Relational

/-!
# Every sleep returns

While someone drives the clock and no task is in `critical()`, every callback brings the loop nearer
to the point where all sleeps have returned and only the driver is left, in the queue or waiting for
its timer.  An entry of the heap is worth two callbacks, its jump and its wake-up, a ready task one;
and there may be a turn of the driver before each of them.  A task that sleeps again adds an entry,
which pays for itself.

* `work_run_lt`: what one callback does to this count.
* `work_run`: all sleeps return, if no new ones come for long enough.
* `virtual_time_exact`: the whole of what the clock promises.
-/

namespace EventLoop

/-! ### What is left to do -/

section

variable {T D : Type} {l : EventLoop T D}

/-- The callbacks that are to be run, at least, until all sleeps have returned. -/
def outstanding (l : EventLoop T D) : ℕ :=
  2 * l.clock.waiters.length + l.ready.countP fun c => !c.isDriver

/-- Every second callback may be the driver's. -/
def work (l : EventLoop T D) : ℕ :=
  if l.outstanding = 0 then 0
  else 2 * l.outstanding + if l.ready.head?.any (·.isDriver) then 1 else 0

/-- When the count is used up, nothing is outstanding. -/
theorem outstanding_of_work (hw : l.work = 0) : l.outstanding = 0 := by
  unfold work at hw
  split at hw
  · assumption
  · omega

/-- Nothing outstanding is nothing to do. -/
theorem work_of_outstanding (h : l.outstanding = 0) : l.work = 0 := if_pos h

/-- At most every second callback is the driver's. -/
theorem work_le : l.work ≤ 2 * l.outstanding + 1 := by
  unfold work
  split
  · omega
  · split <;> omega

/-- When it is a task's turn. -/
theorem work_of_not_driver {c : Callback T D} {ready : List (Callback T D)}
    (hr : l.ready = c :: ready) (hc : c.isDriver = false) : l.work = 2 * l.outstanding := by
  unfold work
  rw [hr]
  split
  · omega
  · simp [hc]

/-- When it is the driver's turn. -/
theorem work_of_driver {phase : Advance} {ready : List (Callback T D)}
    (hr : l.ready = .driver phase :: ready) (hw : l.work ≠ 0) :
    l.outstanding ≠ 0 ∧ l.work = 2 * l.outstanding + 1 := by
  unfold work at hw ⊢
  rw [hr] at hw ⊢
  split
  · rename_i hzero
    rw [if_pos hzero] at hw
    exact absurd rfl hw
  · rename_i hne
    exact ⟨hne, by simp⟩

/-- The driver going to the end of the queue is no progress for the tasks. -/
@[simp] theorem outstanding_defer (phase : Advance) :
    (l.defer phase).outstanding = l.outstanding := by
  simp [outstanding, defer]

/-- The driver going to sleep is no progress for the tasks. -/
@[simp] theorem outstanding_nap (phase : Advance) : (l.nap phase).outstanding = l.outstanding := rfl

/-- The driver has nothing to do but to go behind the tasks, or to sleep. -/
theorem work_wait (hquiet : ∀ b ∈ l.ready, b.Quiet) (hw : l.clock.waiters = [])
    (hout : l.outstanding ≠ 0) (phase : Advance) :
    (l.defer phase).work = 2 * l.outstanding ∧ (l.nap phase).work = 2 * l.outstanding := by
  cases hready : l.ready with
  | nil => simp [outstanding, hw, hready] at hout
  | cons c rest =>
    have hc : c.isDriver = false := (hquiet c (hready ▸ List.mem_cons_self)).1
    have hfirst : (l.defer phase).ready = c :: (rest ++ [.driver phase]) := by
      simp [defer, hready]
    constructor
    · rw [work_of_not_driver hfirst hc, outstanding_defer]
    · rw [work_of_not_driver (l := l.nap phase) hready hc, outstanding_nap]

/-- Nothing is left but the driver. -/
theorem idle_of_work (hw : l.work = 0) :
    l.clock.waiters = [] ∧ ∀ b ∈ l.ready, b.isDriver = true := by
  have hout : l.outstanding = 0 := outstanding_of_work hw
  unfold outstanding at hout
  have hdrivers : (l.ready.countP fun c => !c.isDriver) = 0 := by omega
  rw [List.countP_eq_zero] at hdrivers
  exact ⟨List.eq_nil_of_length_eq_zero (by omega), fun b hb => by simpa using hdrivers b hb⟩

end

variable {T D : Type} [LinearOrder T] {L : Timeline T D} {l : EventLoop T D}

/-- Someone drives the clock, and nothing keeps the driver from advancing. -/
structure Driven (L : Timeline T D) (l : EventLoop T D) : Prop where
  onTime : l.OnTime L
  driver : l.isDriven
  free : l.clock.critical_depth = 0

/-! ### One callback -/

/-- A task that goes on puts nothing into the queue. -/
@[simp] theorem ready_goOn (task : String) (next : Option D) :
    (l.goOn L task next).ready = l.ready := by
  cases next <;> rfl

/-- A task that goes on leaves the driver's timer alone. -/
@[simp] theorem timer_goOn (task : String) (next : Option D) :
    (l.goOn L task next).timer = l.timer := by
  cases next <;> rfl

/-- A task that only sleeps enters no `critical()`. -/
@[simp] theorem critical_goOn (task : String) (next : Option D) :
    (l.goOn L task next).clock.critical_depth = l.clock.critical_depth := by
  cases next <;> rfl

/-- What the driver leaves as it is, and that it stays there. -/
theorem advance_frame (l : EventLoop T D) (phase : Advance) :
    (l.advance_to_next phase).begun = l.begun ∧
      (l.advance_to_next phase).clock.critical_depth = l.clock.critical_depth ∧
      (l.advance_to_next phase).isDriven := by
  obtain ⟨_, p, heq | heq⟩ | ⟨w, rest, _, heq⟩ := advance_cases l phase <;> rw [heq]
  · exact ⟨rfl, rfl, by simp [isDriven, defer]⟩
  · exact ⟨rfl, rfl, by simp [isDriven, nap]⟩
  · exact ⟨rfl, rfl, by simp [isDriven, release]⟩

/-- **Step.** -/
theorem Driven.run (h : Driven L l) (next : Option D) : Driven L (l.step L (.run next)) := by
  have hdriver := h.driver
  -- after its turn the driver is in the queue or at its timer
  refine ⟨h.onTime.step _, ?_, ?_⟩
  · simp only [EventLoop.step]
    split
    · split
      · exact (advance_frame _ _).2.2
      · exact hdriver
    · rename_i task ready hr
      simpa [isDriven, hr] using hdriver
    · rename_i s ready hr
      simpa [isDriven, hr] using hdriver
    · exact (advance_frame _ _).2.2
  · simp only [EventLoop.step]
    split
    · split
      · exact (advance_frame _ _).2.1.trans h.free
      · exact h.free
    · simp [h.free]
    · simp [h.free]
    · exact (advance_frame _ _).2.1.trans h.free

/-- A task has its turn. -/
theorem work_turn {c : Callback T D} {ready : List (Callback T D)} (hr : l.ready = c :: ready)
    (hc : c.isDriver = false) (resumed : List (Sleep T D × T)) (task : String) (next : Option D) :
    let l' := goOn L ⟨l.clock, ready, l.timer, l.begun, resumed⟩ task next
    l'.work + 1 + 4 * l.begun.length ≤ l.work + 4 * l'.begun.length := by
  intro l'
  -- the turn may put the driver at the head of the queue, which costs one
  have hle : l'.work ≤ 2 * l'.outstanding + 1 := work_le
  have hsame : l.outstanding =
      2 * l.clock.waiters.length + (ready.countP fun c => !c.isDriver) + 1 := by
    simp [outstanding, hr, hc]
    omega
  -- a sleep that is registered counts for two, and is paid for by the begun ones
  have hout : l'.outstanding + 1 + 2 * l.begun.length = l.outstanding + 2 * l'.begun.length := by
    rw [hsame]
    cases next with
    | none => rfl
    | some seconds =>
      simp only [l', outstanding, EventLoop.goOn, VirtualClock.sleep, length_push,
        List.length_append, List.length_singleton]
      omega
  rw [work_of_not_driver hr hc]
  omega

/-- Who is due has one callback to go instead of two. -/
theorem outstanding_release {w : Sleep T D} {rest : List (Sleep T D)}
    (hw : l.clock.waiters = w :: rest) : (l.release w.deadline).outstanding < l.outstanding := by
  have hsplit : (l.clock.jump w.deadline).1.length +
      (l.clock.jump w.deadline).2.waiters.length = l.clock.waiters.length := by
    rw [← List.length_append, jump_split]
  have hfirst : 0 < (l.clock.jump w.deadline).1.length := by
    simp [VirtualClock.jump, hw]
  have hnew : (l.release w.deadline).outstanding =
      2 * (l.clock.jump w.deadline).2.waiters.length +
        ((l.ready.countP fun c => !c.isDriver) + (l.clock.jump w.deadline).1.length) := by
    simp [outstanding, release, Function.comp_def]
  rw [hnew]
  unfold outstanding
  omega

/-- The driver has its turn, while something is outstanding. -/
theorem work_advance (hturn : l.AtTurn) (hfree : l.clock.critical_depth = 0)
    (hout : l.outstanding ≠ 0) (phase : Advance) :
    (l.advance_to_next phase).work ≤ 2 * l.outstanding ∧
      (l.ready = [] → (l.advance_to_next phase).work < 2 * l.outstanding) := by
  obtain ⟨hidle, p, heq⟩ | ⟨w, rest, hwaiters, heq⟩ := advance_cases l phase
  · have hnil : l.clock.waiters = [] := hidle.resolve_left (by simp [hfree])
    have hwait := work_wait hturn.quiet hnil hout p
    refine ⟨?_, fun hempty => ?_⟩
    · obtain heq | heq := heq
      · exact heq ▸ hwait.1.le
      · exact heq ▸ hwait.2.le
    · -- nothing would be outstanding
      rw [outstanding, hnil, hempty] at hout
      exact absurd rfl hout
  · have hless := outstanding_release hwaiters
    have hle := work_le (l := l.release w.deadline)
    rw [heq]
    exact ⟨by omega, fun _ => by omega⟩

/-- Every callback that is run is one less, as long as something is to be done. -/
theorem work_run_lt (h : Driven L l) (next : Option D) (hw : l.work ≠ 0) :
    (l.step L (.run next)).work + 1 + 4 * l.begun.length ≤
      l.work + 4 * (l.step L (.run next)).begun.length := by
  simp only [EventLoop.step]
  split
  · rename_i hr
    split
    · rename_i phase ht
      -- the queue is empty: the timer brings the driver back, and waiters are left
      have hout : l.outstanding ≠ 0 := fun hzero => hw (work_of_outstanding hzero)
      have hwork : l.work = 2 * l.outstanding := by
        rw [work, if_neg hout, hr]
        rfl
      have hless := (work_advance (l := { l with timer := none }) (atTurn_of_nil hr) h.free hout
        phase).2 hr
      rw [(advance_frame _ _).1]
      show _ + 4 * l.begun.length ≤ _ + 4 * l.begun.length
      rw [hwork]
      exact Nat.add_le_add_right hless _
    · rename_i ht
      have hdriver := h.driver
      simp [isDriven, hr, ht] at hdriver
  · rename_i task ready hr
    exact work_turn hr rfl l.resumed task next
  · rename_i s ready hr
    exact work_turn hr rfl (l.resumed ++ [(s, l.clock.now)]) s.task next
  · rename_i phase ready hr
    -- the driver is at the head, which costs the extra one
    obtain ⟨hout, hwork⟩ := work_of_driver hr hw
    have hsame : l.outstanding = ({ l with ready } : EventLoop T D).outstanding := by
      simp [outstanding, hr]
    rw [hsame] at hout hwork
    have hle := (work_advance (h.onTime.atTurn hr) h.free hout phase).1
    rw [(advance_frame _ _).1]
    show _ + 4 * l.begun.length ≤ _ + 4 * l.begun.length
    omega

/-! ### Rest -/

/-- The driver alone makes no work. -/
theorem work_advance_zero (hwaiters : l.clock.waiters = []) (hout : l.outstanding = 0)
    (phase : Advance) : (l.advance_to_next phase).work = 0 := by
  obtain ⟨_, p, heq | heq⟩ | ⟨w, rest, hw, _⟩ := advance_cases l phase
  · rw [heq]
    exact work_of_outstanding ((outstanding_defer p).trans hout)
  · rw [heq]
    exact work_of_outstanding hout
  · rw [hwaiters] at hw
    cases hw

/-- When nothing is left to do, that remains so. -/
theorem work_run_zero (next : Option D) (hw : l.work = 0) : (l.step L (.run next)).work = 0 := by
  obtain ⟨hwaiters, hdrivers⟩ := idle_of_work hw
  have hout : l.outstanding = 0 := outstanding_of_work hw
  simp only [EventLoop.step]
  split
  · split
    · exact work_advance_zero (l := { l with timer := none }) hwaiters hout _
    · exact hw
  · rename_i task ready hr
    -- with nothing outstanding there is no task in the queue
    exact absurd (hdrivers (.start task) (hr ▸ List.mem_cons_self)) Bool.false_ne_true
  · rename_i s ready hr
    exact absurd (hdrivers (.wake s) (hr ▸ List.mem_cons_self)) Bool.false_ne_true
  · rename_i phase ready hr
    refine work_advance_zero (l := { l with ready }) hwaiters ?_ phase
    unfold outstanding at hout ⊢
    rw [hr] at hout
    simpa using hout

/-- While someone drives the clock, all sleeps return, if no new ones come for long enough. -/
theorem work_run (h : Driven L l) (nexts : List (Option D))
    (hlen : l.work + 4 * (run (step L) l (nexts.map .run)).begun.length ≤
      nexts.length + 4 * l.begun.length) :
    ∀ s ∈ (run (step L) l (nexts.map .run)).begun,
      (run (step L) l (nexts.map .run)).resumptions s = [s.deadline] := by
  have hmap : ∀ nexts : List (Option D), run (step L) l (nexts.map .run) =
      run (fun l next => l.step L (.run next)) l nexts := fun _ => List.foldl_map
  rw [hmap] at hlen ⊢
  -- each callback pays for itself, so after that many of them nothing is outstanding
  have hdriven : Driven L (run (fun l next => l.step L (.run next)) l nexts) :=
    invariant_run (I := fun l : EventLoop T D => Driven L l) (fun _ next h => h.run next) h nexts
  have hspent : (run (fun l next => l.step L (.run next)) l nexts).work = 0 :=
    spent_run (I := fun l : EventLoop T D => Driven L l) (β := fun l => l.begun.length)
      (fun _ next h => h.run next) (fun _ next h hw => work_run_lt h next hw)
      (fun _ next _ hw => work_run_zero next hw) h nexts hlen
  obtain ⟨hwaiters, hdrivers⟩ := idle_of_work hspent
  have hwoken : (run (fun l next => l.step L (.run next)) l nexts).woken = [] := by
    refine List.filterMap_eq_nil_iff.mpr fun b hb => ?_
    cases b with
    | start | driver => rfl
    | wake s => exact absurd (hdrivers _ hb) Bool.false_ne_true
  intro s hs
  obtain ⟨_, htimes⟩ | ⟨hmem, _⟩ := resumptions_eq hdriven.onTime hs
  · exact htimes
  · rw [hwoken, hwaiters] at hmem
    cases hmem

/-- Someone starts to drive the clock. -/
theorem OnTime.drive (h : l.OnTime L) (hfree : l.clock.critical_depth = 0) :
    Driven L (l.step L .drive) := by
  refine ⟨h.step _, ?_, ?_⟩
  · simp only [EventLoop.step]
    split
    · assumption
    · simp [isDriven, defer]
  · simp only [EventLoop.step]
    split <;> exact hfree

/-- **Virtual time.** After any callbacks of any tasks:
    * `now()` does not go back, whatever comes;
    * a sleep of `seconds` begun at `began` has returned once, when `now()` was the sum of both; or
      it has not returned, and `now()` is not beyond the sum;
    * the sleeps have returned in the order of their deadlines, and of their calls where these are
      equal, and no one else has been woken up;
    * if someone goes on driving the clock, and no task is in `critical()`, then, when enough
      callbacks have been run, and four more for each sleep begun in the meantime, every sleep has
      returned, once, when `now()` was the sum. -/
theorem virtual_time_exact (L : Timeline T D) (start : T) (acts : List (Act D)) :
    let l := run (step L) (init start) acts
    (∀ more, l.clock.now ≤ (run (step L) l more).clock.now) ∧
      (∀ s ∈ l.begun, l.resumptions s = [L.after s.began s.seconds] ∨
        l.resumptions s = [] ∧ l.clock.now ≤ L.after s.began s.seconds) ∧
      (l.resumed.map Prod.fst).Pairwise (fun a b => a.deadline < b.deadline ∨
        a.deadline = b.deadline ∧ a.seq < b.seq) ∧
      (∀ r ∈ l.resumed, r.1 ∈ l.begun) ∧
      (l.clock.critical_depth = 0 → ∃ n, ∀ nexts : List (Option D),
        let l' := run (step L) l (.drive :: nexts.map .run)
        n + 4 * (l'.begun.length - l.begun.length) ≤ nexts.length →
          ∀ s ∈ l'.begun, l'.resumptions s = [L.after s.began s.seconds]) := by
  intro l
  have h : l.OnTime L := onTime_run start acts
  refine ⟨now_le_run h, fun s hs => ?_, ?_, fun r hr => ?_, fun hfree =>
    ⟨(l.step L .drive).work, ?_⟩⟩
  · rw [← h.exact s hs]
    obtain ⟨_, htimes⟩ | ⟨_, hnone⟩ := resumptions_eq h hs
    · exact .inl htimes
    · exact .inr hnone
  · -- the returned sleeps are a prefix of the agenda, which ascends
    have horder : (l.resumed.map Prod.fst).Pairwise fun a b => a.key < b.key :=
      (List.pairwise_append.mp (List.pairwise_append.mp h.order).1).1
    exact horder.imp fun hlt => Prod.Lex.toLex_lt_toLex.mp hlt
  · refine h.all.mem_iff.mp (List.mem_append_left _ (List.mem_append_left _ ?_))
    exact List.mem_map_of_mem hr
  · intro nexts l' hlen s hs
    have h' : l'.OnTime L := invariant_run (I := fun l : EventLoop T D => l.OnTime L)
      (fun _ a h => h.step a) h _
    have hbegun : (l.step L .drive).begun = l.begun := by
      simp only [EventLoop.step]
      split <;> rfl
    rw [← h'.exact s hs]
    -- driving the loop begins no sleep, so the count starts from the same list
    refine work_run (h.drive hfree) nexts ?_ s hs
    rw [hbegun]
    show _ + 4 * l'.begun.length ≤ _
    omega

/-- Three tasks sleep, for 30, 5 and 15; the second one goes on without a delay, and once more until
    15. -/
def threeWaiters : List (Act ℕ) :=
  [.spawn "c", .spawn "a", .spawn "b", .drive, .run (some 30), .run (some 5), .run (some 15),
    .run none, .run (some 0), .run none, .run (some 10), .run none, .run none, .run none,
    .run none, .run none]

example : ((run (step Timeline.nat) (init 0) threeWaiters).resumed.map fun r => (r.1.task, r.2)) =
    [("a", 5), ("a", 5), ("b", 15), ("a", 15), ("c", 30)] := by decide +kernel

end EventLoop

end SmartDialer
