import SmartDialer.Clock
import Mathlib.Data.List.TakeWhile

namespace SmartDialer

open Relational

/-!
# Virtual time

Every sleep is in one of three places: it has returned, its wake-up is in the ready queue, or it is
in the heap.  `EventLoop.agenda` lists them in that order, which is the order of (deadline,
registration), and an advance only moves the border between the last two.  It can do so because the
driver is behind all wake-ups in the queue: when it is its turn, they have been run.

* `OnTime.step`: what the clock keeps.
* `now_le_step`, `now_le_run`: time does not go back.
* `now_critical`: while a task is in `critical()`, time stands still, unless the driver has begun to
  poll before it came.
* `resumptions_eq`: a sleep has returned at its deadline and at no other time, or not yet, and then
  its deadline is not over.
-/

/-- Where keys are not repeated, there is one element with the key of `a`. -/
private theorem filter_key_of_nodup {α : Type} (f : α → ℕ) {l : List α} (hl : (l.map f).Nodup)
    {a : α} (ha : a ∈ l) : (l.filter fun b => f b == f a) = [a] := by
  induction l with
  | nil => simp at ha
  | cons b l ih =>
    rw [List.map_cons, List.nodup_cons] at hl
    obtain rfl | ha := List.mem_cons.mp ha
    · -- the keys of the rest differ from the first one
      have hrest : (l.filter fun b => f b == f a) = [] := by
        rw [List.filter_eq_nil_iff]
        intro c hc heq
        exact hl.1 (List.mem_map.mpr ⟨c, hc, by simpa using heq⟩)
      rw [List.filter_cons_of_pos (by simp), hrest]
    · have hne : f b ≠ f a := fun heq => hl.1 (heq ▸ List.mem_map_of_mem ha)
      rw [List.filter_cons_of_neg (by simpa using hne)]
      exact ih hl.2 ha

section

variable {T D : Type} [LinearOrder T] {L : Timeline T D}

/-- The sleep that a callback ends. -/
def Callback.woken? : Callback T D → Option (Sleep T D)
  | .wake s => some s
  | _ => none

/-- Neither the driver nor a wake-up. -/
def Callback.Quiet (c : Callback T D) : Prop := c.isDriver = false ∧ c.woken? = none

section

variable {T D : Type} (task : String) (s : Sleep T D)

/-- What each kind of callback is, as the queue arguments below ask for it. -/
@[simp] theorem isDriver_start : (.start task : Callback T D).isDriver = false := rfl

/-- A wake-up is not the driver. -/
@[simp] theorem isDriver_wake : (Callback.wake s).isDriver = false := rfl

/-- The driver is, in either of its phases. -/
@[simp] theorem isDriver_driver (phase : Advance) :
    (.driver phase : Callback T D).isDriver = true := rfl

/-- A new task ends no sleep. -/
@[simp] theorem woken?_start : (.start task : Callback T D).woken? = none := rfl

/-- A wake-up ends the sleep it was made for. -/
@[simp] theorem woken?_wake : (Callback.wake s).woken? = some s := rfl

/-- The driver itself ends no sleep. -/
@[simp] theorem woken?_driver (phase : Advance) :
    (.driver phase : Callback T D).woken? = none := rfl

end

namespace EventLoop

/-- The sleeps whose futures are resolved and that have not returned. -/
def woken (l : EventLoop T D) : List (Sleep T D) := l.ready.filterMap (·.woken?)

/-- All sleeps, in the order in which they return. -/
def agenda (l : EventLoop T D) : List (Sleep T D) :=
  l.resumed.map Prod.fst ++ l.woken ++ l.clock.waiters

/-- What holds between two callbacks. -/
structure OnTime (L : Timeline T D) (l : EventLoop T D) : Prop where
  /-- A deadline is the sum of the two arguments. -/
  exact : ∀ s ∈ l.begun, s.deadline = L.after s.began s.seconds
  /-- The registration numbers ascend. -/
  fresh : l.begun.Pairwise fun a b => a.seq < b.seq
  /-- None of them is beyond the counter. -/
  seqs : ∀ s ∈ l.begun, s.seq ≤ l.clock.seq
  /-- No sleep is lost, and none comes up twice. -/
  all : l.agenda.Perm l.begun
  order : l.agenda.Pairwise fun a b => a.key < b.key
  past : ∀ r ∈ l.resumed, r.2 = r.1.deadline ∧ r.2 ≤ l.clock.now
  present : ∀ s ∈ l.woken, s.deadline = l.clock.now
  future : ∀ s ∈ l.clock.waiters, l.clock.now ≤ s.deadline
  /-- Behind the driver there are new tasks only. -/
  turns : l.ready.Pairwise fun a b => a.isDriver → b.Quiet
  /-- The driver is not in two places. -/
  alone : l.timer.isSome → ∀ b ∈ l.ready, b.isDriver = false

section

variable {T D : Type} {l : EventLoop T D}

/-- With no wake-up in the queue every resolved sleep has returned. -/
theorem woken_of_quiet (hquiet : ∀ b ∈ l.ready, b.Quiet) : l.woken = [] := by
  unfold woken
  rw [List.filterMap_eq_nil_iff]
  exact fun b hb => (hquiet b hb).2

/-- It is the driver's turn: all wake-ups have been run, and it is nowhere else. -/
structure AtTurn (l : EventLoop T D) : Prop where
  quiet : ∀ b ∈ l.ready, b.Quiet
  timer : l.timer = none

/-- The queue is empty when the timer of the driver runs out. -/
theorem atTurn_of_nil (hr : l.ready = []) : { l with timer := none }.AtTurn where
  quiet := by simp [hr]
  timer := rfl

/-- The driver, if there is one, is not in its second phase. -/
structure Held (l : EventLoop T D) : Prop where
  queue : ∀ free, .driver (.polling free) ∉ l.ready
  timer : ∀ free, l.timer ≠ some (.polling free)

/-- What comes to the end of the queue is no driver in its second phase. -/
theorem Held.enqueue (h : l.Held) {c : Callback T D} (hc : ∀ free, c ≠ .driver (.polling free)) :
    { l with ready := l.ready ++ [c] }.Held where
  queue free hmem := by
    obtain hmem | hmem := List.mem_append.mp hmem
    · exact h.queue free hmem
    · exact hc free (List.mem_singleton.mp hmem).symm
  timer := h.timer

/-- A callback leaves the queue. -/
theorem Held.dequeue (h : l.Held) {c : Callback T D} {ready : List (Callback T D)}
    (hr : l.ready = c :: ready) : { l with ready }.Held where
  queue free hmem := h.queue free (hr ▸ List.mem_cons_of_mem c hmem)
  timer := h.timer

/-- The driver waits for the tasks in `critical()`, with its timer set. -/
theorem Held.nap (h : l.Held) : (l.nap .settling).Held where
  queue := h.queue
  timer free heq := by cases heq

end

variable {l : EventLoop T D}

/-! ### One callback -/

/-- Before the first callback there is no sleep. -/
theorem onTime_init (start : T) : (init start : EventLoop T D).OnTime L where
  exact := by simp [init]
  fresh := by simp [init]
  seqs := by simp [init]
  all := by simp [init, agenda, woken]
  order := by simp [init, agenda, woken]
  past := by simp [init]
  present := by simp [init, woken]
  future := by simp [init]
  turns := by simp [init]
  alone := by simp [init]

/-- What is over, or about to be, is not after `now()`. -/
theorem OnTime.deadline_le (h : l.OnTime L) {s : Sleep T D}
    (hs : s ∈ l.resumed.map Prod.fst ++ l.woken) : s.deadline ≤ l.clock.now := by
  obtain hs | hs := List.mem_append.mp hs
  · obtain ⟨r, hr, rfl⟩ := List.mem_map.mp hs
    obtain ⟨htime, hle⟩ := h.past r hr
    exact htime ▸ hle
  · exact (h.present s hs).le

/-- The queue may change, and with it who has returned, as long as no sleep moves. -/
theorem OnTime.requeue (h : l.OnTime L) {ready : List (Callback T D)} {timer : Option Advance}
    {resumed : List (Sleep T D × T)}
    (hagenda : agenda ⟨l.clock, ready, timer, l.begun, resumed⟩ = l.agenda)
    (hpast : ∀ r ∈ resumed, r.2 = r.1.deadline ∧ r.2 ≤ l.clock.now)
    (hwoken : ∀ s ∈ ready.filterMap (·.woken?), s ∈ l.woken)
    (hturns : ready.Pairwise fun a b => a.isDriver → b.Quiet)
    (halone : timer.isSome → ∀ b ∈ ready, b.isDriver = false) :
    (⟨l.clock, ready, timer, l.begun, resumed⟩ : EventLoop T D).OnTime L where
  exact := h.exact
  fresh := h.fresh
  seqs := h.seqs
  all := by rw [hagenda]; exact h.all
  order := by rw [hagenda]; exact h.order
  past := hpast
  present := fun s hs => h.present s (hwoken s hs)
  future := h.future
  turns := hturns
  alone := halone

/-- The driver sets its timer, or the timer runs out. -/
theorem OnTime.retime (h : l.OnTime L) (timer : Option Advance)
    (halone : timer.isSome → ∀ b ∈ l.ready, b.isDriver = false) :
    { l with timer }.OnTime L :=
  h.requeue rfl h.past (fun _ hs => hs) h.turns halone

/-- A callback that ends no sleep comes behind the others. -/
theorem OnTime.enqueue (h : l.OnTime L) {c : Callback T D} (hc : c.woken? = none)
    (hdriver : c.isDriver → l.timer = none ∧ ∀ b ∈ l.ready, b.isDriver = false) :
    { l with ready := l.ready ++ [c] }.OnTime L := by
  have hsame : (l.ready ++ [c]).filterMap (·.woken?) = l.woken := by
    simp [woken, hc]
  refine h.requeue ?_ h.past (fun s hs => hsame ▸ hs) ?_ fun htimer b hb => ?_
  · simp only [agenda, woken, hsame]
  · refine List.pairwise_append.mpr ⟨h.turns, List.pairwise_singleton _ c, fun a ha b hb hd => ?_⟩
    obtain rfl := List.mem_singleton.mp hb
    refine ⟨?_, hc⟩
    -- a second driver would stand behind the first one
    by_contra hcd
    rw [(hdriver (by simpa using hcd)).2 a ha] at hd
    exact Bool.false_ne_true hd
  · obtain hb | hb := List.mem_append.mp hb
    · exact h.alone htimer b hb
    · obtain rfl := List.mem_singleton.mp hb
      by_contra hbd
      rw [(hdriver (by simpa using hbd)).1] at htimer
      exact Bool.false_ne_true htimer

/-- A callback that ends no sleep has its turn. -/
theorem OnTime.dequeue (h : l.OnTime L) {c : Callback T D} {ready : List (Callback T D)}
    (hr : l.ready = c :: ready) (hc : c.woken? = none) : { l with ready }.OnTime L := by
  have hsame : ready.filterMap (·.woken?) = l.woken := by
    simp [woken, hr, hc]
  refine h.requeue ?_ h.past (fun s hs => hsame ▸ hs) ?_ fun htimer b hb => ?_
  · simp only [agenda, woken, hsame]
  · exact (List.pairwise_cons.mp (hr ▸ h.turns)).2
  · exact h.alone htimer b (hr ▸ List.mem_cons_of_mem _ hb)

/-- A sleep returns. -/
theorem OnTime.resume (h : l.OnTime L) {s : Sleep T D} {ready : List (Callback T D)}
    (hr : l.ready = .wake s :: ready) :
    { l with ready, resumed := l.resumed ++ [(s, l.clock.now)] }.OnTime L := by
  have hwoken : l.woken = s :: ready.filterMap (·.woken?) := by
    simp [woken, hr]
  -- the sleep moves from the resolved ones to the returned ones, at its place in the agenda
  refine h.requeue ?_ (fun r hmem => ?_) (fun w hw => ?_) (List.pairwise_cons.mp (hr ▸ h.turns)).2
    fun htimer b hb => h.alone htimer b (hr ▸ List.mem_cons_of_mem _ hb)
  · unfold agenda
    rw [hwoken]
    simp [woken]
  · obtain hmem | hmem := List.mem_append.mp hmem
    · exact h.past r hmem
    · obtain rfl := List.mem_singleton.mp hmem
      exact ⟨(h.present s (hwoken ▸ List.mem_cons_self)).symm, le_rfl⟩
  · rw [hwoken]
    exact List.mem_cons_of_mem s hw

/-- A task begins to sleep: its entry comes after all that is over, and into the heap. -/
theorem OnTime.goOn (h : l.OnTime L) (task : String) (next : Option D) :
    (l.goOn L task next).OnTime L := by
  cases next with
  | none => exact h
  | some seconds =>
    -- the new registration number is beyond all others, so the new key ties with none
    have hseq : ∀ s ∈ l.agenda, s.seq < l.clock.seq + 1 := fun s hs =>
      Nat.lt_succ_of_le (h.seqs s (h.all.mem_iff.mp hs))
    let new : Sleep T D :=
      ⟨task, l.clock.now, seconds, L.after l.clock.now seconds, l.clock.seq + 1⟩
    have hnow : l.clock.now ≤ new.deadline := L.le_after _ _
    have hagenda : (l.goOn L task (some seconds)).agenda =
        (l.resumed.map Prod.fst ++ l.woken) ++ push Sleep.key new l.clock.waiters := rfl
    refine ⟨fun s hs => ?_, ?_, fun s hs => ?_, ?_, ?_, h.past, h.present, fun s hs => ?_, h.turns,
      h.alone⟩
    · obtain hs | hs := List.mem_append.mp hs
      · exact h.exact s hs
      · obtain rfl := List.mem_singleton.mp hs
        rfl
    · refine List.pairwise_append.mpr ⟨h.fresh, List.pairwise_singleton _ _, fun a ha b hb => ?_⟩
      obtain rfl := List.mem_singleton.mp hb
      exact Nat.lt_succ_of_le (h.seqs a ha)
    · show s.seq ≤ l.clock.seq + 1
      obtain hs | hs := List.mem_append.mp hs
      · exact (h.seqs s hs).trans (Nat.le_succ _)
      · obtain rfl := List.mem_singleton.mp hs
        exact le_rfl
    · rw [hagenda]
      have hnew : ((l.resumed.map Prod.fst ++ l.woken) ++ push Sleep.key new l.clock.waiters).Perm
          (new :: l.agenda) := (push_perm.append_left _).trans List.perm_middle
      exact hnew.trans ((h.all.cons new).trans (List.perm_append_singleton new l.begun).symm)
    · rw [hagenda]
      -- what is due earlier stays in front; at equal deadlines the older registration does
      refine pairwise_append_push h.order (fun b hb => ?_) fun b hb heq => ?_
      · have hle : b.deadline ≤ new.deadline := (h.deadline_le hb).trans hnow
        have hlt : b.seq < new.seq := hseq b (List.mem_append_left _ hb)
        obtain hless | heq := hle.lt_or_eq
        · exact Prod.Lex.toLex_lt_toLex.mpr (.inl hless)
        · exact Prod.Lex.toLex_lt_toLex.mpr (.inr ⟨heq, hlt⟩)
      · have hlt : b.seq < new.seq := hseq b (List.mem_append_right _ hb)
        have : b.seq = new.seq := congrArg (fun k => (ofLex k).2) heq
        omega
    · obtain rfl | hs := mem_push.mp hs
      · exact hnow
      · exact h.future s hs

/-! ### The driver -/

/-- What the driver does at its turn: it goes behind the others or to sleep, if it has to wait for
    something, or it jumps. -/
theorem advance_cases (l : EventLoop T D) (phase : Advance) :
    ((0 < l.clock.critical_depth ∨ l.clock.waiters = []) ∧
        ∃ p, l.advance_to_next phase = l.defer p ∨ l.advance_to_next phase = l.nap p) ∨
      ∃ w rest, l.clock.waiters = w :: rest ∧ l.advance_to_next phase = l.release w.deadline := by
  -- while polling the driver jumps at a waiter, else it uses up its budget
  have hpoll : ∀ free, (l.clock.waiters = [] ∧ ∃ p, l.poll free = l.defer p ∨ l.poll free = l.nap p)
      ∨ ∃ w rest, l.clock.waiters = w :: rest ∧ l.poll free = l.release w.deadline := by
    intro free
    unfold poll
    cases hw : l.clock.waiters with
    | cons w rest => exact .inr ⟨w, rest, rfl, rfl⟩
    | nil =>
      cases free with
      | succ free => exact .inl ⟨rfl, _, .inl rfl⟩
      | zero => exact .inl ⟨rfl, _, .inr rfl⟩
  -- `critical_depth` is looked at here, and not again while polling
  have hsettle : ((0 < l.clock.critical_depth ∨ l.clock.waiters = []) ∧
        ∃ p, l.settle = l.defer p ∨ l.settle = l.nap p) ∨
      ∃ w rest, l.clock.waiters = w :: rest ∧ l.settle = l.release w.deadline := by
    unfold settle
    split
    · rename_i hcrit
      exact .inl ⟨.inl hcrit, _, .inr rfl⟩
    · exact (hpoll 500).imp_left (And.imp_left .inr)
  cases phase with
  | settling | jumped => exact hsettle
  | polling free => exact (hpoll free).imp_left (And.imp_left .inr)

/-- The driver is the first in the queue. -/
theorem OnTime.atTurn (h : l.OnTime L) {phase : Advance} {ready : List (Callback T D)}
    (hr : l.ready = .driver phase :: ready) : { l with ready }.AtTurn where
  quiet := by
    have hturns := h.turns
    rw [hr] at hturns
    exact fun b hb => (List.pairwise_cons.mp hturns).1 b hb rfl
  timer := by
    cases ht : l.timer with
    | none => rfl
    | some p =>
      have hno := h.alone (by rw [ht]; rfl) (.driver phase) (hr ▸ List.mem_cons_self)
      exact absurd hno (by simp)

/-- In the heap, the first deadline is the least one. -/
theorem OnTime.first_le (h : l.OnTime L) {w : Sleep T D} {rest : List (Sleep T D)}
    (hw : l.clock.waiters = w :: rest) {s : Sleep T D} (hs : s ∈ l.clock.waiters) :
    w.deadline ≤ s.deadline := by
  have hsorted : l.clock.waiters.Pairwise fun a b => a.key < b.key :=
    (List.pairwise_append.mp h.order).2.1
  rw [hw] at hs hsorted
  obtain rfl | hs := List.mem_cons.mp hs
  · exact le_rfl
  · have hlt := (List.pairwise_cons.mp hsorted).1 s hs
    obtain hless | ⟨heq, _⟩ := Prod.Lex.toLex_lt_toLex.mp hlt
    · exact hless.le
    · exact heq.le

/-- What is popped, and what is left. -/
theorem jump_split (deadline : T) : (l.clock.jump deadline).1 ++
    (l.clock.jump deadline).2.waiters = l.clock.waiters := List.takeWhile_append_dropWhile

/-- What is popped has the deadline that is jumped to. -/
theorem OnTime.due (h : l.OnTime L) {w : Sleep T D} {rest : List (Sleep T D)}
    (hw : l.clock.waiters = w :: rest) {s : Sleep T D}
    (hs : s ∈ (l.clock.jump w.deadline).1) : s.deadline = w.deadline := by
  have hmem : s ∈ l.clock.waiters := (List.takeWhile_prefix _).subset hs
  have hle : s.deadline ≤ w.deadline := by simpa using List.mem_takeWhile_imp hs
  exact le_antisymm hle (h.first_le hw hmem)

/-- After a jump the queue holds the wake-ups of the sleeps that were due, and no others. -/
theorem woken_release (hquiet : ∀ b ∈ l.ready, b.Quiet) (deadline : T) :
    (l.release deadline).woken = (l.clock.jump deadline).1 := by
  have hdue : ((l.clock.jump deadline).1.map Callback.wake).filterMap (·.woken?) =
      (l.clock.jump deadline).1 := by
    rw [List.filterMap_map]
    exact List.filterMap_some
  have hnone : l.ready.filterMap (·.woken?) = [] := woken_of_quiet hquiet
  unfold woken release
  rw [List.filterMap_append, List.filterMap_append, hnone, hdue]
  exact List.append_nil _

/-- The jump moves no sleep. -/
theorem agenda_release (hquiet : ∀ b ∈ l.ready, b.Quiet) (deadline : T) :
    (l.release deadline).agenda = l.agenda := by
  unfold agenda
  rw [woken_release hquiet, woken_of_quiet hquiet, List.append_assoc, List.append_nil]
  show l.resumed.map Prod.fst ++ ((l.clock.jump deadline).1 ++
    (l.clock.jump deadline).2.waiters) = _
  rw [jump_split]

/-- New tasks, wake-ups, the driver: in this order. -/
theorem turns_release (hquiet : ∀ b ∈ l.ready, b.Quiet) (deadline : T) :
    (l.release deadline).ready.Pairwise fun a b => a.isDriver → b.Quiet := by
  have hnone : ∀ a ∈ l.ready ++ (l.clock.jump deadline).1.map Callback.wake,
      a.isDriver = false := by
    intro a ha
    obtain ha | ha := List.mem_append.mp ha
    · exact (hquiet a ha).1
    · obtain ⟨s, _, rfl⟩ := List.mem_map.mp ha
      rfl
  refine List.pairwise_append.mpr ⟨?_, List.pairwise_singleton _ _, fun a ha b _ hd => ?_⟩
  · exact List.pairwise_of_forall_mem_list fun a ha b hb hd => absurd (hnone a ha) (by simp [hd])
  · exact absurd (hnone a ha) (by simp [hd])

/-- The jump keeps the invariant. -/
theorem OnTime.release (h : l.OnTime L) (hquiet : ∀ b ∈ l.ready, b.Quiet) (htimer : l.timer = none)
    {w : Sleep T D} {rest : List (Sleep T D)} (hw : l.clock.waiters = w :: rest) :
    (l.release w.deadline).OnTime L where
  exact := h.exact
  fresh := h.fresh
  seqs := h.seqs
  all := by
    rw [agenda_release hquiet]
    exact h.all
  order := by
    rw [agenda_release hquiet]
    exact h.order
  past := by
    intro r hr
    -- the clock goes to the first deadline, which is not in the past
    have hnow : l.clock.now ≤ w.deadline := h.future w (hw ▸ List.mem_cons_self)
    exact ⟨(h.past r hr).1, (h.past r hr).2.trans hnow⟩
  present := by
    intro s hs
    rw [woken_release hquiet] at hs
    exact h.due hw hs
  future := by
    intro s hs
    exact h.first_le hw ((List.dropWhile_suffix _).subset hs)
  turns := turns_release hquiet w.deadline
  alone := by
    intro hsome
    rw [show (l.release w.deadline).timer = none from htimer] at hsome
    exact absurd hsome Bool.false_ne_true

/-- The driver has its turn. -/
theorem OnTime.advance (h : l.OnTime L) (hturn : l.AtTurn) (phase : Advance) :
    (l.advance_to_next phase).OnTime L := by
  have hno : ∀ b ∈ l.ready, b.isDriver = false := fun b hb => (hturn.quiet b hb).1
  obtain ⟨_, p, heq | heq⟩ | ⟨w, rest, hw, heq⟩ := advance_cases l phase <;> rw [heq]
  · exact h.enqueue rfl fun _ => ⟨hturn.timer, hno⟩
  · exact h.retime _ fun _ => hno
  · exact h.release hturn.quiet hturn.timer hw

/-- `critical()` has no part in it. -/
theorem OnTime.setCritical (h : l.OnTime L) (depth : ℕ) : (l.setCritical depth).OnTime L :=
  ⟨h.exact, h.fresh, h.seqs, h.all, h.order, h.past, h.present, h.future, h.turns, h.alone⟩

/-- **Step.** -/
theorem OnTime.step (h : l.OnTime L) (a : Act D) : (l.step L a).OnTime L := by
  cases a with
  | spawn task => exact h.enqueue rfl fun hd => absurd hd Bool.false_ne_true
  | enter => exact h.setCritical (l.clock.critical_depth + 1)
  | exit => exact h.setCritical (l.clock.critical_depth - 1)
  | drive =>
    simp only [EventLoop.step]
    split
    · exact h
    · rename_i hnone
      rw [Bool.not_eq_true, isDriven, Bool.or_eq_false_iff] at hnone
      exact h.enqueue rfl fun _ => ⟨by simpa using hnone.1, by simpa using hnone.2⟩
  | timeout =>
    simp only [EventLoop.step]
    split
    · rename_i phase ht
      -- the timer was set, so the driver is not in the queue as well
      have hno := h.alone (by rw [ht]; rfl)
      exact (h.retime none (by simp)).enqueue rfl fun _ => ⟨rfl, hno⟩
    · exact h
  | leave =>
    simp only [EventLoop.step]
    split
    · rename_i phase ready hr
      split
      · exact h.dequeue hr rfl
      · exact h
    · exact h
  | run next =>
    simp only [EventLoop.step]
    split
    · rename_i hr
      split
      · rename_i phase ht
        exact (h.retime none (by simp)).advance (atTurn_of_nil hr) phase
      · exact h
    · rename_i task ready hr
      exact (h.dequeue hr rfl).goOn task next
    · rename_i s ready hr
      -- the sleep has returned, and its task may register the next one
      exact (h.resume hr).goOn s.task next
    · rename_i phase ready hr
      exact (h.dequeue hr rfl).advance (h.atTurn hr) phase

/-- **Run.** -/
theorem onTime_run (start : T) (acts : List (Act D)) :
    (run (step L) (init start) acts).OnTime L :=
  invariant_run (I := fun l : EventLoop T D => l.OnTime L) (fun _ a h => h.step a)
    (onTime_init start) acts

/-! ### Time -/

/-- A task that goes on does not move the clock; it may register a sleep. -/
@[simp] theorem now_goOn (task : String) (next : Option D) :
    (l.goOn L task next).clock.now = l.clock.now := by
  cases next <;> rfl

/-- The driver does not lead time back. -/
theorem now_le_advance (h : l.OnTime L) (phase : Advance) :
    l.clock.now ≤ (l.advance_to_next phase).clock.now := by
  obtain ⟨_, p, heq | heq⟩ | ⟨w, rest, hw, heq⟩ := advance_cases l phase <;> rw [heq]
  · exact le_rfl
  · exact le_rfl
  · exact h.future w (hw ▸ List.mem_cons_self)

/-- Time does not go back. -/
theorem now_le_step (h : l.OnTime L) (a : Act D) : l.clock.now ≤ (l.step L a).clock.now := by
  cases a with
  | spawn | enter | exit => exact le_rfl
  | drive | timeout => simp only [EventLoop.step]; split <;> exact le_rfl
  | leave =>
    simp only [EventLoop.step]
    split
    · split <;> exact le_rfl
    · exact le_rfl
  | run next =>
    simp only [EventLoop.step]
    split
    · split
      · rename_i phase ht
        -- the clock moves only when the driver has its turn
        exact now_le_advance (h.retime none (by simp)) phase
      · exact le_rfl
    · simp
    · simp
    · rename_i phase ready hr
      exact now_le_advance (h.dequeue hr rfl) phase

/-- Nor does any run. -/
theorem now_le_run (h : l.OnTime L) (acts : List (Act D)) :
    l.clock.now ≤ (run (step L) l acts).clock.now :=
  related_run (R := fun l l' : EventLoop T D => l.clock.now ≤ l'.clock.now) (fun _ => le_rfl)
    (fun _ _ _ => le_trans) (fun _ a h => h.step a) (fun _ a h => now_le_step h a) h acts

/-- A driver that is not in its second phase waits for the tasks in `critical()`. -/
theorem settle_critical (hcrit : 0 < l.clock.critical_depth) {phase : Advance}
    (hphase : ∀ free, phase ≠ .polling free) : l.advance_to_next phase = l.nap .settling := by
  have hsettle : l.settle = l.nap .settling := if_pos hcrit
  cases phase with
  | settling | jumped => exact hsettle
  | polling free => exact absurd rfl (hphase free)

/-- A task runs to its next sleep. -/
theorem Held.goOn (h : l.Held) (task : String) (next : Option D) : (l.goOn L task next).Held := by
  cases next with
  | none => exact h
  | some seconds => exact ⟨h.queue, h.timer⟩

/-- While a task is in `critical()`, time stands still and the driver stays in its first phase. -/
theorem now_step_critical (h : l.Held) (hcrit : 0 < l.clock.critical_depth) (a : Act D) :
    (l.step L a).Held ∧ (l.step L a).clock.now = l.clock.now := by
  cases a with
  | spawn task => exact ⟨h.enqueue fun _ heq => (by cases heq), rfl⟩
  | enter | exit => exact ⟨⟨h.queue, h.timer⟩, rfl⟩
  | drive =>
    simp only [EventLoop.step]
    split
    · exact ⟨h, rfl⟩
    · exact ⟨h.enqueue fun _ heq => (by cases heq), rfl⟩
  | timeout =>
    simp only [EventLoop.step]
    split
    · rename_i phase ht
      -- the timer held the driver in its settling phase, where it tests the depth
      have hfree : { l with timer := none }.Held := ⟨h.queue, fun _ heq => by cases heq⟩
      refine ⟨hfree.enqueue fun free heq => h.timer free ?_, rfl⟩
      rw [ht, Callback.driver.inj heq]
    · exact ⟨h, rfl⟩
  | leave =>
    simp only [EventLoop.step]
    split
    · rename_i phase ready hr
      split
      · exact ⟨h.dequeue hr, rfl⟩
      · exact ⟨h, rfl⟩
    · exact ⟨h, rfl⟩
  | run next =>
    simp only [EventLoop.step]
    split
    · split
      · rename_i phase ht
        have hfree : { l with timer := none }.Held := ⟨h.queue, fun _ heq => by cases heq⟩
        rw [settle_critical (l := { l with timer := none }) hcrit fun free heq =>
          h.timer free (heq ▸ ht)]
        exact ⟨hfree.nap, rfl⟩
      · exact ⟨h, rfl⟩
    · rename_i task ready hr
      exact ⟨(h.dequeue hr).goOn task next, now_goOn ..⟩
    · rename_i s ready hr
      have hrest : { l with ready, resumed := l.resumed ++ [(s, l.clock.now)] }.Held :=
        ⟨(h.dequeue hr).queue, h.timer⟩
      exact ⟨hrest.goOn s.task next, now_goOn ..⟩
    · rename_i phase ready hr
      -- the driver in the queue tests the depth again before it does anything
      rw [settle_critical (l := { l with ready }) hcrit fun free heq =>
        h.queue free (by rw [hr, heq]; exact List.mem_cons_self)]
      exact ⟨(h.dequeue hr).nap, rfl⟩

/-- While a task is in `critical()`, time stands still, unless the driver was polling already. -/
theorem now_critical (h : l.Held) (acts : List (Act D))
    (hcrit : Along (step L) (fun l _ => 0 < l.clock.critical_depth) l acts) :
    (run (step L) l acts).clock.now = l.clock.now :=
  (invariant_along (I := fun l' : EventLoop T D => l'.Held ∧ l'.clock.now = l.clock.now)
    (fun _ a hl hcrit => by
      obtain ⟨hheld, hnow⟩ := now_step_critical hl.1 hcrit a
      exact ⟨hheld, hnow.trans hl.2⟩) ⟨h, rfl⟩ hcrit).2

/-- While the driver polls, `b` sleeps for 90 and `a` enters `critical()`: the driver jumps. -/
example : (run (step Timeline.nat) (init 0)
    [.drive, .run none, .spawn "b", .run none, .run (some 90), .enter, .run none]).clock.now
    = 90 := by decide

/-! ### Returns -/

/-- Registration numbers are not given twice. -/
theorem OnTime.seq_nodup (h : l.OnTime L) : (l.agenda.map (·.seq)).Nodup := by
  have hbegun : (l.begun.map (·.seq)).Nodup :=
    List.pairwise_map.mpr (h.fresh.imp fun hlt => hlt.ne)
  exact (h.all.map _).nodup_iff.mpr hbegun

/-- A sleep has returned once, at its deadline; or it has not, and its deadline is not over. -/
theorem resumptions_eq (h : l.OnTime L) {s : Sleep T D} (hs : s ∈ l.begun) :
    s ∈ l.resumed.map Prod.fst ∧ l.resumptions s = [s.deadline] ∨
      s ∈ l.woken ++ l.clock.waiters ∧ l.resumptions s = [] ∧ l.clock.now ≤ s.deadline := by
  have hnodup := h.seq_nodup
  have hmem : s ∈ l.agenda := h.all.mem_iff.mpr hs
  unfold agenda at hnodup hmem
  rw [List.append_assoc] at hnodup hmem
  rw [List.map_append, List.nodup_append] at hnodup
  -- no registration number comes up twice in the agenda, so a sleep is in one part of it only
  obtain ⟨hpast, _, hapart⟩ := hnodup
  unfold resumptions
  obtain hmem | hmem := List.mem_append.mp hmem
  · refine .inl ⟨hmem, ?_⟩
    obtain ⟨r, hr, rfl⟩ := List.mem_map.mp hmem
    rw [List.map_map] at hpast
    have hone := filter_key_of_nodup (fun r : Sleep T D × T => r.1.seq) hpast hr
    rw [hone, List.map_singleton, (h.past r hr).1]
  · refine .inr ⟨hmem, ?_, ?_⟩
    · have hnone : (l.resumed.filter fun r => r.1.seq == s.seq) = [] := by
        rw [List.filter_eq_nil_iff]
        intro r hr heq
        exact hapart _ (List.mem_map_of_mem (List.mem_map_of_mem hr)) _ (List.mem_map_of_mem hmem)
          (by simpa using heq)
      rw [hnone, List.map_nil]
    · obtain hmem | hmem := List.mem_append.mp hmem
      · exact (h.present s hmem).ge
      · exact h.future s hmem

end EventLoop

end

end SmartDialer
