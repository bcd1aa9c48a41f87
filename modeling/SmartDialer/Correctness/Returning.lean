import Mathlib.Data.Fintype.EquivFin
import SmartDialer.Correctness.Simulated

namespace SmartDialer

open Relational

/-!
# Every lifecycle can return

A lifecycle goes on when it wakes up and its buffer has sent what it had to send.  No other
lifecycle is in its way: they share the buffer of their mock, but not what it holds for a call.  So
they can all come to their ends, whatever the workers do meanwhile.

* `Scenario.Act.Winds` — the actions that only finish what has been started.
* `Scenario.Watch`, `Scenario.Orderly` — a scenario with an observer of its clocks and of its loop,
  and what it observes of a run that the code can make: no clock goes back, and the loop drains
  once, and reaps once, each time that it comes there.
* `Scenario.State.work` — what a lifecycle and its buffer have left to do; `Genuine.works` makes it
  less.
* `Scenario.State.Genuine.returns` — in the end there is nothing left.
-/

/-! ### Measures -/

/-- How many steps a lifecycle has left. -/
def Stage.left : Stage → ℕ
  | .placed => 4
  | .ringing => 3
  | .talking => 2
  | .unanswered | .completed => 1
  | .returned _ => 0

/-- Going on brings a lifecycle closer to its end, whoever answers. -/
theorem Stage.next_left {answered : Bool} {stage stage' : Stage} {raw : Option String}
    (h : stage.next answered = some (raw, stage')) : stage'.left < stage.left := by
  cases stage with
  | ringing => cases answered <;> obtain ⟨_, rfl⟩ := Prod.mk.inj (Option.some.inj h) <;> decide
  | returned a => cases h
  | placed | unanswered | talking | completed =>
    obtain ⟨_, rfl⟩ := Prod.mk.inj (Option.some.inj h)
    decide

/-- A lifecycle has no step left exactly when it has returned. -/
theorem Stage.left_eq_zero {stage : Stage} : stage.left = 0 ↔ stage.isOver = true := by
  cases stage <;> simp [left, isOver]

/-- A lifecycle that has not returned can go on. -/
theorem Stage.exists_next (answered : Bool) {stage : Stage} (h : stage.isOver = false) :
    ∃ raw stage', stage.next answered = some (raw, stage') := by
  cases stage with
  | returned => cases h
  | ringing => cases answered <;> exact ⟨_, _, rfl⟩
  | placed | unanswered | talking | completed => exact ⟨_, _, rfl⟩

/-- How much a running `_emit` or `_flush` has to do, if an event of a batch counts as three. -/
def CallTask.pending (t : CallTask) : ℕ := 3 * t.batch.length + t.sending.length

/-- A coroutine has nothing to do exactly when it has returned. -/
theorem CallTask.pending_eq_zero {t : CallTask} : t.pending = 0 ↔ t.Idle := by
  simp [pending, Idle]

namespace MockProvider

/-- The call that an action is about. -/
def Act.pcid : Act → String
  | .emit pcid _ | .flush pcid | .resume pcid _ => pcid

variable {m : MockProvider} {pcid other : String}

/-- One turn of a coroutine brings it closer to its end, however it draws. -/
theorem resume_pending (h : ¬ (m.tasks pcid).Idle) (reorder : Bool) :
    ((m.resume pcid reorder).tasks pcid).pending < (m.tasks pcid).pending := by
  unfold resume
  split
  · -- a batch is being sent: its next event leaves
    rename_i batch ev sending flushed ht
    show (Function.update m.tasks pcid _ pcid).pending < _
    rw [Function.update_self, ht]
    simp [CallTask.pending]
  · -- the next batch is taken: sent as it stands, or swapped with the one held back
    rename_i ev batch flushed ht
    split
    · show (Function.update m.tasks pcid _ pcid).pending < _
      rw [Function.update_self, ht]
      simp only [CallTask.pending, List.length_cons, List.length_nil]
      omega
    · rename_i held _
      show (Function.update m.tasks pcid _ pcid).pending < _
      rw [Function.update_self, ht]
      simp only [CallTask.pending, List.length_cons, List.length_nil]
      split <;> simp only [List.length_cons, List.length_nil] <;> omega
  · rename_i flushed ht
    exact absurd (show (m.tasks pcid).Idle by rw [ht]; exact ⟨rfl, rfl⟩) h

/-- An event without a copy is three turns to go. -/
theorem emit_pending (h : (m.tasks pcid).Idle) (hf : (m.tasks pcid).flushed = false)
    {e : Emission} (hdup : e.dup = false) :
    ((m.step (.emit pcid e)).tasks pcid).pending = 3 := by
  rw [step, if_pos ⟨h, hf⟩]
  show (Function.update m.tasks pcid _ pcid).pending = 3
  rw [Function.update_self, CallTask.pending, h.2, Emission.batch, hdup]
  rfl

/-- A flush has at most the held event to send. -/
theorem flush_pending (h : (m.tasks pcid).Idle) (hf : (m.tasks pcid).flushed = false) :
    ((m.step (.flush pcid)).tasks pcid).pending ≤ 1 := by
  rw [step, if_pos ⟨h, hf⟩]
  show (Function.update m.tasks pcid _ pcid).pending ≤ 1
  rw [Function.update_self, CallTask.pending]
  cases m.held pcid <;> simp

/-- The steps of one call leave the coroutine of another where it is. -/
theorem tasks_step_of_ne {a : Act} (hne : a.pcid ≠ pcid) :
    (m.step a).tasks pcid = m.tasks pcid := by
  cases a with
  | emit q e => exact (step_other hne e).1.2
  | flush q => exact (step_other hne ⟨"", "", 0, false⟩).2.2
  | resume q reorder => exact (resume_frame hne reorder).2.1

end MockProvider

/-! ### Winding up -/

namespace Scenario

/-- What goes on from the time `T` on when nobody is hired, no borrower added, no call allocated and
    nothing injected.  A call that is still to be placed fails, and `draw` says who answers. -/
def Act.Winds (T : Time) (draw : ℕ → Bool) : Act → Prop
  | .place clock_now _ _ hard_fail _ => T ≤ toTimestamp clock_now ∧ hard_fail = true
  | .settle now clock_now _ => T ≤ now ∧ T ≤ clock_now
  | .advance task answered _ clock_now _ => T ≤ toTimestamp clock_now ∧ answered = draw task
  | .resume now .. => T ≤ now
  | .turn _ | .loop (.commit _) => True
  | .loop (.fetch now _ limit) => T ≤ now ∧ limit = 200
  | .loop (.read clock_now _) => T ≤ clock_now
  | .loop (.reap now now_ts registry) =>
    T ≤ now ∧ T ≤ now_ts ∧ registry = some ["mock_a", "mock_b"]
  | _ => False

/-- What may go on from a time on may go on from an earlier one. -/
theorem Act.Winds.earlier {T T' : Time} {draw : ℕ → Bool} {a : Act} (h : a.Winds T' draw)
    (hT : T ≤ T') : a.Winds T draw := by
  -- each bound of an action is a lower bound on its times
  cases a with
  | place | advance => exact ⟨hT.trans h.1, h.2⟩
  | settle => exact ⟨hT.trans h.1, hT.trans h.2⟩
  | resume => exact hT.trans h
  | turn => trivial
  | loop b =>
    cases b with
    | fetch => exact ⟨hT.trans h.1, h.2⟩
    | read => exact hT.trans h
    | reap => exact ⟨hT.trans h.1, hT.trans h.2.1, h.2.2⟩
    | commit => trivial
    | _ => exact h.elim
  | _ => exact h.elim

/-- The clock can show every time. -/
theorem toTimestamp_div (T : Time) : toTimestamp ((T : ℚ) / 1000000) = T := by
  rw [toTimestamp, div_mul_cancel₀ _ (by norm_num), Numeric.roundEven_intCast]

/-! ### Observers -/

/-- How late it is after an action, if it was `T` before. -/
def Act.after (T : Time) : Act → Time
  | .place clock_now .. | .advance _ _ _ clock_now _ => max T (toTimestamp clock_now)
  | .settle now clock_now _ => max T (max now clock_now)
  | .resume now .. | .loop (.fetch now ..) => max T now
  | .loop (.read clock_now _) => max T clock_now
  | .loop (.reap now now_ts _) => max T (max now now_ts)
  | _ => T

/-- The clock does not go back. -/
theorem Act.le_after (T : Time) (a : Act) : T ≤ a.after T := by
  unfold after
  split <;> first | exact le_max_left T _ | exact le_rfl

/-- An observer who started later is not earlier afterwards. -/
theorem Act.after_mono {T T' : Time} (h : T ≤ T') (a : Act) : a.after T ≤ a.after T' := by
  unfold after
  split <;> first | exact max_le_max_right _ h | exact h

/-- Lifecycles and allocations go on by themselves: the loop has no part in it. -/
def Act.Aside : Act → Prop
  | .loop _ | .turn _ => False
  | _ => True

/-- The loop begins what it does once in a phase: its drain, or its tick of the reaper. -/
def Act.begins : Act → Bool
  | .loop (.fetch ..) | .loop (.reap ..) => true
  | _ => false

/-- A scenario together with an observer, who knows how late it is and whether the loop has begun
    its drain, or its tick of the reaper, since it came to the phase that it is in. -/
structure Watch where
  state : State
  clock : Time
  begun : Bool

/-- The observer looks at an action: the scenario goes on as it would, the clock follows, and a turn
    of the loop to another phase forgets what was begun in the last one. -/
def Watch.step (cfg : Settings) (w : Watch) (a : Act) : Watch where
  state := Scenario.step cfg w.state a
  clock := a.after w.clock
  begun :=
    match a with
    | .turn _ => decide ((Scenario.step cfg w.state a).phase = w.state.phase) && w.begun
    | a => a.begins || w.begun

/-- What the observer sees of a scenario that is being wound up: neither of the two clocks goes
    back, and in each phase after the tick the loop does what it is there for, once. -/
structure Orderly (draw : ℕ → Bool) (w : Watch) (a : Act) : Prop where
  winds : a.Winds w.clock draw
  once : a.begins = true → w.begun = false
  leaves : ∀ reaps, a = .turn reaps → w.state.phase ≠ .tick → w.begun = true

/-- The observer does not disturb the scenario. -/
theorem Watch.run_state (cfg : Settings) (w : Watch) (acts : List Act) :
    (run (step cfg) w acts).state = run (Scenario.step cfg) w.state acts := by
  induction acts generalizing w with
  | nil => rfl
  | cons a acts ih => exact ih (w.step cfg a)

/-- What is in order begins after its start. -/
theorem Orderly.forall_winds {cfg : Settings} {draw : ℕ → Bool} {w : Watch} {acts : List Act}
    (h : Along (Watch.step cfg) (Orderly draw) w acts) : ∀ a ∈ acts, a.Winds w.clock draw := by
  induction acts generalizing w with
  | nil => exact fun _ ha => absurd ha List.not_mem_nil
  | cons a acts ih =>
    refine List.forall_mem_cons.mpr ⟨h.1.winds, fun b hb => ?_⟩
    exact (ih h.2 b hb).earlier (a.le_after w.clock)

namespace State

/-- How much a lifecycle and its buffer have left to do. -/
def work (s : State) (t : ℕ) : ℕ :=
  (s.lifecycles.get? t).elim 0 fun l =>
    4 * l.stage.left + ((s.mocks l.provider).buffer.tasks l.pcid).pending

section

variable {s : State}

/-- Nothing is left to do exactly when every lifecycle has returned and its buffer is idle. -/
theorem forall_work_eq_zero : (∀ t, s.work t = 0) ↔ ∀ t l, s.lifecycles.get? t = some l →
    l.stage.isOver = true ∧ ((s.mocks l.provider).buffer.tasks l.pcid).Idle := by
  refine forall_congr' fun t => ?_
  unfold work
  cases h : s.lifecycles.get? t with
  | none => simp
  | some l => simp [Stage.left_eq_zero, CallTask.pending_eq_zero]

/-- A lifecycle whose buffer is idle takes its next step. -/
theorem advance_ready {t : ℕ} {l : Lifecycle} (hget : s.lifecycles.get? t = some l)
    (hidle : ((s.mocks l.provider).buffer.tasks l.pcid).Idle) {answered : Bool}
    {raw : Option String} {stage : Stage} (hnext : l.stage.next answered = some (raw, stage))
    {event_id : String}
    (hfresh : ∀ x ∈ (s.mocks l.provider).buffer.emissions, x.2.event_id ≠ event_id)
    (clock_now : ℚ) (dup : Bool) :
    ∃ a, ((∃ e : Emission, raw = some e.raw_event_type ∧ e.dup = dup ∧ a = .emit l.pcid e) ∨
        raw = none ∧ a = .flush l.pcid) ∧
      s.advance t answered event_id clock_now dup = State.onBuffer
        { s with lifecycles := s.lifecycles.alter t fun l => { l with stage := stage } }
        l.provider a := by
  have hready : (s.mocks l.provider).buffer.emissions.all (·.2.event_id != event_id) = true := by
    simpa only [List.all_eq_true, bne_iff_ne] using hfresh
  unfold advance
  rw [hget]
  simp only [hidle, hready, hnext, and_self, if_true]
  cases raw with
  | some raw => exact ⟨_, Or.inl ⟨⟨raw, event_id, clock_now, dup⟩, rfl, rfl, rfl⟩, rfl⟩
  | none => exact ⟨_, Or.inr ⟨rfl, rfl⟩, rfl⟩

/-- An action on one call of one mock leaves the coroutines of all others where they are. -/
theorem tasks_onBuffer {provider p q : String} {a : MockProvider.Act}
    (hne : (p, q) ≠ (provider, a.pcid)) :
    ((s.onBuffer provider a).mocks p).buffer.tasks q = (s.mocks p).buffer.tasks q := by
  rw [onBuffer_buffer]
  split
  · rename_i hp
    subst hp
    exact MockProvider.tasks_step_of_ne fun hq => hne (by rw [hq])
  · rfl

/-- The other lifecycles have other references: what is done for one leaves their work as it is. -/
theorem Genuine.work_of_ne (h : s.Genuine) {t : ℕ} {l : Lifecycle}
    (hget : s.lifecycles.get? t = some l) {s' : State} {a : MockProvider.Act}
    (ha : a.pcid = l.pcid) (hm : s'.mocks = (s.onBuffer l.provider a).mocks)
    (hl : ∀ j, j ≠ t → s'.lifecycles.get? j = s.lifecycles.get? j) {j : ℕ} (hj : j ≠ t) :
    s'.work j = s.work j := by
  rw [work, work, hl j hj]
  cases hj' : s.lifecycles.get? j with
  | none => rfl
  | some l' =>
    have hne : (l'.provider, l'.pcid) ≠ (l.provider, a.pcid) := fun heq =>
      hj (h.scripted.unique j l' t l hj' hget (Option.some_ne_none _)
        (congrArg some (ha ▸ heq)))
    show 4 * l'.stage.left + _ = 4 * l'.stage.left + _
    rw [hm, tasks_onBuffer hne]

/-- There is always an event id that a mock has not used yet. -/
theorem exists_fresh (s : State) (provider : String) : ∃ event_id : String,
    ∀ x ∈ (s.mocks provider).buffer.emissions, x.2.event_id ≠ event_id := by
  obtain ⟨event_id, hid⟩ := Infinite.exists_notMem_finset
    ((s.mocks provider).buffer.emissions.map (·.2.event_id)).toFinset
  exact ⟨event_id, fun x hx heq => hid (List.mem_toFinset.mpr (List.mem_map.mpr ⟨x, hx, heq⟩))⟩

/-- A lifecycle with an idle buffer that is not over takes a step, which leaves it less to do. -/
theorem Genuine.advances (cfg : Settings) (T : Time) (draw : ℕ → Bool) (h : s.Genuine) {t : ℕ}
    {l : Lifecycle} (hget : s.lifecycles.get? t = some l)
    (hidle : ((s.mocks l.provider).buffer.tasks l.pcid).Idle) (hopen : l.stage.isOver = false) :
    ∃ a : Act, a.Winds T draw ∧ a.Aside ∧ (step cfg s a).work t < 4 * l.stage.left ∧
      ∀ j, j ≠ t → (step cfg s a).work j = s.work j := by
  have hflushed := (h.scripted.script t l hget).2.trans hopen
  obtain ⟨raw, stage, hnext⟩ := Stage.exists_next (draw t) hopen
  obtain ⟨event_id, hfresh⟩ := s.exists_fresh l.provider
  obtain ⟨b, hb, hs⟩ := s.advance_ready hget hidle hnext hfresh ((T : ℚ) / 1000000) false
  have hmocks : (step cfg s (.advance t (draw t) event_id ((T : ℚ) / 1000000) false)).mocks
      = (s.onBuffer l.provider b).mocks := by
    show (s.advance t (draw t) event_id ((T : ℚ) / 1000000) false).mocks = _
    rw [hs]
    rfl
  have hlifecycles :
      (step cfg s (.advance t (draw t) event_id ((T : ℚ) / 1000000) false)).lifecycles
        = s.lifecycles.alter t fun l => { l with stage := stage } := by
    show (s.advance t (draw t) event_id ((T : ℚ) / 1000000) false).lifecycles = _
    rw [hs]
    rfl
  have hpcid : b.pcid = l.pcid := by rcases hb with ⟨_, _, _, rfl⟩ | ⟨_, rfl⟩ <;> rfl
  have hothers : ∀ j, j ≠ t → (step cfg s (.advance t (draw t) event_id ((T : ℚ) / 1000000)
      false)).lifecycles.get? j = s.lifecycles.get? j := fun j hj => by
    rw [hlifecycles, Table.get?_alter, if_neg hj]
  refine ⟨.advance t (draw t) event_id ((T : ℚ) / 1000000) false,
    ⟨(toTimestamp_div T).ge, rfl⟩, trivial, ?_, fun j => h.work_of_ne hget hpcid hmocks hothers⟩
  -- the step is worth four, and what it puts into the buffer at most three
  have hpending : (((s.mocks l.provider).buffer.step b).tasks l.pcid).pending ≤ 3 := by
    rcases hb with ⟨e, _, hdup, rfl⟩ | ⟨_, rfl⟩
    · exact (MockProvider.emit_pending hidle hflushed hdup).le
    · have := MockProvider.flush_pending hidle hflushed
      omega
  have hleft := Stage.next_left hnext
  rw [work, hlifecycles, Table.get?_alter, if_pos rfl, hget, hmocks]
  show 4 * stage.left
    + (((s.onBuffer l.provider b).mocks l.provider).buffer.tasks l.pcid).pending < _
  rw [onBuffer_buffer, if_pos rfl]
  omega

/-- A lifecycle that has something left to do can go on, and no other one minds. -/
theorem Genuine.works (cfg : Settings) (T : Time) (draw : ℕ → Bool) (h : s.Genuine) {t : ℕ}
    (ht : s.work t ≠ 0) :
    ∃ a : Act, a.Winds T draw ∧ a.Aside ∧ (step cfg s a).work t < s.work t ∧
      ∀ j, j ≠ t → (step cfg s a).work j = s.work j := by
  cases hget : s.lifecycles.get? t with
  | none => exact absurd (by rw [work, hget]; rfl) ht
  | some l =>
    have hwork : s.work t
        = 4 * l.stage.left + ((s.mocks l.provider).buffer.tasks l.pcid).pending := by
      rw [work, hget]
      rfl
    by_cases hidle : ((s.mocks l.provider).buffer.tasks l.pcid).Idle
    · have hopen : l.stage.isOver = false := by
        rw [hwork, CallTask.pending_eq_zero.mpr hidle] at ht
        rw [← Bool.not_eq_true, ← Stage.left_eq_zero]
        omega
      obtain ⟨a, hwinds, haside, hlt, hothers⟩ := h.advances cfg T draw hget hidle hopen
      exact ⟨a, hwinds, haside, by omega, hothers⟩
    · -- its coroutine sends the next event of the batch
      refine ⟨.resume T l.provider l.pcid false, le_refl T, trivial, ?_, fun j =>
        h.work_of_ne hget (a := .resume l.pcid false) rfl rfl fun _ _ => rfl⟩
      rw [hwork, work]
      show (Option.elim (s.lifecycles.get? t) 0 _) < _
      rw [hget]
      show 4 * l.stage.left + (((s.onBuffer l.provider (.resume l.pcid false)).mocks
        l.provider).buffer.tasks l.pcid).pending < _
      rw [onBuffer_buffer, if_pos rfl]
      exact Nat.add_lt_add_left (MockProvider.resume_pending hidle false) _

end

end State

/-- A scenario that is being wound up in an orderly way. -/
abbrev Winds (cfg : Settings) (draw : ℕ → Bool) : Watch → Watch → Prop :=
  Reaches (Watch.step cfg) (Orderly draw)

namespace Winds

variable {cfg : Settings} {draw : ℕ → Bool} {w w' : Watch}

/-- One orderly action is a scenario of this kind. -/
theorem single (w : Watch) {a : Act} (ha : Orderly draw w a) :
    Winds cfg draw w (w.step cfg a) := ⟨[a], ⟨ha, trivial⟩, rfl⟩

/-- What every action keeps is kept. -/
theorem invariant {I : State → Prop} (hI : ∀ s a, I s → I (Scenario.step cfg s a))
    (h : Winds cfg draw w w') (hw : I w.state) : I w'.state :=
  h.of_run (P := fun w => I w.state) fun acts _ => by
    rw [Watch.run_state]
    exact invariant_run hI hw acts

end Winds

/-- An action that is no business of the loop's is in order when its times are. -/
theorem Act.Aside.orderly {draw : ℕ → Bool} {w : Watch} {a : Act} (h : a.Aside)
    (ha : a.Winds w.clock draw) : Orderly draw w a where
  winds := ha
  once hb := by
    cases a with
    | loop => exact h.elim
    | _ => cases hb
  leaves reaps heq := by
    rw [heq] at h
    exact h.elim

/-- The observer sees nothing of it but the time. -/
theorem Act.Aside.begun {a : Act} (h : a.Aside) (cfg : Settings) (w : Watch) :
    (w.step cfg a).begun = w.begun := by
  cases a with
  | loop | turn => exact h.elim
  | _ => rfl

namespace State

/-- All lifecycles can come to their ends. -/
theorem Genuine.returns (cfg : Settings) (draw : ℕ → Bool) {w : Watch} (h : w.state.Genuine) :
    ∃ w', Winds cfg draw w w' ∧ w'.begun = w.begun ∧ ∀ t, w'.state.work t = 0 := by
  -- one lifecycle after another, each by descent on its own work
  have hone : ∀ (w₁ : Watch) (t : ℕ), w₁.state.Genuine ∧ w₁.begun = w.begun →
      ∃ w', Winds cfg draw w₁ w' ∧ (w'.state.Genuine ∧ w'.begun = w.begun) ∧
        w'.state.work t = 0 ∧ ∀ j, w₁.state.work j = 0 → w'.state.work j = 0 := by
    rintro w₁ t ⟨hw, hbegun⟩
    obtain ⟨w', hreaches, ⟨hw', hkeep⟩, hdone⟩ := Reaches.descend
      (I := fun w' : Watch => (w'.state.Genuine ∧ w'.begun = w.begun) ∧
        ∀ j, j ≠ t → w'.state.work j = w₁.state.work j)
      (P := fun w' : Watch => w'.state.work t = 0) (fun w' : Watch => w'.state.work t)
      (fun w₂ hw₂ hleft => by
        obtain ⟨a, ha, haside, hlt, hothers⟩ := hw₂.1.1.works cfg w₂.clock draw hleft
        exact ⟨w₂.step cfg a, Winds.single w₂ (haside.orderly ha),
          ⟨⟨genuine_step cfg hw₂.1.1 a, (haside.begun cfg w₂).trans hw₂.1.2⟩,
            fun j hj => (hothers j hj).trans (hw₂.2 j hj)⟩, hlt⟩)
      ⟨⟨hw, hbegun⟩, fun _ _ => rfl⟩
    refine ⟨w', hreaches, hw', hdone, fun j hj => ?_⟩
    -- bringing one lifecycle to its end gives no other new work
    by_cases hjt : j = t
    · exact hjt ▸ hdone
    · exact (hkeep j hjt).trans hj
  obtain ⟨w', hreaches, hw', hdone⟩ := Reaches.each hone ⟨h, rfl⟩
    (w.state.lifecycles.rows.map Prod.fst)
    fun t ht => by rw [State.work, Table.get?_eq_none_iff.mpr ht]; rfl
  exact ⟨w', hreaches, hw'.2, hdone⟩

end State

end Scenario

end SmartDialer
