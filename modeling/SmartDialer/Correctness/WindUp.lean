import SmartDialer.Correctness.DrainRun
import SmartDialer.Correctness.Quiescence
import SmartDialer.Correctness.Returning

namespace SmartDialer

open Relational

/-!
# A scenario can always be wound up

Nothing in a scenario waits for something that cannot happen.  An allocation in flight has its
answer, or may still time out; the only drain of the loop is blocked by no other; and a drain that
comes late enough takes what it has fetched off the ledger, whether it belongs to a call or not.

* `Scenario.State.Windable.allocated` — the allocations in flight can come to their ends.
* `Scenario.State.Windable.comes_to_drain` — the loop can come to its drain.
* `drain_backlog` — a late drain leaves fewer events; `Scenario.State.Windable.goes_round` is a
  round of the loop with such a drain, and `Scenario.State.Windable.drains` repeats it.
* `Scenario.State.Windable.winds_up` — from everywhere a quiet state can be reached.
-/

/-! ### Allocations -/

/-- An allocation that has called its provider has its answer. -/
def Sys.Replied (answers : ℕ → Option (Option String)) (s : Sys) : Prop :=
  ∀ k att, s.attempts.get? k = some att → att.placed = true → (answers k).isSome = true

/-- **Step.** An allocation calls its provider only with an answer at hand. -/
theorem replied_step (cfg : Settings) {answers : ℕ → Option (Option String)} {s : Sys}
    (h : s.Replied answers) {a : Act} (ha : ∀ k, a = .placeCall k → (answers k).isSome = true) :
    (step cfg s a).Replied answers := by
  intro k att' hatt' hplaced
  rcases step_attempts_or_new cfg hatt' with ⟨att, hatt, _, hcase⟩ | ⟨_, hnew⟩
  · rcases hcase hplaced with hold | hcall
    · exact h k att hatt hold
    · exact ha k hcall
  · rw [hplaced] at hnew
    cases hnew

/-- An allocation that has called its provider comes to its end. -/
theorem Sys.settle_attempts {s : Sys} {call_id : ℕ} {att : Attempt}
    (hatt : s.attempts.get? call_id = some att) (hp : att.placed = true)
    (x : Attempt → Tx PUnit) : (s.settle call_id x).attempts.get? call_id = none := by
  unfold Sys.settle
  rw [hatt]
  simp [hp]

namespace Scenario.State

section

variable {s : State}

/-- A provider that has answered, or is being called, has answered then. -/
theorem outside_answers_isSome {a : Act} {k : ℕ}
    (h : (s.answers k).isSome = true ∨ .placeCall k ∈ s.writes a) :
    ((s.outside a).answers k).isSome = true := by
  cases a with
  | place clock_now call_id timeout hard_fail pcid =>
    show ((s.place clock_now call_id timeout hard_fail pcid).answers k).isSome = true
    rw [writes] at h
    unfold place
    split at h
    · -- an answer is overwritten, never taken back
      have hupdate : ∀ q : Option String,
          (Function.update s.answers call_id (some q) k).isSome = true := by
        intro q
        by_cases hk : k = call_id
        · rw [hk, Function.update_self]
          rfl
        · rw [Function.update_of_ne hk]
          refine h.resolve_right fun hmem => hk ?_
          cases List.mem_singleton.mp hmem
          rfl
      split <;> exact hupdate _
    · exact h.resolve_right List.not_mem_nil
  | advance task answered event_id clock_now dup =>
    have hold := h.resolve_right List.not_mem_nil
    rw [outside]
    rcases s.advance_cases task answered event_id clock_now dup with hs |
      ⟨_, _, _, _, _, _, _, _, hs⟩ <;> rw [hs] <;> exact hold
  | select injector campaign_id count ids =>
    have hold := h.resolve_right List.not_mem_nil
    rcases s.select_cases injector campaign_id count ids with hs | ⟨_, hs⟩ <;> rw [hs] <;>
      exact hold
  | turn reaps =>
    obtain ⟨phase, hs, _⟩ := s.turn_cases reaps
    rw [outside, hs]
    exact h.resolve_right List.not_mem_nil
  | outage => exact h.resolve_right List.not_mem_nil
  | loop b =>
    refine h.resolve_right fun hmem => ?_
    cases issues_of_mem_writes hmem with
    -- `place_call` is not an action of the loop
    | loop hruns => cases hp : s.phase <;> rw [hp] at hruns <;> cases hruns
  | hire | settle | logout | resume =>
    refine h.resolve_right fun hmem => ?_
    cases issues_of_mem_writes hmem

end

/-- Everything that is known of a scenario that may be wound up. -/
structure Windable (cfg : Settings) (s : State) : Prop extends s.Known cfg where
  replied : s.sys.Replied s.answers

/-- All of it holds before `setup_campaign`. -/
theorem windable_init (cfg : Settings) : init.Windable cfg where
  toKnown := known_init cfg
  replied _ _ h := by cases h

/-- **Step.** Each part is kept, whatever happens in the scenario. -/
theorem windable_step (cfg : Settings) {s : State} (h : s.Windable cfg) (a : Act) :
    (step cfg s a).Windable cfg where
  toKnown := known_step cfg h.toKnown a
  replied := invariant_along (I := Sys.Replied (s.outside a).answers)
    (fun _ _ hs hb => replied_step cfg hs hb)
    (fun k att hatt hp => outside_answers_isSome (Or.inl (h.replied k att hatt hp)))
    (along_of_forall (P := fun b : SmartDialer.Act => ∀ k, b = .placeCall k →
      ((s.outside a).answers k).isSome = true) s.sys
      fun b hb k heq => outside_answers_isSome (Or.inr (by rw [← heq]; exact hb)))

/-- It is kept while the scenario is wound up. -/
theorem Windable.winds {cfg : Settings} {draw : ℕ → Bool} {w w' : Watch}
    (h : w.state.Windable cfg) (hreaches : Winds cfg draw w w') : w'.state.Windable cfg :=
  hreaches.invariant (I := Windable cfg) (fun _ a hs => windable_step cfg hs a) h

/-- The lifecycles and the buffers are left alone. -/
structure SameWorld (s s' : State) : Prop where
  mocks : s'.mocks = s.mocks
  lifecycles : s'.lifecycles = s.lifecycles

/-- Doing nothing leaves them alone. -/
theorem SameWorld.refl (s : State) : s.SameWorld s := ⟨rfl, rfl⟩

/-- They are left alone across any number of steps. -/
theorem SameWorld.trans {s₁ s₂ s₃ : State} (h₁ : s₁.SameWorld s₂) (h₂ : s₂.SameWorld s₃) :
    s₁.SameWorld s₃ := ⟨h₂.mocks.trans h₁.mocks, h₂.lifecycles.trans h₁.lifecycles⟩

/-- The loop going on to its next phase leaves them alone. -/
theorem SameWorld.turn (cfg : Settings) (s : State) (reaps : Bool) :
    s.SameWorld (step cfg s (.turn reaps)) := by
  obtain ⟨phase, hs, _⟩ := s.turn_cases reaps
  rw [step, outside, hs]
  exact ⟨rfl, rfl⟩

/-- The work left to do depends on lifecycles and buffers alone. -/
theorem SameWorld.work {s s' : State} (h : s.SameWorld s') (t : ℕ) : s'.work t = s.work t := by
  unfold State.work
  rw [h.mocks, h.lifecycles]

section

variable {cfg : Settings} {s : State}

/-- What starts no allocation leaves those ended that have ended. -/
theorem step_attempts_none {a : Act} (ha : ∀ b ∈ s.writes a, b.allocates = false) {j : ℕ}
    (hj : s.sys.attempts.get? j = none) : (step cfg s a).sys.attempts.get? j = none := by
  refine invariant_along (I := fun sys : Sys => sys.attempts.get? j = none)
    (fun sys b hs hb => ?_) hj (along_of_forall (P := fun b => b.allocates = false) s.sys ha)
  rw [Option.eq_none_iff_forall_ne_some] at hs ⊢
  intro att' hatt'
  obtain ⟨att, hatt, _⟩ := step_attempts cfg hb hatt'
  exact hs att hatt

/-- An allocation that has called its provider can be settled. -/
theorem Windable.settles (h : s.Windable cfg) {k : ℕ} {att : Attempt}
    (hatt : s.sys.attempts.get? k = some att) (hp : att.placed = true) (T : Time) :
    (step cfg s (.settle T T k)).sys.attempts.get? k = none ∧
      ∀ j, s.sys.attempts.get? j = none →
        (step cfg s (.settle T T k)).sys.attempts.get? j = none := by
  refine ⟨?_, fun j => step_attempts_none fun b hb => ?_⟩
  · obtain ⟨answer, hanswer⟩ := Option.isSome_iff_exists.mp (h.replied k att hatt hp)
    show (run (SmartDialer.step cfg) s.sys (s.writes _)).attempts.get? k = none
    rw [writes, hanswer]
    cases answer with
    | some pcid => exact Sys.settle_attempts hatt hp _
    | none => exact Sys.settle_attempts hatt hp _
  · cases issues_of_mem_writes hb <;> rfl

/-- An allocation that has not called its provider can do so, and then the call may fail. -/
theorem exists_failure (cfg : Settings) (T : Time) (draw : ℕ → Bool) {k : ℕ} {att : Attempt}
    (hatt : s.sys.attempts.get? k = some att) (hp : att.placed = false) :
    ∃ a : Act, a.Winds T draw ∧ a.Aside ∧ (step cfg s a).phase = s.phase ∧
      s.SameWorld (step cfg s a) ∧
      (step cfg s a).sys.attempts.get? k = some { att with placed := true } ∧
      ∀ j, s.sys.attempts.get? j = none → (step cfg s a).sys.attempts.get? j = none := by
  obtain ⟨pcid, hpcid⟩ := Infinite.exists_notMem_finset
    (s.lifecycles.rows.map (·.2.pcid)).toFinset
  -- some id is free, since finitely many have been drawn
  have hfresh : s.lifecycles.select (fun _ l =>
      l.provider == att.reservation.provider && l.pcid == pcid) = [] := by
    refine Table.select_eq_nil_iff.mpr fun t l hl => ?_
    rw [Bool.and_eq_false_imp]
    refine fun _ => beq_eq_false_iff_ne.mpr fun heq => hpcid (List.mem_toFinset.mpr ?_)
    exact List.mem_map.mpr ⟨(t, l), Table.mem_rows.mpr hl, heq⟩
  have hcalling : s.calling k pcid = some att.reservation.provider := by
    unfold calling
    rw [hatt]
    simp [hp, hfresh]
  -- the draw says that `place_call` raises, so no lifecycle is started
  have hplace : s.outside (.place ((T : ℚ) / 1000000) k false true pcid)
      = { s with answers := Function.update s.answers k (some none) } := by
    show s.place _ k false true pcid = _
    unfold place
    rw [hcalling]
    simp [Mock.takes]
  have hframe : (step cfg s (.place ((T : ℚ) / 1000000) k false true pcid)).phase = s.phase ∧
      s.SameWorld (step cfg s (.place ((T : ℚ) / 1000000) k false true pcid)) := by
    rw [step, hplace]
    exact ⟨rfl, rfl, rfl⟩
  refine ⟨.place ((T : ℚ) / 1000000) k false true pcid, ⟨(toTimestamp_div T).ge, rfl⟩, trivial,
    hframe.1, hframe.2, ?_, fun j => step_attempts_none fun b hb => ?_⟩
  · show (run (SmartDialer.step cfg) s.sys (s.writes _)).attempts.get? k = _
    rw [writes, hcalling]
    show (s.sys.placeCall cfg k).attempts.get? k = _
    unfold Sys.placeCall
    rw [hatt]
    simp [hp, Table.get?_modify, hatt]
  · cases issues_of_mem_writes hb
    rfl

/-- All allocations can come to their ends. -/
theorem Windable.allocated (draw : ℕ → Bool) {w : Watch} (h : w.state.Windable cfg) :
    ∃ w', Winds cfg draw w w' ∧ w'.state.Windable cfg ∧ w'.state.phase = w.state.phase ∧
      w.state.SameWorld w'.state ∧ w'.state.sys.attempts.rows = [] := by
  -- one allocation at a time: it is placed if it is not yet, and settled
  have hone : ∀ (w₁ : Watch) (k : ℕ),
      w₁.state.Windable cfg ∧ w₁.state.phase = w.state.phase ∧ w.state.SameWorld w₁.state →
      ∃ w', Winds cfg draw w₁ w' ∧
        (w'.state.Windable cfg ∧ w'.state.phase = w.state.phase ∧ w.state.SameWorld w'.state) ∧
        w'.state.sys.attempts.get? k = none ∧
        ∀ j, w₁.state.sys.attempts.get? j = none → w'.state.sys.attempts.get? j = none := by
    rintro w₁ k ⟨h₁, hphase, hworld⟩
    have hsettle : ∀ w₂ : Watch, Orderly draw w₂ (.settle w₂.clock w₂.clock k) := fun w₂ =>
      Act.Aside.orderly trivial ⟨le_refl _, le_refl _⟩
    cases hatt : w₁.state.sys.attempts.get? k with
    | none => exact ⟨w₁, .refl w₁, ⟨h₁, hphase, hworld⟩, hatt, fun _ hj => hj⟩
    | some att =>
      cases hp : att.placed with
      | true =>
        obtain ⟨hdone, hothers⟩ := h₁.settles hatt hp w₁.clock
        exact ⟨_, Winds.single w₁ (hsettle w₁),
          ⟨windable_step cfg h₁ _, hphase, hworld.trans ⟨rfl, rfl⟩⟩, hdone, hothers⟩
      | false =>
        obtain ⟨a, ha, haside, hphase₂, hworld₂, hatt₂, hothers₂⟩ :=
          exists_failure cfg w₁.clock draw hatt hp
        have h₂ := windable_step cfg h₁ a
        obtain ⟨hdone, hothers⟩ := h₂.settles hatt₂ rfl (w₁.step cfg a).clock
        exact ⟨_, (Winds.single w₁ (haside.orderly ha)).trans (Winds.single _ (hsettle _)),
          ⟨windable_step cfg h₂ _, hphase₂.trans hphase, (hworld.trans hworld₂).trans ⟨rfl, rfl⟩⟩,
          hdone,
          fun j hj => hothers j (hothers₂ j hj)⟩
  -- and then all of them, since a settled one stays settled
  obtain ⟨w', hreaches, ⟨hw', hphase, hworld⟩, hdone⟩ := Reaches.each hone
    ⟨h, rfl, .refl w.state⟩ (w.state.sys.attempts.rows.map Prod.fst)
    fun _ => Table.get?_eq_none_iff.mpr
  refine ⟨w', hreaches, hw', hphase, hworld, Table.rows_eq_nil_iff.mpr fun k att hatt => ?_⟩
  rw [hdone k] at hatt
  cases hatt

end

end Scenario.State

/-! ### Drains -/

/-- A drain that is open can be finished; no other one is in its way. -/
theorem Sys.Lone.closes (cfg : Settings) {s : Sys} (h : s.Lone) {now : Time}
    {todo : List (ℕ × EventRow)} {plan : List Planned}
    (hw : s.drains.get? 0 = some ⟨now, todo, plan⟩) (clock_now : Time) :
    (run (step cfg) s (List.replicate todo.length (.read clock_now 0) ++ [.commit 0])).drains.rows
      = [] := by
  obtain ⟨drains, plan', hrun, hd, hothers, _⟩ := reads_uninterrupted cfg clock_now hw
  -- the reads leave the other drains alone, of which there are none
  have hlone : ∀ w d, drains.get? w = some d → w = 0 := by
    intro w d hd'
    by_contra hne
    rw [hothers w hne] at hd'
    exact hne (h w d hd')
  rw [run_append, hrun, run_cons, run_nil, step]
  unfold Sys.commit
  simp only [hd]
  rw [if_pos]
  · refine Table.rows_eq_nil_iff.mpr fun w d hw' => ?_
    obtain ⟨hne, hold⟩ := Table.get?_of_get?_erase hw'
    exact hne (hlone w d hold)
  · refine Table.select_eq_nil_iff.mpr fun i e _ => ?_
    -- so nobody holds a row that the commit would wait for
    have hfree : i ∉ Sys.lockedBy { s with drains := drains } (· ≠ 0) := by
      rw [mem_lockedBy]
      rintro ⟨w, d, hd', hne, _⟩
      exact (of_decide_eq_true hne) (hlone w d hd')
    rw [Bool.and_eq_false_imp]
    intro _
    simpa using hfree

namespace Scenario.State

section

variable {cfg : Settings} {s : State}

/-- An action of the loop in its phase is one of the system. -/
theorem step_loop (cfg : Settings) (s : State) {b : SmartDialer.Act}
    (hruns : s.phase.runs b = true) :
    step cfg s (.loop b) = { s with sys := SmartDialer.step cfg s.sys b } := by
  rw [step, writes, if_pos hruns]
  rfl

/-- The loop goes on by itself, and at a time that both clocks show. -/
theorem Winds.loop (cfg : Settings) {draw : ℕ → Bool} {w : Watch} {t : Time}
    {bs : List SmartDialer.Act} (hclock : w.clock ≤ t)
    (hruns : ∀ b ∈ bs, w.state.phase.runs b = true)
    (hwinds : ∀ b ∈ bs, (Act.loop b).Winds t draw ∧ (Act.loop b).after t = t ∧
      (Act.loop b).begins = false) :
    ∃ w', Winds cfg draw w w' ∧ w'.begun = w.begun ∧
      w'.state = { w.state with sys := run (SmartDialer.step cfg) w.state.sys bs } := by
  induction bs generalizing w with
  | nil => exact ⟨w, .refl w, rfl, rfl⟩
  | cons b bs ih =>
    obtain ⟨hb, hafter, hno⟩ := hwinds b List.mem_cons_self
    have hstep : (w.step cfg (.loop b)).state = { w.state with
        sys := SmartDialer.step cfg w.state.sys b } :=
      step_loop cfg w.state (hruns b List.mem_cons_self)
    -- none of these actions begins a drain or a tick of the reaper
    have horderly : Orderly draw w (.loop b) :=
      ⟨hb.earlier hclock, fun hyes => (by rw [hno] at hyes; cases hyes), fun _ heq => by cases heq⟩
    -- the clock stays at `t` once it is there
    have hlater : (w.step cfg (.loop b)).clock ≤ t :=
      ((Act.loop b).after_mono hclock).trans hafter.le
    obtain ⟨w', hreaches, hbegun, hstate⟩ := ih (w := w.step cfg (.loop b)) hlater
      (fun c hc => by
        rw [hstep]
        exact hruns c (List.mem_cons_of_mem _ hc))
      fun c hc => hwinds c (List.mem_cons_of_mem _ hc)
    refine ⟨w', (Winds.single w horderly).trans hreaches, hbegun.trans ?_, hstate.trans ?_⟩
    · show ((Act.loop b).begins || w.begun) = w.begun
      rw [hno, Bool.false_or]
    · rw [hstep]
      rfl

/-- The reads and the commit of a drain are such steps. -/
theorem winds_closing (t : Time) (draw : ℕ → Bool) (hp : s.phase = .drain) (n : ℕ) :
    ∀ b ∈ List.replicate n (SmartDialer.Act.read t 0) ++ [.commit 0],
      s.phase.runs b = true ∧ (Act.loop b).Winds t draw ∧ (Act.loop b).after t = t ∧
        (Act.loop b).begins = false := by
  intro b hb
  rw [hp]
  rcases List.mem_append.mp hb with hb | hb
  · rw [(List.mem_replicate.mp hb).2]
    exact ⟨rfl, le_refl t, max_self t, rfl⟩
  · rw [List.mem_singleton.mp hb]
    exact ⟨rfl, trivial, rfl, rfl⟩

/-- A drain of the loop, from its fetch to its commit. -/
theorem Windable.drains_once (draw : ℕ → Bool) {w : Watch} (h : w.state.Windable cfg)
    (hp : w.state.phase = .drain) (hd : w.state.sys.drains.rows = []) (hbegun : w.begun = false)
    {now : Time} (hnow : w.clock ≤ now) :
    ∃ w', Winds cfg draw w w' ∧ w'.begun = true ∧ w.state.SameWorld w'.state ∧
      w'.state.phase = .drain ∧ w'.state.sys.drains.rows = [] ∧ w'.state.sys.db =
        (drain now [] now (secs cfg.wrapup_s) 200).commit w.state.sys.db := by
  have hnone : w.state.sys.drains.get? 0 = none := by
    rw [Table.get?_eq_none_iff, hd]
    exact List.not_mem_nil
  have hfree : w.state.sys.lockedBy (fun _ => true) = [] := by
    rw [Sys.lockedBy, Table.select, hd]
    rfl
  obtain ⟨rows, hfetch, hdb⟩ := drain_uninterrupted cfg hnone now now 200
    fun i e _ _ => by rw [hfree]; exact List.not_mem_nil
  rw [hfree] at hfetch hdb
  have hruns : w.state.phase.runs (.fetch now 0 200) = true := by
    rw [hp]
    rfl
  have hstep : (w.step cfg (.loop (.fetch now 0 200))).state = { w.state with
      sys := SmartDialer.step cfg w.state.sys (.fetch now 0 200) } := step_loop cfg w.state hruns
  have horderly : Orderly draw w (.loop (.fetch now 0 200)) :=
    ⟨⟨hnow, rfl⟩, fun _ => hbegun, fun _ heq => by cases heq⟩
  have hacts := winds_closing now draw hp rows.length
  have hphase := congrArg State.phase hstep
  obtain ⟨w', hreaches, hopen, hstate⟩ := Winds.loop cfg
    (w := w.step cfg (.loop (.fetch now 0 200))) (max_le hnow le_rfl)
    (fun b hb => by rw [hphase]; exact (hacts b hb).1) fun b hb => (hacts b hb).2
  have hend : w'.state = { w.state with
      sys := run (SmartDialer.step cfg) w.state.sys (.fetch now 0 200 ::
        (List.replicate rows.length (.read now 0) ++ [.commit 0])) } := by
    rw [hstate, hstep]
    rfl
  refine ⟨w', (Winds.single w horderly).trans hreaches, hopen, ?_, ?_, ?_, ?_⟩
  · rw [hend]
    exact ⟨rfl, rfl⟩
  · rw [hend]
    exact hp
  · -- nothing is open but the drain that has just been fetched
    have hfetched : (SmartDialer.step cfg w.state.sys (.fetch now 0 200)).drains.get? 0
        = some ⟨now, rows, []⟩ := by
      rw [SmartDialer.step, Sys.fetch, hfree, hfetch]
      show (w.state.sys.drains.insertAt 0 _).get? 0 = _
      rw [Table.get?_insertAt, if_pos rfl, hnone]
      rfl
    have hlone : (SmartDialer.step cfg w.state.sys (.fetch now 0 200)).Lone :=
      lone_step cfg h.concluded.lone fun _ _ _ heq => by cases heq; rfl
    rw [hend]
    exact hlone.closes cfg hfetched now
  · rw [hend]
    exact hdb

/-- The loop goes on to its next drain, which it has not begun. -/
theorem turns_to_drain (cfg : Settings) (draw : ℕ → Bool) {w : Watch}
    (hp : w.state.phase = .tick) (hempty : w.state.sys.attempts.rows = []) :
    ∃ w', Winds cfg draw w w' ∧ w'.begun = false ∧
      w'.state = { w.state with phase := .drain } := by
  have hturn : Scenario.step cfg w.state (.turn false) = { w.state with phase := .drain } := by
    show { w.state.turn false with sys := w.state.sys } = _
    unfold turn
    rw [hp]
    simp only [hempty, if_true]
  refine ⟨_, Winds.single w (a := .turn false)
    ⟨trivial, fun h => (by cases h), fun _ _ hne => absurd hp hne⟩, ?_, hturn⟩
  show (decide ((Scenario.step cfg w.state (.turn false)).phase = w.state.phase) && _) = false
  rw [hturn, hp]
  rfl

/-- The loop can come to a drain that it has finished. -/
theorem Windable.comes_to_drain (draw : ℕ → Bool) {w : Watch} (h : w.state.Windable cfg)
    (hbegun : w.begun = true) :
    ∃ w', Winds cfg draw w w' ∧ w'.state.Windable cfg ∧ w.state.SameWorld w'.state ∧
      w'.state.phase = .drain ∧ w'.state.sys.drains.rows = [] ∧ w'.begun = true := by
  -- it has to await the allocations of a tick
  have htick : ∀ {w : Watch}, w.state.Windable cfg → w.state.phase = .tick →
      ∃ w', Winds cfg draw w w' ∧ w'.state.Windable cfg ∧ w.state.SameWorld w'.state ∧
        w'.state.phase = .drain ∧ w'.state.sys.drains.rows = [] ∧ w'.begun = true := by
    intro w h hp
    obtain ⟨w₁, hreaches, h₁, hphase, hworld, hempty⟩ := h.allocated draw
    obtain ⟨w₂, hturn, hbegun₂, hstate₂⟩ := turns_to_drain cfg draw (hphase.trans hp) hempty
    have h₂ := h₁.winds hturn
    have hclosed : w₂.state.sys.drains.rows = [] := by
      rw [hstate₂]
      exact h₁.ordered.drains (by rw [hphase, hp]; decide)
    obtain ⟨w₃, hdrain, hbegun₃, hworld₃, hp₃, hd₃, _⟩ := h₂.drains_once draw
      (by rw [hstate₂]) hclosed hbegun₂ le_rfl
    refine ⟨w₃, (hreaches.trans hturn).trans hdrain, h₂.winds hdrain, ?_, hp₃, hd₃, hbegun₃⟩
    exact (hworld.trans ⟨by rw [hstate₂], by rw [hstate₂]⟩).trans hworld₃
  cases hp : w.state.phase with
  | tick => exact htick h hp
  | reap =>
    have hturn : Scenario.step cfg w.state (.turn false) = { w.state with phase := .tick } := by
      show { w.state.turn false with sys := w.state.sys } = _
      unfold turn
      rw [hp]
    obtain ⟨w', hreaches, hw', hworld, hrest⟩ := htick (w := w.step cfg (.turn false))
      (windable_step cfg h (.turn false)) (congrArg State.phase hturn)
    refine ⟨w', (Winds.single w (a := .turn false)
      ⟨trivial, fun h => (by cases h), fun _ _ _ => hbegun⟩).trans hreaches, hw', ?_, hrest⟩
    exact (SameWorld.turn cfg w.state false).trans hworld
  | drain =>
    cases hd : w.state.sys.drains.get? 0 with
    | none =>
      refine ⟨w, .refl w, h, .refl _, hp, Table.rows_eq_nil_iff.mpr fun v d hv => ?_, hbegun⟩
      rw [h.concluded.lone v d hv, hd] at hv
      cases hv
    | some d =>
      -- the drain that is open is finished first
      have hacts := winds_closing w.clock draw hp d.todo.length
      obtain ⟨w', hwinds, hbegun', hstate⟩ := Winds.loop cfg le_rfl (fun b hb => (hacts b hb).1)
        fun b hb => (hacts b hb).2
      refine ⟨w', hwinds, h.winds hwinds, ?_, ?_, ?_, hbegun'.trans hbegun⟩
      · rw [hstate]
        exact ⟨rfl, rfl⟩
      · rw [hstate]
        exact hp
      · rw [hstate]
        exact h.concluded.lone.closes cfg hd w.clock

/-- Every event of a mock names a state. -/
theorem Genuine.incoming (h : s.Genuine) {i : ℕ} {e : EventRow}
    (he : s.sys.db.provider_events.get? i = some e) : e.incoming ≠ none := by
  obtain ⟨pcid, em, _, hem, _, htype⟩ := h.heard.ledger i e he
  obtain ⟨_, l, _, _, _, hscript⟩ := h.scripted.of_raws (MockProvider.mem_raws hem)
  rw [EventRow.incoming, htype]
  show CallState.ofString? (mapProviderEvent (mapProviderEvent em.raw_event_type)) ≠ none
  rcases Stage.of_script hscript with hr | ⟨hr, _⟩ | ⟨hr, _⟩ | ⟨hr, _⟩ <;> rw [hr] <;> decide

end

end Scenario.State

/-- The events that are still to be applied. -/
def Db.backlog (db : Db) : Finset ℕ :=
  ((db.provider_events.select fun _ e => !e.applied).map Prod.fst).toFinset

/-- The backlog consists of the unapplied rows. -/
theorem Db.mem_backlog {db : Db} {i : ℕ} :
    i ∈ db.backlog ↔ ∃ e, db.provider_events.get? i = some e ∧ e.applied = false := by
  unfold Db.backlog
  rw [List.mem_toFinset, List.mem_map]
  constructor
  · rintro ⟨⟨i, e⟩, he, rfl⟩
    obtain ⟨hrow, happlied⟩ := Table.mem_select.mp he
    exact ⟨e, hrow, by simpa using happlied⟩
  · rintro ⟨e, hrow, happlied⟩
    exact ⟨(i, e), Table.mem_select.mpr ⟨hrow, by simp [happlied]⟩, rfl⟩

/-- A drain that nobody hinders fetches something, unless there is nothing. -/
theorem EventRepo.fetchUnapplied_ne_nil {limit : ℕ} {db : Db} {rows : List (ℕ × EventRow)}
    (hlimit : 0 < limit) (hfetch : (EventRepo.fetchUnapplied [] limit).run db = .ok (rows, db))
    (hback : db.backlog.Nonempty) : rows ≠ [] := by
  obtain ⟨i, hi⟩ := hback
  obtain ⟨e, he, happlied⟩ := Db.mem_backlog.mp hi
  have hmem : (i, e) ∈ db.provider_events.select fun i e => !e.applied && !List.contains [] i :=
    Table.mem_select.mpr ⟨he, by rw [happlied]; rfl⟩
  cases hfetch
  have hpos := List.length_pos_of_mem ((List.mem_insertionSort
    fun x y : ℕ × EventRow => x.2.received_at ≤ y.2.received_at).mpr hmem)
  rw [← List.length_pos_iff_ne_nil, List.length_take]
  exact lt_min hlimit hpos

/-- A drain that comes late enough makes the backlog smaller: what it fetches is applied, and what
    belongs to no call is given up. -/
theorem drain_backlog {now : Time} (clock_now wrapup : Time) {limit : ℕ} {db : Db}
    (hlimit : 0 < limit)
    (hin : ∀ i e, db.provider_events.get? i = some e → e.incoming ≠ none)
    (hlate : ∀ i e, db.provider_events.get? i = some e → e.received_at < now - secs 60)
    (hback : db.backlog.Nonempty) :
    ((drain now [] clock_now wrapup limit).commit db).backlog ⊂ db.backlog := by
  obtain ⟨rows, db', hfetch, hdrain, _, hothers, images, _, hout⟩ :=
    drain_outcomes now [] clock_now wrapup limit db
  rw [(Txn.commit_of_run hdrain).1]
  -- what has been fetched is applied
  have hfetched : ∀ ev ∈ rows, ∃ e', db'.provider_events.get? ev.1 = some e' ∧
      e'.applied = true := by
    intro ev hev
    obtain ⟨hrow, happlied, f, hf, ho⟩ := hout ev hev
    refine ⟨_, hf, ?_⟩
    cases ho with
    | marked => rw [EventRepo.sweptRow_applied now rfl]; rfl
    | unknown => exact EventRepo.sweptRow_tagged rfl (hlate ev.1 ev.2 hrow)
    | raised _ hnone => exact absurd hnone (hin ev.1 ev.2 hrow)
  have hmem : ∀ {i e'}, db'.provider_events.get? i = some e' → e'.applied = false →
      i ∉ rows.map Prod.fst := by
    intro i e' he' happlied hi
    obtain ⟨ev, hev, rfl⟩ := List.mem_map.mp hi
    obtain ⟨e'', he'', happlied'⟩ := hfetched ev hev
    rw [he', Option.some.injEq] at he''
    rw [← he'', happlied] at happlied'
    cases happlied'
  refine Finset.ssubset_iff_subset_ne.mpr ⟨fun i hi => ?_, fun heq => ?_⟩
  · obtain ⟨e', he', happlied⟩ := Db.mem_backlog.mp hi
    rw [hothers i (hmem he' happlied)] at he'
    obtain ⟨e, he, rfl⟩ := Option.map_eq_some_iff.mp he'
    refine Db.mem_backlog.mpr ⟨e, he, ?_⟩
    by_contra hnot
    rw [Bool.not_eq_false] at hnot
    rw [EventRepo.sweptRow_applied now hnot, hnot] at happlied
    cases happlied
  · obtain ⟨ev, hev⟩ := List.exists_mem_of_ne_nil rows
      (EventRepo.fetchUnapplied_ne_nil hlimit hfetch hback)
    obtain ⟨hrow, happlied, _⟩ := hout ev hev
    obtain ⟨e', he', hstill⟩ := Db.mem_backlog.mp
      (heq ▸ Db.mem_backlog.mpr ⟨ev.2, hrow, happlied⟩)
    exact hmem he' hstill (List.mem_map_of_mem hev)

namespace Scenario.State

section

variable {cfg : Settings} {s : State}

/-- The loop goes round once more, and its drain makes the backlog smaller. -/
theorem Windable.goes_round (draw : ℕ → Bool) {w : Watch} (h : w.state.Windable cfg)
    (hp : w.state.phase = .drain) (hd : w.state.sys.drains.rows = []) (hbegun : w.begun = true)
    (hback : w.state.sys.db.backlog ≠ ∅) :
    ∃ w', Winds cfg draw w w' ∧ w'.begun = true ∧ w.state.SameWorld w'.state ∧
      w'.state.phase = .drain ∧ w'.state.sys.drains.rows = [] ∧
      w'.state.sys.db.backlog ⊂ w.state.sys.db.backlog := by
  -- the tick finds no allocations to await
  have hturn : Scenario.step cfg w.state (.turn false) = { w.state with phase := .tick } := by
    show { w.state.turn false with sys := w.state.sys } = _
    unfold turn
    rw [hp]
    simp only [hd, if_true]
    rfl
  have htick : Winds cfg draw w (w.step cfg (.turn false)) :=
    Winds.single w ⟨trivial, fun h => (by cases h), fun _ _ _ => hbegun⟩
  obtain ⟨w₂, hnext, hbegun₂, hstate₂⟩ := turns_to_drain cfg draw
    (w := w.step cfg (.turn false)) (congrArg State.phase hturn) (by
      show (Scenario.step cfg w.state (.turn false)).sys.attempts.rows = []
      rw [hturn]
      exact h.ordered.attempts (by rw [hp]; decide))
  have hsame : w₂.state = w.state := by
    rw [hstate₂]
    show { Scenario.step cfg w.state (.turn false) with phase := .drain } = w.state
    rw [hturn, ← hp]
  -- by then every event is more than a minute old
  obtain ⟨last, hlast⟩ := w.state.sys.db.provider_events.exists_after fun e => some e.received_at
  have hlate : ∀ i e, w.state.sys.db.provider_events.get? i = some e →
      e.received_at < max w₂.clock (last + secs 60) - secs 60 := by
    intro i e he
    have hlt : e.received_at + secs 60 < last + secs 60 :=
      Int.add_lt_add_right (hlast i e he _ rfl) _
    exact lt_sub_iff_add_lt.mpr (hlt.trans_le (le_max_right _ _))
  have h₂ : w₂.state.Windable cfg := hsame ▸ h
  obtain ⟨w', hdrain, hbegun', hworld, hp', hd', hdb⟩ := h₂.drains_once draw (by rw [hsame, hp])
    (by rw [hsame, hd]) hbegun₂ (le_max_left w₂.clock (last + secs 60))
  rw [hsame] at hworld hdb
  refine ⟨w', (htick.trans hnext).trans hdrain, hbegun', hworld, hp', hd', ?_⟩
  rw [hdb]
  exact drain_backlog _ _ (by decide) (fun i e => h.genuine.incoming) hlate
    (Finset.nonempty_iff_ne_empty.mpr hback)

/-- All events can be applied. -/
theorem Windable.drains (draw : ℕ → Bool) {w : Watch} (h : w.state.Windable cfg)
    (hp : w.state.phase = .drain) (hd : w.state.sys.drains.rows = []) (hbegun : w.begun = true) :
    ∃ w', Winds cfg draw w w' ∧ (w'.state.Windable cfg ∧ w.state.SameWorld w'.state ∧
      w'.state.phase = .drain ∧ w'.state.sys.drains.rows = [] ∧ w'.begun = true) ∧
      w'.state.sys.db.backlog = ∅ := by
  refine Reaches.descend
    (I := fun w' : Watch => w'.state.Windable cfg ∧ w.state.SameWorld w'.state ∧
      w'.state.phase = .drain ∧ w'.state.sys.drains.rows = [] ∧ w'.begun = true)
    (P := fun w' : Watch => w'.state.sys.db.backlog = ∅)
    (fun w' : Watch => w'.state.sys.db.backlog.card)
    (fun w₁ hw₁ hback => ?_) ⟨h, .refl _, hp, hd, hbegun⟩
  obtain ⟨h₁, hworld, hp₁, hd₁, hbegun₁⟩ := hw₁
  obtain ⟨w₂, hwinds, hbegun₂, hworld₂, hp₂, hd₂, hless⟩ :=
    h₁.goes_round draw hp₁ hd₁ hbegun₁ hback
  exact ⟨w₂, hwinds, ⟨h₁.winds hwinds, hworld.trans hworld₂, hp₂, hd₂, hbegun₂⟩,
    Finset.card_lt_card hless⟩

/-- Whatever has happened, a scenario can come to a drain in which nothing is left to do. -/
theorem Windable.winds_up (draw : ℕ → Bool) {w : Watch} (h : w.state.Windable cfg)
    (hbegun : w.begun = true) :
    ∃ w', Winds cfg draw w w' ∧ w'.state.Windable cfg ∧ w'.state.Quiet ∧
      w'.state.phase = .drain ∧ w'.state.sys.drains.rows = [] ∧ w'.begun = true := by
  -- the lifecycles return first, so the ledger gets no event after that
  obtain ⟨w₁, hreaches₁, hbegun₁, hreturned⟩ := h.genuine.returns cfg draw
  have h₁ := h.winds hreaches₁
  obtain ⟨w₂, hreaches₂, h₂, hworld₂, hp, hd, hbegun₂⟩ :=
    h₁.comes_to_drain draw (hbegun₁.trans hbegun)
  -- each round of the loop leaves fewer of the events that are there
  obtain ⟨w₃, hreaches₃, ⟨h₃, hworld₃, hp₃, hd₃, hbegun₃⟩, hback⟩ :=
    h₂.drains draw hp hd hbegun₂
  refine ⟨w₃, (hreaches₁.trans hreaches₂).trans hreaches₃, h₃,
    ⟨forall_work_eq_zero.mp fun t => ?_, fun i e he => ?_⟩, hp₃, hd₃, hbegun₃⟩
  · rw [hworld₃.work, hworld₂.work, hreturned t]
  · by_contra hnot
    rw [Bool.not_eq_true] at hnot
    have hmem := Db.mem_backlog.mpr ⟨e, he, hnot⟩
    rw [hback] at hmem
    exact absurd hmem (Finset.notMem_empty i)

end

end Scenario.State

end SmartDialer
