import SmartDialer.Correctness.Bookkeeping
import SmartDialer.Correctness.Lifecycles
import SmartDialer.Correctness.Pairing
import SmartDialer.Correctness.Records
import SmartDialer.Correctness.References

namespace SmartDialer

open Relational

/-!
# What a scenario guarantees

Some results assume that the reaper does not overtake an allocation.  A scenario has to assume
nothing of the kind: its loop awaits the allocations of a tick before it comes to the reaper, and so
each of them finds its call as it has left it.

* `Scenario.State.Ordered` — what is open in which phase of the loop.
* `scenario_books` — the attempts on every borrower are counted exactly, in every scenario.
-/

/-! ### Phases -/

/-- The loop allocates, drains and reaps in the phases of these names. -/
theorem Scenario.Phase.eq_of_runs {phase : Phase} {a : SmartDialer.Act} (h : phase.runs a = true) :
    (a.allocates = true → phase = .tick) ∧ (a.fetches = true → phase = .drain) ∧
      ∀ now clock_now registry, a = .reap now clock_now registry → phase = .reap := by
  refine ⟨fun ha => ?_, fun ha => ?_, ?_⟩
  · cases a <;> cases ha
    cases phase <;> first | rfl | cases h
  · cases a <;> cases ha
    cases phase <;> first | rfl | cases h
  · rintro now clock_now registry rfl
    cases phase <;> first | rfl | cases h

namespace Scenario.State

/-- Allocations are in flight only within a tick, and the drain is open only in its phase. -/
structure Ordered (s : State) : Prop where
  attempts : s.phase ≠ .tick → s.sys.attempts.rows = []
  drains : s.phase ≠ .drain → s.sys.drains.rows = []

/-- Nothing is in flight. -/
theorem ordered_init : init.Ordered := ⟨fun _ => rfl, fun _ => rfl⟩

section

variable {s : State} {a : Act}

/-- Only the loop allocates, drains and reaps. -/
theorem runs_of_mem_writes {b : SmartDialer.Act} (hb : b ∈ s.writes a) :
    a = .loop b ∧ s.phase.runs b = true ∨ b.allocates = false ∧ b.fetches = false ∧
      ∀ now clock_now registry, b ≠ .reap now clock_now registry := by
  cases issues_of_mem_writes hb with
  | loop hruns => exact Or.inl ⟨rfl, hruns⟩
  | create | login | placed | accepted | rejected | logout | deliver =>
    exact Or.inr ⟨rfl, rfl, fun _ _ _ h => nomatch h⟩

/-- The loop stays in its phase while others act. -/
theorem outside_phase (ha : ∀ reaps, a ≠ .turn reaps) : (s.outside a).phase = s.phase := by
  cases a with
  | turn reaps => exact absurd rfl (ha reaps)
  | place clock_now call_id timeout hard_fail pcid =>
    rw [outside]
    rcases s.place_cases clock_now call_id timeout hard_fail pcid with hs |
      ⟨_, _, _, _, hs | hs⟩ <;> rw [hs]
  | select injector campaign_id count ids =>
    rcases s.select_cases injector campaign_id count ids with hs | ⟨_, hs⟩ <;> rw [hs]
  | advance task answered event_id clock_now dup =>
    rw [outside]
    rcases s.advance_cases task answered event_id clock_now dup with hs |
      ⟨_, _, _, _, _, _, _, _, hs⟩ <;> rw [hs]
    rfl
  | hire | loop | settle | outage | logout | resume => rfl

/-- **Step.** -/
theorem ordered_step (cfg : Settings) (h : s.Ordered) (a : Act) : (step cfg s a).Ordered := by
  have hattempts : s.phase ≠ .tick → (step cfg s a).sys.attempts.rows = [] := by
    intro hp
    refine invariant_along (I := fun sys : Sys => sys.attempts.rows = [])
      (fun sys b hempty hb => ?_) (h.attempts hp)
      (along_of_forall (P := fun b => b.allocates = false) s.sys fun b hb => ?_)
    · rw [Table.rows_eq_nil_iff] at hempty ⊢
      intro k att' hatt'
      obtain ⟨att, hatt, _⟩ := step_attempts cfg hb hatt'
      exact hempty k att hatt
    · rcases runs_of_mem_writes hb with ⟨_, hruns⟩ | ⟨hno, _⟩
      · by_contra hall
        exact hp ((Phase.eq_of_runs hruns).1 (by simpa using hall))
      · exact hno
  have hdrains : s.phase ≠ .drain → (step cfg s a).sys.drains.rows = [] := by
    intro hp
    refine invariant_along (I := fun sys : Sys => sys.drains.rows = [])
      (fun sys b hempty hb => ?_) (h.drains hp)
      (along_of_forall (P := fun b => b.fetches = false) s.sys fun b hb => ?_)
    · rw [Table.rows_eq_nil_iff] at hempty ⊢
      intro w d' hd'
      obtain ⟨d, hd⟩ := step_drains cfg hb hd'
      exact hempty w d hd
    · rcases runs_of_mem_writes hb with ⟨_, hruns⟩ | ⟨_, hno, _⟩
      · by_contra hall
        exact hp ((Phase.eq_of_runs hruns).2.1 (by simpa using hall))
      · exact hno
  by_cases ha : ∀ reaps, a ≠ .turn reaps
  · have hphase : (step cfg s a).phase = s.phase := outside_phase ha
    exact ⟨fun hp => hattempts (hphase ▸ hp), fun hp => hdrains (hphase ▸ hp)⟩
  · push Not at ha
    obtain ⟨reaps, rfl⟩ := ha
    obtain ⟨phase, hs, hcase⟩ := s.turn_cases reaps
    have hphase : (step cfg s (.turn reaps)).phase = phase := congrArg State.phase hs
    rcases hcase with rfl | ⟨htick, hdrain⟩
    · exact ⟨fun hp => hattempts (hphase ▸ hp), fun hp => hdrains (hphase ▸ hp)⟩
    · -- what the loop has awaited is empty, and the rest was empty before
      refine ⟨fun _ => ?_, fun _ => ?_⟩
      · by_cases hp : s.phase = .tick
        · exact htick hp
        · exact hattempts hp
      · by_cases hp : s.phase = .drain
        · exact hdrain hp
        · exact hdrains hp

/-- The reaper finds no allocation in flight. -/
theorem Ordered.reaped (h : s.Ordered) {b : SmartDialer.Act} (hb : b ∈ s.writes a)
    {now clock_now : Time} {registry : Option (List String)}
    (heq : b = .reap now clock_now registry) : s.writes a = [b] ∧ s.sys.attempts.rows = [] := by
  rcases runs_of_mem_writes hb with ⟨rfl, hruns⟩ | ⟨_, _, hno⟩
  · refine ⟨by rw [writes, if_pos hruns], h.attempts ?_⟩
    rw [(Phase.eq_of_runs hruns).2.2 now clock_now registry heq]
    decide
  · exact absurd heq (hno now clock_now registry)

/-- So it overtakes none of them. -/
theorem Ordered.reaperWaits (h : s.Ordered) (cfg : Settings) (a : Act) :
    Along (SmartDialer.step cfg) ReaperWaits s.sys (s.writes a) := by
  by_cases hreap : ∃ now clock_now registry, .reap now clock_now registry ∈ s.writes a
  · obtain ⟨now, clock_now, registry, hb⟩ := hreap
    obtain ⟨hwrites, hempty⟩ := h.reaped hb rfl
    rw [hwrites]
    exact ⟨fun k att hatt => absurd hatt (Table.rows_eq_nil_iff.mp hempty k att), trivial⟩
  · refine Along.mono (fun sys b hb => ?_) (along_of_forall
      (P := fun b => ∀ now clock_now registry, b ≠ .reap now clock_now registry) s.sys
      fun b hb now clock_now registry heq => hreap ⟨now, clock_now, registry, heq ▸ hb⟩)
    cases b with
    | reap now clock_now registry => exact absurd rfl (hb now clock_now registry)
    | _ => trivial

end

/-- **Run.** Every state of a scenario is in order. -/
theorem ordered_run (cfg : Settings) (acts : List Act) : (run (step cfg) init acts).Ordered :=
  invariant_run (I := Ordered) (fun _ a h => ordered_step cfg h a) ordered_init acts

/-- A scenario is a run of the system in which the reaper waits. -/
theorem Ordered.reaches (cfg : Settings) {s : State} (h : s.Ordered) (acts : List Act) :
    Reaches (SmartDialer.step cfg) ReaperWaits s.sys (run (step cfg) s acts).sys :=
  related_run (I := Ordered)
    (R := fun s s' => Reaches (SmartDialer.step cfg) ReaperWaits s.sys s'.sys)
    (fun s => .refl s.sys) (fun _ _ _ h₁ h₂ => h₁.trans h₂)
    (fun _ a hs => ordered_step cfg hs a)
    (fun s a hs => (Reaches.refl s.sys).append (hs.reaperWaits cfg a)) h acts

end Scenario.State

/-! ### Borrowers -/

/-- Everything about the attempts on the borrowers, where the reaper waits. -/
structure Sys.Booked (s : Sys) : Prop where
  awaited : s.Awaited
  serial : s.books.Serial
  exact : s.books.Exact

/-- **Step.** While the reaper waits, every entry of the books is punctual. -/
theorem booked_step (cfg : Settings) {s : Sys} {a : Act} (h : s.Booked) (ha : ReaperWaits s a) :
    (step cfg s a).Booked := by
  have hpath := step_books_punctual cfg h.awaited ha
  obtain ⟨hserial, hexact⟩ := hpath.invariant (I := fun B => B.Serial ∧ B.Exact)
    (fun _ _ _ hB hK hm => ⟨hB.1.step hK.timely hm, hB.2.step hB.1 hK hm⟩) ⟨h.serial, h.exact⟩
  exact ⟨awaited_step cfg h.awaited ha, hserial, hexact⟩

/-- **Run.** All of it holds in every state of such a run. -/
theorem booked_of_reaches {cfg : Settings} {s : Sys}
    (h : Reaches (step cfg) ReaperWaits Sys.init s) : s.Booked :=
  h.of_run fun _ hacts => invariant_along (I := Sys.Booked) (fun _ _ hs ha => booked_step cfg hs ha)
    ⟨awaited_init, .init, .init⟩ hacts

/-- A borrower that is out of the pool stays out. -/
theorem closed_of_reaches {cfg : Settings} {s s' : Sys} (hs : s.Booked)
    (h : Reaches (step cfg) ReaperWaits s s') : s.books.KeepsClosed s'.books := by
  refine h.of_run (P := fun s' => s.books.KeepsClosed s'.books) fun _ hacts => ?_
  exact related_of_simulation (L := Sys.Awaited) (G := ReaperWaits) (H := Books.Punctual)
    (I := fun B => B.Serial ∧ B.Exact) (R := Books.KeepsClosed)
    (fun _ _ hs ha => awaited_step cfg hs ha) (fun _ _ hs ha => step_books_punctual cfg hs ha)
    (fun _ _ _ hb _ => hb) (fun _ _ _ h₁ h₂ k b hb hc => h₂ k b (h₁ k b hb hc) hc)
    (fun _ _ _ hB hK hm => ⟨hB.1.step hK.timely hm, hB.2.step hB.1 hK hm⟩)
    (fun _ _ _ hB hK hm => hB.2.keepsClosed hK hm) hs.awaited ⟨hs.serial, hs.exact⟩ hacts

/-- **Borrowers.** In every scenario, whatever is drawn and injected, a borrower has at most one
    live call, the attempts counted are its calls that have ended, a borrower that is done or
    exhausted stays so, and a call whose provider has not answered yet is still reserved. -/
theorem scenario_books (cfg : Settings) (acts more : List Scenario.Act) :
    let s := (run (Scenario.step cfg) Scenario.init acts).sys
    let later := (run (Scenario.step cfg) Scenario.init (acts ++ more)).sys
    s.OneLiveCall ∧
    (∀ k b, s.db.borrowers.get? k = some b → b.attempt_count = s.db.calls.count fun _ c =>
      c.borrower_id == k && decide (c.state ∈ terminal)) ∧
    (∀ k b, s.db.borrowers.get? k = some b → b.state = .DONE ∨ b.state = .EXHAUSTED →
      later.db.borrowers.get? k = some b) ∧
    ∀ k att, s.attempts.get? k = some att → ∃ c, s.db.calls.get? k = some c ∧
      c.state = .RESERVED ∧ c.agent_id = some att.reservation.agent_id ∧
      c.borrower_id = att.reservation.borrower_id := by
  intro s later
  have hordered := Scenario.State.ordered_run cfg acts
  have hbooked : s.Booked :=
    booked_of_reaches (Scenario.State.ordered_init.reaches cfg acts)
  refine ⟨fun i c hc j d hd hb hcl hdl => ?_, fun k b hb => ?_, fun k b hb hclosed => ?_,
    fun k att hatt => ?_⟩
  · rw [mem_terminal, Bool.not_eq_true] at hcl hdl
    exact hbooked.serial.single i j c d hc hd hb hcl hdl
  · rw [hbooked.exact.count k b hb]
    apply Table.count_congr
    intro i c _
    rw [Bool.eq_iff_iff, Bool.and_eq_true, Bool.and_eq_true, decide_eq_true_eq, mem_terminal]
  · -- a closed borrower stays as it is in every run of the steps, and a scenario is one
    have hreaches := hordered.reaches cfg more
    rw [← run_append] at hreaches
    exact closed_of_reaches hbooked hreaches k b hb hclosed
  · obtain ⟨hid, c, hc, hagent, hborrower, hs⟩ := hbooked.awaited.prompt k att hatt
    exact ⟨c, hc, hs, hagent, hborrower⟩

end SmartDialer
