import SmartDialer.Correctness.Absences
import SmartDialer.Correctness.RowShapes
import SmartDialer.Correctness.WindUp

namespace SmartDialer

open Relational

/-!
# A scenario can always come to rest

When nothing is left to do, some calls may still wait to be dialed: an allocation has given up
between its two transactions.  They hold an agent and a borrower, but not forever, since every lease
and every lock has an end.  A tick of the reaper after all of them sets everybody free.

* `Floor.Timed` — calls that wait to be dialed and borrowers that are locked have a time limit.
* `Sys.Over` — all limits are over; `Sys.Over.reap` says what a tick makes of the rows then.
* `scenario_comes_to_rest` — from everywhere a state can be reached in which nobody is busy.
-/

/-! ### Time limits -/

/-- A call that waits to be dialed has a lease. -/
def CallRow.Timed (c : CallRow) : Prop := c.state = .RESERVED → c.lease_expires_at ≠ none

/-- A locked borrower has a time limit, and none is in a state that nothing writes. -/
def BorrowerRow.Timed (b : BorrowerRow) : Prop :=
  match b.state with
  | .LOCKED => b.locked_until ≠ none
  | .PENDING | .DONE | .EXHAUSTED => True
  | .IN_CALL | .SUPPRESSED => False

/-- A call that has ended does not wait to be dialed. -/
theorem CallRow.timed_of_terminal {c : CallRow} (h : c.state.isTerminal = true) : c.Timed := by
  intro hs
  rw [hs] at h
  cases h

namespace BorrowerRepo

/-- `RESCHEDULE` leaves nothing that would need a time limit. -/
theorem timed_rescheduledRow (now backoff : Time) (b : BorrowerRow) :
    (rescheduledRow now backoff b).Timed := by
  unfold BorrowerRow.Timed
  rcases rescheduledRow_state now backoff b with h | h <;> rw [h.2] <;> trivial

/-- The end of a call leaves its borrower without a lock. -/
theorem timed_endedRow (now : Time) (call_state : CallState) (backoff : Time) (b : BorrowerRow) :
    (endedRow now call_state backoff b).Timed := by
  unfold endedRow
  split
  · trivial
  · exact timed_rescheduledRow now backoff b

end BorrowerRepo

namespace Floor

/-- The calls and the borrowers have their time limits. -/
structure Timed (F : Floor) : Prop where
  calls : ∀ k c, F.calls.get? k = some c → c.Timed
  borrowers : ∀ k b, F.borrowers.get? k = some b → b.Timed

/-- **Step.** -/
theorem Timed.step {F F' : Floor} {m : Move} (h : F.Timed) (hm : F.Step m F') : F'.Timed := by
  -- a call that is there is set to a state that is not `RESERVED`
  have hcall : ∀ {k c} {f : CallRow → CallRow}, F.calls.get? k = some c → (f c).Timed →
      ∀ i d, (F.calls.alter k f).get? i = some d → d.Timed := by
    intro k c f hc hf
    refine Table.forall_get?_alter h.calls fun d hd => ?_
    rw [hc] at hd
    cases hd
    exact hf
  cases hm with
  | hired | staffed | unreserved | placed | forgotten | dialedLate | reclaimed | wrapupOver =>
    exact ⟨h.calls, h.borrowers⟩
  | seeded => exact ⟨h.calls, Table.forall_get?_push h.borrowers trivial⟩
  | unclaimed =>
    refine ⟨h.calls, ?_⟩
    show ∀ k b, ((F.borrowers.alter _ _).alter _ _).get? k = some b → b.Timed
    rw [Table.alter_alter]
    exact Table.forall_get?_alter h.borrowers fun _ _ => trivial
  | allotted =>
    exact ⟨Table.forall_get?_push h.calls fun _ => Option.some_ne_none _,
      Table.forall_get?_alter h.borrowers fun _ _ => Option.some_ne_none _⟩
  | dialed _ hc => exact ⟨hcall hc (fun hs => nomatch hs), h.borrowers⟩
  | refused _ hc _ _ hend =>
    exact ⟨hcall hc (CallRow.timed_of_terminal hend),
      Table.forall_get?_alter h.borrowers fun b _ => BorrowerRepo.timed_rescheduledRow _ _ b⟩
  | refusedLate =>
    exact ⟨h.calls,
      Table.forall_get?_alter h.borrowers fun b _ => BorrowerRepo.timed_rescheduledRow _ _ b⟩
  | rang hc _ _ hring =>
    refine ⟨hcall hc fun hs => ?_, h.borrowers⟩
    rw [hring] at hs
    cases hs
  | connected hc _ _ _ hconn =>
    refine ⟨hcall hc fun hs => ?_, h.borrowers⟩
    rw [hconn] at hs
    cases hs
  | ended hc _ _ _ _ hfinal hend =>
    exact ⟨hcall hc (CallRow.timed_of_terminal (hfinal ▸ hend)),
      Table.forall_get?_alter h.borrowers fun b _ => BorrowerRepo.timed_endedRow _ _ _ b⟩
  | orphaned hc _ _ _ hend =>
    exact ⟨hcall hc (CallRow.timed_of_terminal hend),
      Table.forall_get?_alter h.borrowers fun b _ => BorrowerRepo.timed_rescheduledRow _ _ b⟩
  | unlocked => exact ⟨h.calls, Table.forall_get?_modify h.borrowers fun _ _ _ _ => trivial⟩

end Floor

/-- **Run.** -/
theorem timed_run (cfg : Settings) (acts : List Act) :
    (run (step cfg) Sys.init acts).floor.Timed :=
  (invariant_run (I := fun s : Sys => s.Live ∧ s.floor.Timed)
    (fun s a h => ⟨live_step cfg h.1 a, (step_path cfg h.1 (permits_true s a)).invariant
      (I := Floor.Timed) (fun _ _ _ hF _ hm => hF.step hm) h.2⟩)
    ⟨live_init, fun _ _ h => (by cases h), fun _ _ h => by cases h⟩ acts).2

/-! ### The last tick -/

/-- All leases and locks are over. -/
structure Sys.Over (s : Sys) (t : Time) : Prop extends s.LeasesOver t where
  borrowers : ∀ k b, s.db.borrowers.get? k = some b → ∀ e ∈ b.locked_until, e < t

/-- There are finitely many leases and locks, so some time comes after all of them. -/
theorem Sys.exists_over (s : Sys) (T : Time) : ∃ t, T ≤ t ∧ s.Over t := by
  obtain ⟨t₁, h₁⟩ := s.db.calls.exists_after fun c => c.lease_expires_at
  obtain ⟨t₂, h₂⟩ := s.db.agents.exists_after fun a => a.lease_expires_at
  obtain ⟨t₃, h₃⟩ := s.db.borrowers.exists_after fun b => b.locked_until
  refine ⟨max T (max t₁ (max t₂ t₃)), le_max_left T _,
    ⟨fun k c hc e he => ?_, fun i a ha e he => ?_⟩, fun k b hb e he => ?_⟩
  · exact lt_max_of_lt_right (lt_max_of_lt_left (h₁ k c hc e he))
  · exact lt_max_of_lt_right (lt_max_of_lt_right (lt_max_of_lt_left (h₂ i a ha e he)))
  · exact lt_max_of_lt_right (lt_max_of_lt_right (lt_max_of_lt_right (h₃ k b hb e he)))

/-- A limit that is set and lies in the past has run out. -/
theorem before_of_lt {l : Option Time} {t : Time} (h : l ≠ none) (hl : ∀ e ∈ l, e < t) :
    before l t = true := by
  obtain ⟨e, rfl⟩ := Option.ne_none_iff_exists'.mp h
  rw [before_some, decide_eq_true_eq]
  exact hl e rfl

/-- A row that some of a list update by one function is as before, or has been updated by it. -/
theorem foldl_ite_cases {α β : Type} (p : β → Prop) [DecidablePred p] (f : α → α) (l : List β)
    (x : α) : l.foldl (fun x e => if p e then f x else x) x = x ∨
      ∃ y, l.foldl (fun x e => if p e then f x else x) x = f y := by
  induction l generalizing x with
  | nil => exact Or.inl rfl
  | cons e l ih =>
    rw [List.foldl_cons]
    split
    · rcases ih (f x) with heq | hex
      · exact Or.inr ⟨x, heq⟩
      · exact Or.inr hex
    · exact ih x

namespace Sys.Over

variable {s : Sys} {t : Time} (h : s.Over t) (now : Time) (registry : Option (List String))
include h

/-- A call that waits to be dialed is failed. -/
theorem reap_call (htimed : s.floor.Timed) (hset : ∀ k c, s.db.calls.get? k = some c → c.Settled)
    (hcalls : ∀ k c, s.db.calls.get? k = some c → c.state = .RESERVED ∨ c.state.isTerminal = true)
    {k : ℕ} {c' : CallRow} (hc' : (s.reap now t registry).db.calls.get? k = some c') :
    c'.state.isTerminal = true := by
  rw [Sys.reap_db, reap_calls] at hc'
  obtain ⟨c, hc, rfl⟩ := Table.exists_of_get?_modify hc'
  split
  · rfl
  · rename_i hno
    refine (hcalls k c hc).resolve_left fun hs => hno ?_
    have hnone : c.terminal_at = none := (hset k c hc).terminal_at_none.mpr (by rw [hs]; rfl)
    simp [isOrphan, hnone, hs, before_of_lt (htimed.calls k c hc hs) (h.calls k c hc)]

/-- Nobody stays in wrap-up. -/
theorem reap_agent (hshaped : s.db.view.Shaped) {i : ℕ} {a' : AgentRow}
    (ha' : (s.reap now t registry).db.agents.get? i = some a') : a'.state ≠ .WRAP_UP := by
  rw [Sys.reap_db, reap_agents, Table.get?_map] at ha'
  obtain ⟨a, ha, rfl⟩ := Option.map_eq_some_iff.mp ha'
  rcases foldl_ite_cases (fun e : ℕ × CallRow => e.2.agent_id = some i)
    (AgentRepo.forcedRow now .AVAILABLE none none none)
    (s.db.calls.select fun _ c => isOrphan t c) a with heq | ⟨b, heq⟩ <;> rw [heq]
  · exact (AgentRow.sweptAgent_state (hshaped.agents i a ha)
      (fun e he => h.agents i a ha e he) now).2
  · exact (AgentRow.sweptAgent_state (AgentRow.shaped_forcedRow now (Or.inl rfl) b)
      (fun e he => by cases he) now).2

/-- Nobody stays locked. -/
theorem reap_borrower (htimed : s.floor.Timed) {k : ℕ} {b' : BorrowerRow}
    (hb' : (s.reap t now registry).db.borrowers.get? k = some b') : b'.state ≠ .LOCKED := by
  rw [Sys.reap_db, reap_borrowers, Table.get?_map] at hb'
  obtain ⟨b, hb, rfl⟩ := Option.map_eq_some_iff.mp hb'
  simp only
  rcases foldl_ite_cases (fun e : ℕ × CallRow => e.2.borrower_id = k)
    (BorrowerRepo.rescheduledRow t (secs 120))
    (s.db.calls.select fun _ c => isOrphan now c) b with heq | ⟨b₁, heq⟩ <;> rw [heq]
  · split
    · exact fun hs => by cases hs
    · rename_i hno
      intro hs
      have htime := htimed.borrowers k b hb
      rw [BorrowerRow.Timed, hs] at htime
      refine hno ?_
      rw [BorrowerRepo.isLockExpired, hs, before_of_lt htime (h.borrowers k b hb)]
      rfl
  · split
    · exact fun hs => by cases hs
    · -- rescheduled by an orphan that the same tick failed
      exact (BorrowerRepo.counted_rescheduledRow t (secs 120) b₁).not_locked

end Sys.Over

/-! ### Rest -/

/-- The call, agent and borrower rows of a state in which nobody is busy. -/
structure Db.Idle (db : Db) : Prop where
  calls : ∀ k c, db.calls.get? k = some c → c.state ∈ terminal
  agents : ∀ i a, db.agents.get? i = some a →
    a.state = .AVAILABLE ∨ a.state = .PAUSED ∨ a.state = .OFFLINE
  borrowers : ∀ k b, db.borrowers.get? k = some b →
    b.state = .PENDING ∨ b.state = .DONE ∨ b.state = .EXHAUSTED

namespace Scenario.State

section

variable {cfg : Settings} {draw : ℕ → Bool} {s : State} {w w' : Watch}

/-- The loop goes on from its drain to the reaper. -/
theorem Winds.reaps (cfg : Settings) (draw : ℕ → Bool) (hp : w.state.phase = .drain)
    (hd : w.state.sys.drains.rows = []) (hbegun : w.begun = true) {t : Time} (ht : w.clock ≤ t) :
    ∃ w', Winds cfg draw w w' ∧ w'.state = { w.state with
      phase := .reap, sys := w.state.sys.reap t t (some ["mock_a", "mock_b"]) } := by
  -- the turn into the reap phase, then the tick itself
  have hturn : (w.step cfg (.turn true)).state = { w.state with phase := .reap } := by
    show { w.state.turn true with sys := w.state.sys } = _
    unfold turn
    rw [hp]
    simp only [hd, if_true]
  have hfresh : (w.step cfg (.turn true)).begun = false := by
    show (decide ((w.step cfg (.turn true)).state.phase = w.state.phase) && _) = false
    rw [hturn, hp]
    rfl
  have hwinds : Winds cfg draw w (w.step cfg (.turn true)) :=
    Winds.single w ⟨trivial, fun h => (by cases h), fun _ _ _ => hbegun⟩
  have hreap : Orderly draw (w.step cfg (.turn true))
      (.loop (.reap t t (some ["mock_a", "mock_b"]))) :=
    ⟨⟨ht, ht, rfl⟩, fun _ => hfresh, fun _ heq => by cases heq⟩
  refine ⟨_, hwinds.trans (Winds.single _ hreap), ?_⟩
  show Scenario.step cfg (w.step cfg (.turn true)).state _ = _
  rw [hturn]
  rfl

/-- Winding up sends nobody away. -/
theorem Attended.winds (h : w.state.Attended cfg) (hwinds : Winds cfg draw w w') :
    w'.state.Attended cfg :=
  hwinds.invariant (I := Attended cfg) (fun _ a hs => attended_step hs a) h

/-- When every call has ended, nobody is busy with one. -/
theorem Attended.seat_eq_none (h : s.Attended cfg)
    (hcalls : ∀ k c, s.sys.db.calls.get? k = some c → c.state.isTerminal = true) {i : ℕ}
    {a : AgentRow} (ha : s.sys.db.agents.get? i = some a) : a.seat = none := by
  cases hseat : a.seat with
  | none => rfl
  | some p =>
    obtain ⟨k, c, hc, hagent, hphase⟩ := h.rostered.call_of_agent ha hseat
    have hnone := CallRow.seat_of_terminal k (hcalls k c hc)
    rw [CallRow.seat_eq_some_iff.mpr ⟨hagent, hphase⟩] at hnone
    cases hnone

/-- A tick of the reaper after all limits ends what a quiet state still holds. -/
theorem Attended.rests (draw : ℕ → Bool) (h : w.state.Attended cfg) (hk : w.state.Known cfg)
    (hquiet : w.state.Quiet) (hp : w.state.phase = .drain) (hd : w.state.sys.drains.rows = [])
    (hbegun : w.begun = true) :
    ∃ w', Winds cfg draw w w' ∧ w'.state.Quiet ∧ w'.state.sys.attempts.rows = [] ∧
      w'.state.sys.drains.rows = [] ∧ w'.state.sys.db.Idle := by
  -- a time at which every lease and lock that stands is over
  obtain ⟨t, ht, hover⟩ := w.state.sys.exists_over w.clock
  obtain ⟨w', hwinds, hstate⟩ := Winds.reaps cfg draw hp hd hbegun ht
  have h' := h.winds hwinds
  refine ⟨w', hwinds, ?_⟩
  rw [hstate] at h' ⊢
  generalize some ["mock_a", "mock_b"] = registry at h' ⊢
  generalize w.state = s at *
  have htimed : ∀ {s : State}, s.Attended cfg → s.sys.floor.Timed := fun h =>
    h.reaches.of_run (P := fun s => s.floor.Timed) fun acts _ => timed_run cfg acts
  -- in a quiet state an open call is only waiting, and its lease too is over
  have hcalls : ∀ k c, (s.sys.reap t t registry).db.calls.get? k = some c →
      c.state.isTerminal = true := fun k c hc =>
    hover.reap_call t registry (htimed h) h.referring.kept.live.healthy.settled
      (fun k c hc => (hk.waits_or_ended hquiet hc).imp_left And.left) hc
  refine ⟨⟨hquiet.returned, fun i e he => hquiet.applied i e ?_⟩,
    h.ordered.attempts (by rw [hp]; decide), hd, fun k c hc => ?_, fun i a ha => ?_,
    fun k b hb => ?_⟩
  · obtain ⟨res, db', hrun, hv⟩ := reap_run t t registry s.sys.db
    rw [Sys.reap_db, (Txn.commit_of_run hrun).1, ← Db.view_provider_events, hv,
      View.reap_provider_events] at he
    exact he
  · exact mem_terminal.mpr (hcalls k c hc)
  · have hfree := h'.seat_eq_none hcalls ha
    have hwrapup := hover.reap_agent t registry (h.reaches.of_run
      (P := fun s => s.db.view.Shaped) fun acts _ => shaped_run cfg acts) ha
    unfold AgentRow.seat at hfree
    -- a seat needs a live call, and the tick has left none
    cases hs : a.state with
    | WRAP_UP => exact absurd hs hwrapup
    | RESERVED | DIALING | CONNECTED =>
      rw [hs] at hfree
      cases hfree
    | AVAILABLE | PAUSED | OFFLINE => simp
  · have hlocked := hover.reap_borrower t registry (htimed h) hb
    have htime := (htimed h').borrowers k b hb
    unfold BorrowerRow.Timed at htime
    cases hs : b.state with
    | LOCKED => exact absurd hs hlocked
    | IN_CALL | SUPPRESSED =>
      rw [hs] at htime
      exact htime.elim
    | PENDING | DONE | EXHAUSTED => simp

end

end Scenario.State

end SmartDialer
