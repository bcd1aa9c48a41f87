import SmartDialer.Correctness.Ledger

namespace SmartDialer

open Relational

/-!
# Exactly-once application of events

`events_exactly_once` puts the ledger together: an event makes at most one transition, the mark on
its row tells whether it did, and a row that is applied stays as it is.
-/

/-! ### Applied rows are final -/

/-- A row that is applied is kept as it is, and the log does not name it again. -/
def Sys.KeepsApplied (s s' : Sys) : Prop :=
  ∀ i e, s.db.provider_events.get? i = some e → e.applied = true →
    s'.db.provider_events.get? i = some e ∧ logCount s'.log i = logCount s.log i

/-- Where nothing happens, applied rows are kept. -/
theorem Sys.KeepsApplied.refl (s : Sys) : s.KeepsApplied s := fun _ _ he _ => ⟨he, rfl⟩

/-- Applied rows are kept across any number of actions. -/
theorem Sys.KeepsApplied.trans {s₁ s₂ s₃ : Sys} (h₁ : s₁.KeepsApplied s₂)
    (h₂ : s₂.KeepsApplied s₃) : s₁.KeepsApplied s₃ := by
  intro i e he happlied
  obtain ⟨he₂, hc₂⟩ := h₁ i e he happlied
  obtain ⟨he₃, hc₃⟩ := h₂ i e he₂ happlied
  exact ⟨he₃, hc₃.trans hc₂⟩

/-- **Step.** The three statements that write to the ledger select unapplied rows, so no action
    touches an applied one or logs it again. -/
theorem keepsApplied_step {cfg : Settings} {s : Sys} (h : s.Ledger) (a : Act) :
    s.KeepsApplied (step cfg s a) := by
  have hstep := step_ledger cfg s a
  generalize step cfg s a = s' at hstep ⊢
  intro i e he happlied
  cases hstep with
  | quiet hevents _ hl => rw [hevents, hl]; exact ⟨he, rfl⟩
  | recorded _ _ hevents _ hl =>
    rw [hevents, hl, Table.get?_push, if_neg (Table.ne_nextId he)]
    exact ⟨he, rfl⟩
  | opened _ _ hevents _ hl => rw [hevents, hl]; exact ⟨he, rfl⟩
  | read _ _ hevents _ hl => rw [hevents, hl]; exact ⟨he, rfl⟩
  | @committed now w plan log db₁ hw hplan hfree hview hd hl =>
    have hs := settled_of_replayed now (h.replayed hw hplan)
    -- a drain holds unapplied rows only, so this one is not in its plan
    have hout : i ∉ plan.map (·.event.1) := by
      intro hi
      obtain ⟨e', he', hu⟩ := h.unapplied w _ hw i (by simpa [Drain.locked] using hi)
      rw [he] at he'
      cases he'
      rw [happlied] at hu
      cases hu
    obtain ⟨hzero, hrow⟩ := hs.others i hout
    have hsum : logCount (s.log ++ log) i = logCount s.log i + logCount log i := List.countP_append
    rw [hl, hsum, hzero]
    refine ⟨?_, rfl⟩
    rw [← Db.view_provider_events, hview]
    rcases hrow with hrow | ⟨e', he', hg, _⟩
    · exact hrow.trans he
    · -- what is given up is unapplied
      rw [he] at he'
      cases he'
      simp [EventRepo.isGivenUp, happlied] at hg
  | closed hevents _ hl => rw [hevents, hl]; exact ⟨he, rfl⟩

/-! ### The log tells what happened -/

/-- A committed drain makes the transitions of the log, in order, and nothing else to agents,
    borrowers and calls; every other action leaves the log alone. -/
theorem log_step {cfg : Settings} {s : Sys} (h : s.Ledger) (a : Act) :
    ∃ moved, (step cfg s a).log = s.log ++ moved ∧
      ((∃ w, a = .commit w) → s.db.view.MovedBy moved (step cfg s a).db.view ∧
        (moved = [] → s.db.view.Unmoved (step cfg s a).db.view)) ∧
      ((∀ w, a ≠ .commit w) → moved = []) := by
  by_cases ha : ∃ w, a = .commit w
  · obtain ⟨w, rfl⟩ := ha
    suffices hcommit : ∃ moved, (step cfg s (.commit w)).log = s.log ++ moved ∧
        s.db.view.MovedBy moved (step cfg s (.commit w)).db.view by
      obtain ⟨moved, hlog, hmoved⟩ := hcommit
      refine ⟨moved, hlog, fun _ => ⟨hmoved, fun hnil => ?_⟩, fun hne => absurd rfl (hne w)⟩
      rw [hnil] at hmoved
      exact hmoved.unmoved_of_nil
    rcases s.commit_cases cfg w with ⟨now, plan, hw, _, hs⟩ | hs
    · rcases Txn.commit_cases (commitDrain cfg ⟨now, [], plan⟩) s.db with
        ⟨log, hrun, hres⟩ | ⟨hc, hnone⟩
      · obtain ⟨db₁, hplan, hview⟩ := commitDrain_run hrun
        -- the sweep that ends the transaction writes to the ledger only
        have hsweep : db₁.view.MovedBy []
            ((commitDrain cfg ⟨now, [], plan⟩).commit s.db).view := by
          rw [hview]
          exact View.Unmoved.movedBy ⟨rfl, rfl, rfl, rfl⟩
        refine ⟨log, by rw [step, hs, hres]; rfl, ?_⟩
        have hall := (h.replayed hw hplan).moved.append hsweep
        rw [List.append_nil] at hall
        rw [step, hs]
        exact hall
      · refine ⟨[], by rw [step, hs, hnone]; rfl, ?_⟩
        rw [step, hs, hc]
        exact .done _
    · refine ⟨[], by rw [step, hs, List.append_nil], ?_⟩
      rw [step, hs]
      exact .done _
  · have hother : ∀ w, a ≠ .commit w := fun w heq => ha ⟨w, heq⟩
    refine ⟨[], ?_, fun hw => absurd hw ha, fun _ => rfl⟩
    rw [List.append_nil]
    cases a with
    | commit w => exact absurd rfl (hother w)
    | reserveAndCreate => exact Sys.allocate_log ..
    | placeCall => exact Sys.placeCall_log ..
    | rejected | accepted => exact Sys.settle_log ..
    | fetch now w limit =>
      obtain ⟨rows, hs, _⟩ := s.fetch_cases now w limit
      rw [step, hs]
    | read clock_now w =>
      rcases s.read_cases cfg clock_now w with ⟨_, _, _, _, _, _, _, hs⟩ | hs <;> rw [step, hs]
    | createAgent | login | logout | pause | seed | abandon | pullback | reap | ingest | rollback =>
      rfl

/-- The transitions that were made for a provider event. -/
def Sys.transitionsOf (s : Sys) (provider event_id : String) : List (ℕ × CallState) :=
  s.log.filter fun t => (s.db.provider_events.get? t.1).any fun e =>
    e.provider == provider && e.provider_event_id == event_id

/-- The transitions made for an event are those that name its row. -/
theorem Sys.Ledger.transitionsOf_length {s : Sys} (h : s.Ledger) {i : ℕ} {e : EventRow}
    (he : s.db.provider_events.get? i = some e) :
    (s.transitionsOf e.provider e.provider_event_id).length = logCount s.log i := by
  unfold Sys.transitionsOf logCount
  rw [← List.countP_eq_length_filter]
  apply List.countP_congr
  intro t _
  simp only [Option.any_eq_true, Bool.and_eq_true, beq_iff_eq]
  constructor
  · rintro ⟨e', he', hsame⟩
    exact h.unique t.1 i e' e he' he hsame
  · intro hi
    exact ⟨e, by rw [hi, he], rfl, rfl⟩

/-- An event makes at most one transition, since its row is unique and the log names that row once
    at most. -/
theorem Sys.Ledger.transitionsOf_le {s : Sys} (h : s.Ledger) (provider event_id : String) :
    (s.transitionsOf provider event_id).length ≤ 1 := by
  by_cases hrow : ∃ i e, s.db.provider_events.get? i = some e ∧ e.provider = provider ∧
      e.provider_event_id = event_id
  · obtain ⟨i, e, he, rfl, rfl⟩ := hrow
    rw [h.transitionsOf_length he, h.counted]
    split <;> omega
  · -- without a row there is nothing that names the event
    have hnil : s.transitionsOf provider event_id = [] := by
      refine List.filter_eq_nil_iff.mpr fun t _ ht => hrow ?_
      simp only [Option.any_eq_true, Bool.and_eq_true, beq_iff_eq] at ht
      obtain ⟨e, he, hp, hid⟩ := ht
      exact ⟨t.1, e, he, hp, hid⟩
    rw [hnil]
    exact Nat.zero_le 1

/-- **Exactly once.** In every run: an event has at most one row and makes at most one transition;
    its row is applied without an anomaly if and only if it has made one; a row that is applied
    stays as it is whatever comes after, and makes no transition again; and the transitions that
    the log tells are all that the drains do to agents, borrowers and calls. -/
theorem events_exactly_once (cfg : Settings) (acts : List Act) :
    let s := run (step cfg) .init acts
    (∀ i j e e', s.db.provider_events.get? i = some e → s.db.provider_events.get? j = some e' →
      e.provider = e'.provider → e.provider_event_id = e'.provider_event_id → i = j) ∧
    (∀ provider event_id, (s.transitionsOf provider event_id).length ≤ 1) ∧
    (∀ i e, s.db.provider_events.get? i = some e →
      (e.applied = true ∧ e.anomaly = none ↔
        (s.transitionsOf e.provider e.provider_event_id).length = 1)) ∧
    (∀ more i e, s.db.provider_events.get? i = some e → e.applied = true →
      (run (step cfg) s more).db.provider_events.get? i = some e ∧
      ((run (step cfg) s more).transitionsOf e.provider e.provider_event_id).length
        = (s.transitionsOf e.provider e.provider_event_id).length) ∧
    ∀ a, ∃ moved, (step cfg s a).log = s.log ++ moved ∧
      ((∃ w, a = .commit w) → s.db.view.MovedBy moved (step cfg s a).db.view ∧
        (moved = [] → s.db.view.Unmoved (step cfg s a).db.view)) ∧
      ((∀ w, a ≠ .commit w) → moved = []) := by
  intro s
  have h : s.Ledger := invariant_run (I := Sys.Ledger) (fun _ a h => ledger_step h a)
    ledger_init acts
  refine ⟨fun i j e e' he he' hp hid => h.unique i j e e' he he' ⟨hp, hid⟩, h.transitionsOf_le,
    fun i e he => ?_, fun more i e he happlied => ?_, log_step h⟩
  · rw [h.transitionsOf_length he, h.counted, he, Option.any_some]
    unfold EventRow.isEffective
    simp only [Bool.and_eq_true, Option.isNone_iff_eq_none]
    split
    · rename_i heff
      exact ⟨fun _ => rfl, fun _ => heff⟩
    · rename_i heff
      exact ⟨fun hyes => absurd hyes heff, fun hzero => absurd hzero Nat.zero_ne_one⟩
  · have hkeep : s.KeepsApplied (run (step cfg) s more) :=
      related_run (I := Sys.Ledger) Sys.KeepsApplied.refl (fun _ _ _ => Sys.KeepsApplied.trans)
        (fun _ a h => ledger_step h a) (fun _ a h => keepsApplied_step h a) h more
    have hend : (run (step cfg) s more).Ledger := invariant_run (I := Sys.Ledger)
      (fun _ a h => ledger_step h a) h more
    obtain ⟨he', hcount⟩ := hkeep i e he happlied
    exact ⟨he', by rw [hend.transitionsOf_length he', h.transitionsOf_length he, hcount]⟩

end SmartDialer
