import SmartDialer.Correctness.Ledger
import SmartDialer.Correctness.Delivery

namespace SmartDialer

open Relational

/-!
# A drain that nobody interrupts

The system takes a drain apart: its fetch, the read of each event and its commit are actions of
their own, and other transactions come in between.  The program has it as one function, `drain`.

* `reads_uninterrupted` — the reads of a drain, one after the other, plan the writes of the loop
  over its events.
* `drain_uninterrupted` — the actions of a drain in a row do what `drain` does.
-/

/-- The read of an event cannot fail and writes nothing. -/
theorem applyOneRead_run (ev : EventRow) (db : Db) :
    ∃ r, (applyOneRead ev).run db = .ok (r, db) := by
  obtain ⟨read, hread, _⟩ := applyOneRead_names ev db
  exact ⟨read, hread⟩

/-- The loop of `drain`. -/
def applyAll (now clock_now wrapup : Time) (rows : List (ℕ × EventRow)) : Tx PUnit :=
  forM rows fun ev => do
    let _ ← applyOne now ev clock_now wrapup

/-- A plan with one more event, up to what it reports. -/
private theorem applyPlan_concat (cfg : Settings) (now : Time) (plan : List Planned) (p : Planned)
    {α : Type} (next : Tx α) :
    (applyPlan cfg now (plan ++ [p]) >>= fun _ => next)
      = (applyPlan cfg now plan >>= fun _ =>
          applyOneWrite now p.event p.read p.clock_now (secs cfg.wrapup_s) >>= fun _ => next) := by
  induction plan with
  | nil => simp [applyPlan]
  | cons q plan ih =>
    simp only [List.cons_append, applyPlan, bind_assoc, pure_bind]
    exact bind_congr fun _ => ih

section

variable (cfg : Settings) {s : Sys} {w : ℕ}

/-- One read moves the next event to the plan; planning it adds its writes to those before. -/
private theorem read_planned {now : Time} {ev : ℕ × EventRow} {todo : List (ℕ × EventRow)}
    {plan : List Planned} (hw : s.drains.get? w = some ⟨now, ev :: todo, plan⟩) (clock_now : Time) :
    ∃ p : Planned,
      s.read cfg clock_now w = { s with
        drains := s.drains.modify (fun i _ => i == w) fun _ => ⟨now, todo, plan ++ [p]⟩ } ∧
      ∀ {α : Type} (next : Tx α),
        (applyPlan cfg now (plan ++ [p]) >>= fun _ => next).run s.db
          = (applyPlan cfg now plan >>= fun _ =>
              applyOne now ev clock_now (secs cfg.wrapup_s) >>= fun _ => next).run s.db := by
  obtain ⟨r, hr⟩ := applyOneRead_run ev.2 ((applyPlan cfg now plan).commit s.db)
  refine ⟨⟨ev, clock_now, r⟩, ?_, fun next => ?_⟩
  · unfold Sys.read
    simp only [hw]
    rw [(Txn.commit_of_run hr).2]
  · rw [applyPlan_concat]
    -- a plan that fails takes both sides down with it
    cases hplan : (applyPlan cfg now plan).run s.db with
    | error e => rw [StateT.run_bind, StateT.run_bind, hplan]; rfl
    | ok out =>
      obtain ⟨moved, db₁⟩ := out
      rw [(Txn.commit_of_run hplan).1] at hr
      rw [Txn.run_bind_of_ok hplan, Txn.run_bind_of_ok hplan, applyOne, bind_assoc,
        Txn.run_bind_of_ok hr]

/-- **Reads.** Reading all events of a drain in a row plans what the loop over them does. -/
theorem reads_uninterrupted (clock_now : Time) {now : Time} {todo : List (ℕ × EventRow)}
    {plan : List Planned} (hw : s.drains.get? w = some ⟨now, todo, plan⟩) :
    ∃ (drains : Table Drain) (plan' : List Planned),
      run (step cfg) s (List.replicate todo.length (.read clock_now w)) = { s with drains } ∧
      drains.get? w = some ⟨now, [], plan'⟩ ∧
      (∀ w', w' ≠ w → drains.get? w' = s.drains.get? w') ∧
      ∀ {α : Type} (next : Tx α),
        (applyPlan cfg now plan' >>= fun _ => next).run s.db
          = (applyPlan cfg now plan >>= fun _ =>
              applyAll now clock_now (secs cfg.wrapup_s) todo >>= fun _ => next).run s.db := by
  induction todo generalizing s plan with
  | nil => exact ⟨s.drains, plan, rfl, hw, fun _ _ => rfl, fun next => by simp [applyAll]⟩
  | cons ev todo ih =>
    obtain ⟨p, hread, hp⟩ := read_planned cfg hw clock_now
    have hw₁ : (s.drains.modify (fun i _ => i == w) fun _ =>
        (⟨now, todo, plan ++ [p]⟩ : Drain)).get? w = some ⟨now, todo, plan ++ [p]⟩ := by
      rw [Table.get?_modify, hw]
      simp
    have hw₂ : (s.read cfg clock_now w).drains.get? w = some ⟨now, todo, plan ++ [p]⟩ := by
      rw [hread]
      exact hw₁
    obtain ⟨drains, plan', hrun, hd, hothers, hplan⟩ := ih hw₂
    rw [hread] at hrun hothers hplan
    refine ⟨drains, plan', ?_, hd, fun w' hne => ?_, fun next => ?_⟩
    · rw [List.length_cons, List.replicate_succ, run_cons, step, hread]
      exact hrun
    · rw [hothers w' hne, Table.get?_modify]
      simp [hne]
    · have hloop : applyAll now clock_now (secs cfg.wrapup_s) (ev :: todo)
          = (applyOne now ev clock_now (secs cfg.wrapup_s) >>= fun _ =>
              applyAll now clock_now (secs cfg.wrapup_s) todo) := by
        unfold applyAll
        rw [List.forM_cons]
        simp
      rw [hplan, hp, hloop]
      simp only [bind_assoc]

/-- **Drain.** A worker that fetches, reads every event and commits without another action in
    between does what `drain` does, if it need not wait for an event it would give up. -/
theorem drain_uninterrupted (hw : s.drains.get? w = none) (now clock_now : Time) (limit : ℕ)
    (hfree : ∀ i e, s.db.provider_events.get? i = some e → EventRepo.isGivenUp now e = true →
      i ∉ s.lockedBy fun _ => true) :
    ∃ rows, (EventRepo.fetchUnapplied (s.lockedBy fun _ => true) limit).result s.db = some rows ∧
      (run (step cfg) s (.fetch now w limit ::
          (List.replicate rows.length (.read clock_now w) ++ [.commit w]))).db
        = (drain now (s.lockedBy fun _ => true) clock_now (secs cfg.wrapup_s) limit).commit
          s.db := by
  obtain ⟨rows, hfetch, _⟩ := EventRepo.fetchUnapplied_run (s.lockedBy fun _ => true) limit s.db
  have hres := (Txn.commit_of_run hfetch).2
  refine ⟨rows, hres, ?_⟩
  have hopen : s.fetch now w limit = { s with drains := s.drains.insertAt w ⟨now, rows, []⟩ } := by
    unfold Sys.fetch
    rw [hres]
  have hw₁ : (s.drains.insertAt w ⟨now, rows, []⟩).get? w = some ⟨now, rows, []⟩ := by
    rw [Table.get?_insertAt, if_pos rfl, hw]
    rfl
  obtain ⟨drains, plan, hrun, hd, hothers, hplan⟩ := reads_uninterrupted cfg
    (s := { s with drains := s.drains.insertAt w ⟨now, rows, []⟩ }) clock_now hw₁
  rw [run_cons, step, hopen, run_append, hrun, run_cons, run_nil, step]
  -- the drains of the other workers are those of before
  have hunblocked : ∀ i e, s.db.provider_events.get? i = some e →
      EventRepo.isGivenUp now e = true → i ∉ Sys.lockedBy { s with drains } (· ≠ w) := by
    intro i e he hg hmem
    obtain ⟨w', d, hw', hne, hi⟩ := mem_lockedBy.mp hmem
    have hne' : w' ≠ w := by simpa using hne
    rw [hothers w' hne', Table.get?_insertAt, if_neg hne'] at hw'
    exact hfree i e he hg (mem_lockedBy.mpr ⟨w', d, hw', rfl, hi⟩)
  have hcommit : (Sys.commit cfg { s with drains } w).db
      = (commitDrain cfg ⟨now, [], plan⟩).commit s.db := by
    unfold Sys.commit
    simp only [hd]
    rw [if_pos]
    apply Table.select_eq_nil_iff.mpr
    intro i e he
    cases hg : EventRepo.isGivenUp now e with
    | false => rfl
    | true =>
      have hnot := hunblocked i e he hg
      simpa using hnot
  -- both leave what the loop and the sweep after it leave
  have hsplit : (commitDrain cfg ⟨now, [], plan⟩).commit s.db
      = (applyPlan cfg now plan >>= fun _ => EventRepo.giveUpUnknown now).commit s.db :=
    Txn.commit_bind_pure _ _ (fun moved _ => moved) _
  have hwhole : (drain now (s.lockedBy fun _ => true) clock_now (secs cfg.wrapup_s) limit).commit
      s.db = (applyAll now clock_now (secs cfg.wrapup_s) rows >>= fun _ =>
        EventRepo.giveUpUnknown now).commit s.db := by
    rw [← Txn.commit_bind_pure _ _ fun _ _ => rows.length]
    apply Txn.commit_congr
    unfold drain
    rw [Txn.run_bind_of_ok hfetch]
    rfl
  rw [hcommit, hsplit, hwhole]
  exact Txn.commit_congr (hplan (EventRepo.giveUpUnknown now))

end

end SmartDialer
