import SmartDialer.Correctness.Progress

namespace SmartDialer

open Relational

/-!
# The life of a call

The invariant of all runs, and what it says about the rows of `calls`: whatever the interleaving
of the allocators, the appliers, the pullback and the reaper, every call goes through legal
transitions only, and stays as it is once it has ended.
-/

/-! ### The invariant -/

/-- The invariant of all runs: the view is healthy, and every open drain holds a valid plan. -/
structure Sys.Live (s : Sys) : Prop where
  healthy : s.db.view.Healthy
  planned : ∀ w d, s.drains.get? w = some d → ∀ p ∈ d.plan, p.Valid s.db.view

/-- There are no calls and no drains. -/
theorem live_init : Sys.init.Live where
  healthy := ⟨.empty, fun _ h => (by cases h), fun _ _ h => (by cases h)⟩
  planned := fun _ _ h => by cases h

/-- **Step.** Every action of the system makes progress on the calls. -/
theorem step_progress (cfg : Settings) {s : Sys} (h : s.Live) (a : Act) :
    s.db.view.Progress (step cfg s a).db.view := by
  cases a with
  | createAgent now campaign_id ext_ref =>
    rcases Txn.commit_cases (AgentRepo.create now campaign_id ext_ref) s.db with
      ⟨i, hrun, _⟩ | ⟨hc, _⟩
    · rw [step, Sys.exec_db, insertAgent_run hrun]; exact .of_calls_eq rfl rfl
    · rw [step, Sys.exec_db, hc]; exact .refl _
  | login now agent_id => exact .of_calls_eq rfl rfl
  | logout now agent_id => exact .of_calls_eq rfl rfl
  | pause now agent_id => exact .of_calls_eq rfl rfl
  | seed now campaign_id phone priority max_attempts =>
    obtain ⟨db', hrun, hv⟩ := BorrowerRepo.seed_run now campaign_id phone priority max_attempts s.db
    rw [step, Sys.exec_db, (Txn.commit_of_run hrun).1]
    rcases hv with hv | hv <;> rw [hv] <;> exact .of_calls_eq rfl rfl
  -- the one step that inserts a call
  | reserveAndCreate now clock_now lockedAgents lockedBorrowers pick worker campaign_id =>
    rw [step, Sys.allocate_db]
    rcases Txn.commit_cases (SmartDialer.reserveAndCreate now lockedAgents lockedBorrowers pick
      worker campaign_id (reserveUntil clock_now cfg)) s.db with ⟨o, hrun, _⟩ | ⟨hc, _⟩
    · exact (reserveAndCreate_cases hrun).progress
    · rw [hc]; exact .refl _
  | placeCall call_id => rw [step, Sys.placeCall_db]; exact .refl _
  | rejected now call_id =>
    rcases s.settle_cases call_id fun a => recordRejected now a.reservation with
      ⟨a, _, _, hdb, _⟩ | hs
    · rw [step, hdb]; exact recordRejected_progress now a.reservation s.db
    · rw [step, hs]; exact .refl _
  | accepted now clock_now call_id pcid =>
    rcases s.settle_cases call_id fun a =>
        recordInitiated now a.reservation pcid a.worker (dialUntil clock_now cfg) with
      ⟨a, _, _, hdb, _⟩ | hs
    · rw [step, hdb]; exact recordInitiated_progress now a.reservation pcid a.worker _ s.db
    · rw [step, hs]; exact .refl _
  | abandon call_id => exact .refl _
  | pullback now call_id => exact cancelCandidate_progress now call_id s.db
  | reap now clock_now registry =>
    obtain ⟨res, db', hrun, hv⟩ := reap_run now clock_now registry s.db
    rw [step, Sys.reap_db, (Txn.commit_of_run hrun).1, hv]
    exact View.reap_progress now clock_now s.db.view
  | ingest now provider event_id call_ref etype ts payload =>
    obtain ⟨o, db', hrun, hv⟩ := EventRepo.ingest_run now provider event_id call_ref etype ts
      payload s.db
    rw [step, Sys.exec_db, (Txn.commit_of_run hrun).1]
    rcases hv with ⟨_, _, hv⟩ | ⟨_, _, rfl⟩
    · rw [hv]; exact .of_calls_eq rfl rfl
    · exact .refl _
  | fetch now w limit =>
    obtain ⟨rows, hs, _⟩ := s.fetch_cases now w limit
    rw [step, hs]; exact .refl _
  | read clock_now w =>
    rcases s.read_cases cfg clock_now w with ⟨_, _, _, _, _, _, _, hs⟩ | hs <;>
      rw [step, hs] <;> exact .refl _
  -- a drain's writes, replayed from the plan that its reads made
  | commit w =>
    rcases s.commit_cases cfg w with ⟨now, plan, hd, _, hs⟩ | hs
    · rw [step, hs]; exact commitDrain_progress (d := ⟨now, [], plan⟩) (h.planned w _ hd)
    · rw [step, hs]; exact .refl _
  | rollback w => exact .refl _

/-- The drains of an action that opens, reads or closes none. -/
private theorem planned_of_drains_eq {s s' : Sys} (h : s.Live) (hd : s'.drains = s.drains)
    (hv : s.db.view.Evolves s'.db.view) :
    ∀ w d, s'.drains.get? w = some d → ∀ p ∈ d.plan, p.Valid s'.db.view := by
  intro w d hw p hp
  rw [hd] at hw
  exact (h.planned w d hw p hp).mono hv

/-- Closing a drain leaves the others. -/
private theorem planned_of_drains_erase {s s' : Sys} (h : s.Live) {w₀ : ℕ}
    (hd : s'.drains = s.drains.erase w₀) (hv : s.db.view.Evolves s'.db.view) :
    ∀ w d, s'.drains.get? w = some d → ∀ p ∈ d.plan, p.Valid s'.db.view := by
  intro w d hw p hp
  rw [hd] at hw
  exact (h.planned w d (Table.get?_of_get?_erase hw).2 p hp).mono hv

/-- Every action keeps the plans of the open drains valid. -/
theorem planned_step (cfg : Settings) {s : Sys} (h : s.Live) (a : Act) :
    ∀ w d, (step cfg s a).drains.get? w = some d →
      ∀ p ∈ d.plan, p.Valid (step cfg s a).db.view := by
  have hv := (step_progress cfg h a h.healthy).2
  cases a with
  | fetch now w limit =>
    obtain ⟨rows, hs, _⟩ := s.fetch_cases now w limit
    intro w' d hw p hp
    rw [step, hs] at hw ⊢
    rcases Table.cases_of_get?_insertAt hw with hold | ⟨_, rfl, _⟩
    · exact h.planned w' d hold p hp
    · -- a drain that has just been opened has no plan yet
      cases hp
  | read clock_now w =>
    rcases s.read_cases cfg clock_now w with ⟨now, ev, todo, plan, r, hd, hr, hs⟩ | hs
    · intro w' d hw p hp
      rw [step, hs] at hw ⊢
      simp only [Table.get?_modify, Option.map_eq_some_iff] at hw
      obtain ⟨d₀, hd₀, rfl⟩ := hw
      split at hp
      · rename_i hww
        rw [beq_iff_eq] at hww
        subst hww
        rcases List.mem_append.mp hp with hp | hp
        · exact h.planned w' _ hd p hp
        · rw [List.mem_singleton.mp hp]
          exact read_valid h.healthy (h.planned w' _ hd) hr
      · exact h.planned w' d₀ hd₀ p hp
    · rw [step, hs]; exact h.planned
  | commit w =>
    rcases s.commit_cases cfg w with ⟨now, plan, hd, _, hs⟩ | hs
    · rw [step, hs] at hv ⊢
      exact planned_of_drains_erase h rfl hv
    · rw [step, hs]; exact h.planned
  | rollback w => exact planned_of_drains_erase h rfl hv
  | createAgent | login | logout | pause | seed | pullback | ingest | reap | abandon =>
    exact planned_of_drains_eq h rfl hv
  | reserveAndCreate => exact planned_of_drains_eq h (s.allocate_drains _ _) hv
  | placeCall => exact planned_of_drains_eq h (s.placeCall_drains _ _) hv
  | rejected => exact planned_of_drains_eq h (s.settle_drains _ _) hv
  | accepted => exact planned_of_drains_eq h (s.settle_drains _ _) hv

/-- **Step.** Every action keeps the invariant. -/
theorem live_step (cfg : Settings) {s : Sys} (h : s.Live) (a : Act) : (step cfg s a).Live :=
  ⟨(step_progress cfg h a h.healthy).1, planned_step cfg h a⟩

/-- **Run.** The invariant holds in every reachable state. -/
theorem live_run (cfg : Settings) (acts : List Act) : (run (step cfg) Sys.init acts).Live :=
  invariant_run (I := Sys.Live) (fun _ a h => live_step cfg h a) live_init acts

/-- From a state with the invariant the calls evolve along every run. -/
theorem evolves_run (cfg : Settings) {s : Sys} (h : s.Live) (acts : List Act) :
    s.db.view.Evolves (run (step cfg) s acts).db.view :=
  related_run (I := Sys.Live) (R := fun s s' => s.db.view.Evolves s'.db.view)
    (fun s => .refl s.db.view) (fun _ _ _ => View.Evolves.trans) (fun _ a h => live_step cfg h a)
    (fun _ a h => (step_progress cfg h a h.healthy).2) h acts

/-- **The life of a call.** After any run,
    * the images written to each row of `calls`, statement by statement, form a chain of legal
      transitions that ends in the stored row;
    * in every image, and so in every stored row, the rank is the rank of the state and the
      terminal timestamp is set exactly when the state is terminal;
    * a call that is terminal is the same row after any further run. -/
theorem call_lifecycle (cfg : Settings) (acts : List Act) :
    (∀ i, (images (run (step cfg) Sys.init acts).db.versions i).IsChain
        fun c c' => c'.state ∈ legalNext c.state) ∧
      (∀ i, (images (run (step cfg) Sys.init acts).db.versions i).getLast?
        = (run (step cfg) Sys.init acts).db.calls.get? i) ∧
      (∀ e ∈ (run (step cfg) Sys.init acts).db.versions, e.2.state_rank = rank e.2.state ∧
        (e.2.terminal_at ≠ none ↔ e.2.state ∈ terminal)) ∧
      (∀ i c, (run (step cfg) Sys.init acts).db.calls.get? i = some c →
        c.state_rank = rank c.state ∧ (c.terminal_at ≠ none ↔ c.state ∈ terminal) ∧
          (c.state ∈ terminal → ∀ later,
            (run (step cfg) Sys.init (acts ++ later)).db.calls.get? i = some c)) := by
  have h := live_run cfg acts
  have hok : ∀ c : CallRow, c.Ok →
      c.state_rank = rank c.state ∧ (c.terminal_at ≠ none ↔ c.state ∈ terminal) := by
    intro c hc
    refine ⟨hc.rank_eq, ?_⟩
    rw [mem_terminal, ← hc.terminal_iff, Option.isSome_iff_ne_none]
  refine ⟨h.healthy.history.chain, h.healthy.history.last,
    fun e he => hok _ (h.healthy.images e he), fun i c hc => ?_⟩
  obtain ⟨hrank, hterm⟩ := hok c (h.healthy.settled i c hc).toOk
  refine ⟨hrank, hterm, fun hs later => ?_⟩
  rw [run_append]
  -- a terminal row evolves to itself only, whatever comes later
  obtain ⟨c', hc', hevo⟩ := evolves_run cfg h later i c hc
  rw [hevo.terminal (mem_terminal.mp hs)] at hc'
  exact hc'

end SmartDialer
