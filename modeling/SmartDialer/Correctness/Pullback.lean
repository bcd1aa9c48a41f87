import SmartDialer.Worker.PacingLoop
import SmartDialer.Correctness.Transactions
import SmartDialer.Correctness.Pairing
import SmartDialer.Correctness.Dialing
import SmartDialer.Correctness.RowWrites

namespace SmartDialer

open Relational Numeric

/-!
# Pullback

A call that is dialed counts twice against the overdial ceiling when a tick looks for excess
calls: once itself, and once in the agent that is dialing it.  So a sweep cancels calls that the
controller has just approved, although nobody has left (`ownCall_pulledBack`).

* `Sys.Bound` — what is known as long as nobody leaves: the calls that ring are those of the
  dialing agents, campaign by campaign (`Sys.Bound.ringing_eq_dialing`).
* `sweeps_iff` — so a tick finds excess calls exactly if its snapshot is crowded.
* `no_pullback_run` — runs without a crowded tick pull nothing back.
-/

/-! ### Calls and agents of one campaign -/

/-- A call is in the campaign of its agent. -/
def Sys.SameCampaign (s : Sys) : Prop :=
  ∀ k c i, s.db.calls.get? k = some c → c.agent_id = some i →
    ∃ a, s.db.agents.get? i = some a ∧ a.campaign_id = c.campaign_id

/-- A call that was there before the action is still in the campaign of its agent. -/
private theorem Sys.SameCampaign.old (cfg : Settings) {s : Sys} (hlive : s.Live)
    (h : s.SameCampaign) (a : Act) {k i : ℕ} {c c' : CallRow} (hc : s.db.calls.get? k = some c)
    (hc' : (step cfg s a).db.calls.get? k = some c') (hagent : c'.agent_id = some i) :
    ∃ a', (step cfg s a).db.agents.get? i = some a' ∧ a'.campaign_id = c'.campaign_id := by
  -- neither the call nor the agent ever changes its campaign
  obtain ⟨d, hd, hevo⟩ := (step_progress cfg hlive a hlive.healthy).2 k c hc
  rw [Db.view_calls, hc', Option.some.injEq] at hd
  subst hd
  obtain ⟨r, hr, hcampaign⟩ := h k c i hc (hevo.agent_id.symm.trans hagent)
  obtain ⟨r', hr', hsame⟩ := step_agents_stay cfg hlive a hr
  exact ⟨r', hr', by rw [hsame, hcampaign, hevo.campaign_id]⟩

/-- Only the reservation of an agent brings a new call. -/
private theorem calls_old (cfg : Settings) {s : Sys} (hlive : s.Live) {a : Act}
    (ha : ∀ now clock_now la lb pick w c, a ≠ .reserveAndCreate now clock_now la lb pick w c)
    {k : ℕ} {c' : CallRow} (hc' : (step cfg s a).db.calls.get? k = some c') :
    ∃ c, s.db.calls.get? k = some c := by
  rcases step_calls_known cfg hlive ha with hw | ⟨_, _, _, _, _, _, _, hcalls⟩
  · exact (hw.before hc').imp fun _ h => h.1
  · rw [hcalls] at hc'
    exact (Table.exists_of_get?_alter hc').imp fun _ h => h.1

/-- **Step.** Calls stay in the campaigns of their agents. -/
theorem Sys.SameCampaign.step (cfg : Settings) {s : Sys} (hlive : s.Live) (h : s.SameCampaign)
    (a : Act) : (step cfg s a).SameCampaign := by
  intro k c' i hc' hagent
  have hold : ∀ c, s.db.calls.get? k = some c → ∃ a', (SmartDialer.step cfg s a).db.agents.get? i
      = some a' ∧ a'.campaign_id = c'.campaign_id :=
    fun c hc => SameCampaign.old cfg hlive h a hc hc' hagent
  by_cases ha : ∀ now clock_now la lb pick w c, a ≠ .reserveAndCreate now clock_now la lb pick w c
  · obtain ⟨c, hc⟩ := calls_old cfg hlive ha hc'
    exact hold c hc
  · push Not at ha
    obtain ⟨now, clock_now, la, lb, pick, worker, campaign_id, rfl⟩ := ha
    rw [SmartDialer.step, Sys.allocate_db] at hc' hold ⊢
    rcases Txn.commit_cases (SmartDialer.reserveAndCreate now la lb pick worker campaign_id
      (reserveUntil clock_now cfg)) s.db with ⟨o, hrun, _⟩ | ⟨hcommit, _⟩
    swap
    · rw [hcommit] at hc'
      exact hold c' hc'
    have hout := reserveAndCreate_cases hrun
    rw [← Db.view_calls] at hc'
    rw [← Db.view_agents] at hold ⊢
    generalize ((SmartDialer.reserveAndCreate now la lb pick worker campaign_id
      (reserveUntil clock_now cfg)).commit s.db).view = v at hout hc' hold ⊢
    cases hout with
    | noAgent | noBorrower | noProvider => exact hold c' hc'
    | @created j _ a _ _ ha _ hac _ _ _ _ =>
      rcases Table.cases_of_get?_push hc' with ⟨_, rfl⟩ | hc
      · -- the new call is made for an agent of its campaign
        cases hagent
        refine ⟨AgentRepo.reservedRow now worker (reserveUntil clock_now cfg) a, ?_, hac⟩
        rw [View.setBorrower_agents, View.setAgent_agents, Table.get?_alter, if_pos rfl,
          Db.view_agents, ha]
        rfl
      · exact hold c' hc

/-! ### As long as nobody leaves -/

/-- Agents and calls are paired, the calls are in the campaigns of their agents, and the counters
    agree with the rows. -/
structure Sys.Bound (s : Sys) : Prop where
  live : s.Live
  paired : s.floor.Paired
  sameCampaign : s.SameCampaign
  agree : Agree s.db

/-- **Step.** While nobody leaves, every action keeps the four parts. -/
theorem Sys.Bound.step (cfg : Settings) {s : Sys} (h : s.Bound) {a : Act}
    (ha : PairingAssumed s a) : (step cfg s a).Bound where
  live := live_step cfg h.live a
  paired := (step_path cfg h.live ha.permits).invariant (I := Floor.Paired)
    (fun _ _ _ hF hH hm => hF.step hH hm) h.paired
  sameCampaign := h.sameCampaign.step cfg h.live a
  agree := h.agree.of_writes (step_writes cfg s a)

namespace Sys.Bound

variable {s : Sys} (h : s.Bound)

include h

/-- Every call that rings has an agent of its campaign that is dialing it. -/
private theorem dialing_of_ringing {k : ℕ} {c : CallRow} (hc : s.db.calls.get? k = some c)
    (hring : c.state.isRinging = true) :
    ∃ i a, s.db.agents.get? i = some a ∧ a.campaign_id = c.campaign_id ∧ a.state = .DIALING ∧
      a.current_call_id = some k := by
  obtain ⟨i, hagent⟩ := Option.isSome_iff_exists.mp (h.live.healthy.settled k c hc).agent
  obtain ⟨a, ha, hseat⟩ := h.paired.agent_of_call hc hagent (CallRow.phase_of_isRinging hring)
  obtain ⟨hs, hcurrent⟩ := AgentRow.state_of_seat hseat
  obtain ⟨b, hb, hcampaign⟩ := h.sameCampaign k c i hc hagent
  have hab : s.db.agents.get? i = some a := ha
  rw [hab, Option.some.injEq] at hb
  exact ⟨i, a, ha, by rw [hb]; exact hcampaign, hs, hcurrent⟩

/-- Every dialing agent has a call of its campaign that rings. -/
private theorem ringing_of_dialing {i : ℕ} {a : AgentRow} (ha : s.db.agents.get? i = some a)
    (hs : a.state = .DIALING) :
    ∃ k c, s.db.calls.get? k = some c ∧ c.campaign_id = a.campaign_id ∧ c.agent_id = some i ∧
      c.state.isRinging = true := by
  obtain ⟨k, c, hc, hagent, hmatch⟩ := h.paired.call_of_agent h.live.healthy.settled ha
    (Or.inr (Or.inl hs))
  obtain ⟨b, hb, hcampaign⟩ := h.sameCampaign k c i hc hagent
  rw [ha, Option.some.injEq] at hb
  refine ⟨k, c, hc, by rw [hb]; exact hcampaign.symm, hagent, ?_⟩
  rw [hs] at hmatch
  cases hcs : c.state <;> rw [hcs] at hmatch <;> first | rfl | cases hmatch

/-- **Twice counted.** In every campaign as many calls ring as agents are dialing. -/
theorem ringing_eq_dialing (campaign_id : ℕ) :
    (s.db.calls.count fun _ c => c.campaign_id == campaign_id && c.state.isRinging)
      = s.db.agents.count fun _ a => a.campaign_id == campaign_id && a.state == .DIALING := by
  apply le_antisymm
  · -- a ringing call goes to the agent that is dialing it, who dials no other call
    refine Table.count_le_of_injective
      (fun k i => ∃ a, s.db.agents.get? i = some a ∧ a.current_call_id = some k) ?_ ?_
    · intro k c hc hp
      rw [Bool.and_eq_true, beq_iff_eq] at hp
      obtain ⟨i, a, ha, hcampaign, hs, hcurrent⟩ := h.dialing_of_ringing hc hp.2
      exact ⟨i, a, ⟨a, ha, hcurrent⟩, ha, by simp [hcampaign, hp.1, hs]⟩
    · rintro k k' i ⟨a, ha, hk⟩ ⟨b, hb, hk'⟩
      rw [ha, Option.some.injEq] at hb
      rw [← hb, hk, Option.some.injEq] at hk'
      exact hk'
  · -- and a dialing agent to a call of its own
    refine Table.count_le_of_injective
      (fun i k => ∃ c, s.db.calls.get? k = some c ∧ c.agent_id = some i) ?_ ?_
    · intro i a ha hp
      rw [Bool.and_eq_true, beq_iff_eq, beq_iff_eq] at hp
      obtain ⟨k, c, hc, hcampaign, hagent, hring⟩ := h.ringing_of_dialing ha hp.2
      exact ⟨k, c, ⟨c, hc, hagent⟩, hc, by simp [hcampaign, hp.1, hring]⟩
    · rintro i j k ⟨c, hc, hi⟩ ⟨d, hd, hj⟩
      rw [hc, Option.some.injEq] at hd
      rw [← hd, hi, Option.some.injEq] at hj
      exact hj

end Sys.Bound

/-! ### Ticks -/

/-- Somebody is dialing, and with the calls that the dialing agents are on counted once more the
    agents in flight are beyond the overdial ceiling. -/
def Snapshot.Crowded {fl : Rounding} (limits : SafetyLimits fl) (s : Snapshot) : Prop :=
  0 < s.agents_dialing ∧ overdialCeiling limits s < 2 * s.agents_dialing + s.agents_reserved

/-- The condition compares three counts. -/
instance {fl : Rounding} (limits : SafetyLimits fl) (s : Snapshot) :
    Decidable (s.Crowded limits) := inferInstanceAs (Decidable (_ ∧ _))

namespace PacingLoop

variable {fl : Rounding} (p : PacingLoop)

/-- A snapshot counts as many ringing calls as dialing agents. -/
theorem snapshot_ringing {s : Sys} (h : s.Bound) (now clock_now : Time)
    (provider_health : Option (List (String × ℚ))) :
    (p.snapshot now clock_now provider_health s.db).calls_ringing
        = (p.snapshot now clock_now provider_health s.db).agents_dialing ∧
      0 ≤ (p.snapshot now clock_now provider_health s.db).agents_dialing := by
  have hfast : (p.snapshot now clock_now provider_health s.db).toMetricsSnapshot
      = MetricsRepo.snapshotNaive (p.resolvedStats now) p.campaign_id clock_now s.db := by
    rw [← MetricsRepo.snapshotFast_eq_of_agree _ _ _ h.agree]
    cases provider_health <;> rfl
  have hringing : (MetricsRepo.callCountsNaive p.campaign_id s.db).1
      = s.db.calls.count fun _ c => c.campaign_id == p.campaign_id && c.state.isRinging :=
    Table.countP_select s.db.calls (fun _ c => c.campaign_id == p.campaign_id)
      fun _ c => c.state.isRinging
  rw [hfast]
  unfold MetricsRepo.snapshotNaive
  simp only
  rw [hringing, MetricsRepo.countOf_agentCountsNaive, h.ringing_eq_dialing]
  exact ⟨rfl, Int.natCast_nonneg _⟩

/-- **Trigger.** A tick finds excess calls exactly if its snapshot is crowded. -/
theorem sweeps_iff (limits : SafetyLimits fl) {s : Sys} (h : s.Bound) (now clock_now : Time)
    (provider_health : Option (List (String × ℚ))) :
    allowedRinging limits (p.snapshot now clock_now provider_health s.db)
        < (p.snapshot now clock_now provider_health s.db).calls_ringing ↔
      (p.snapshot now clock_now provider_health s.db).Crowded limits := by
  obtain ⟨hringing, hnonneg⟩ := p.snapshot_ringing h now clock_now provider_health
  rw [hringing]
  -- `d > max 0 (ceiling - (d + reserved))`, where the `d` on the right are the agents
  unfold allowedRinging Snapshot.Crowded Snapshot.agent_bound_inflight
  omega

/-- The snapshot of a tick is not crowded. -/
def TickClear (l : State fl) : Act → Prop
  | .tick now clock_now _ provider_health =>
    match l.phase with
    | .idle => ¬ (p.snapshot now clock_now provider_health l.sys.db).Crowded l.ctx.limits
    | _ => True
  | _ => True

/-- Whether a tick is clear can be told from the state before it. -/
instance (l : State fl) (a : Act) : Decidable (p.TickClear l a) :=
  match l, a with
  | ⟨sys, ctx, .idle, _⟩, .tick now clock_now _ provider_health =>
    inferInstanceAs (Decidable
      (¬ (p.snapshot now clock_now provider_health sys.db).Crowded ctx.limits))
  | ⟨_, _, .placing .., _⟩, .tick .. | ⟨_, _, .sweeping _, _⟩, .tick .. =>
    inferInstanceAs (Decidable True)
  | _, .allocate .. | _, .sweep | _, .cancel _ | _, .giveUp | _, .takeOver | _, .world _ =>
    inferInstanceAs (Decidable True)

/-- Nobody logs in or out or pauses, and the reaper does not come. -/
def Act.inScope : Act → Bool
  | .world (.login ..) | .world (.logout ..) | .world (.pause ..) | .world (.reap ..) => false
  | _ => true

/-- What is known of a run without crowded ticks: no sweep has found anything to do, and the one of
    this tick will not either. -/
structure Calm (l : State fl) : Prop where
  bound : l.sys.Bound
  pulledBack : l.pulledBack = []
  placing : ∀ snapshot left batch, l.phase = .placing snapshot left batch →
    snapshot.calls_ringing ≤ allowedRinging l.ctx.limits snapshot
  not_sweeping : ∀ todo, l.phase ≠ .sweeping todo

/-- Between two ticks. -/
private theorem Calm.of_idle {l : State fl} (hbound : l.sys.Bound) (hback : l.pulledBack = [])
    (hidle : l.phase = .idle) : Calm l where
  bound := hbound
  pulledBack := hback
  placing := fun _ _ _ hplacing => by
    rw [hidle] at hplacing
    cases hplacing
  not_sweeping := fun _ hsweep => by
    rw [hidle] at hsweep
    cases hsweep

/-- **Step.** An action in scope keeps the calm, if it is no crowded tick. -/
theorem Calm.step {l : State fl} (h : Calm l) {a : Act} (hscope : a.inScope = true)
    (hclear : p.TickClear l a) : Calm (p.step l a) := by
  cases a with
  | tick now clock_now n provider_health =>
    rw [PacingLoop.step]
    unfold TickClear at hclear
    cases hphase : l.phase with
    | idle =>
      rw [hphase] at hclear
      refine ⟨h.bound, h.pulledBack, ?_, fun _ hsweep => by cases hsweep⟩
      rintro snapshot left batch hplacing
      cases hplacing
      have hquiet := mt (p.sweeps_iff l.ctx.limits h.bound now clock_now provider_health).mp hclear
      simp only [evaluate_limits]
      exact not_lt.mp hquiet
    | placing | sweeping => exact h
  | allocate now clock_now lockedAgents lockedBorrowers pick =>
    rw [PacingLoop.step]
    cases hphase : l.phase with
    | placing snapshot left batch =>
      cases left with
      | zero => exact h
      | succ left =>
        have hassumed : PairingAssumed l.sys (.reserveAndCreate now clock_now lockedAgents
          lockedBorrowers pick p.worker p.campaign_id) := trivial
        refine ⟨h.bound.step p.cfg hassumed, h.pulledBack, ?_, fun _ hsweep => by cases hsweep⟩
        rintro snapshot' left' batch' hplacing
        cases hplacing
        exact h.placing snapshot (left + 1) batch hphase
    | idle | sweeping => exact h
  | sweep =>
    rw [PacingLoop.step]
    cases hphase : l.phase with
    | placing snapshot left batch =>
      cases left with
      | zero =>
        have hquiet := h.placing snapshot 0 batch hphase
        simp only
        split
        · -- the snapshot was not crowded, so there is nothing to sweep
          rw [if_neg (not_lt.mpr hquiet)]
          exact .of_idle h.bound h.pulledBack rfl
        · exact h
      | succ left => exact h
    | idle | sweeping => exact h
  | cancel now =>
    rw [PacingLoop.step]
    cases hphase : l.phase with
    | sweeping todo => exact absurd hphase (h.not_sweeping todo)
    | idle | placing => exact h
  -- outside a sweep there is nothing to give up
  | giveUp =>
    rw [PacingLoop.step]
    cases hphase : l.phase with
    | sweeping todo => exact absurd hphase (h.not_sweeping todo)
    | idle | placing => exact h
  | takeOver => exact .of_idle h.bound h.pulledBack rfl
  | world a =>
    refine ⟨h.bound.step p.cfg ?_, h.pulledBack, h.placing, h.not_sweeping⟩
    cases a with
    | login | logout | pause | reap => cases hscope
    | _ => trivial

/-! ### Runs -/

/-- A database with campaigns and nothing else binds nobody. -/
theorem bound_opened (campaigns : Table CampaignRow) : (opened campaigns).Bound where
  live := ⟨live_init.healthy, live_init.planned⟩
  paired := Floor.paired_init
  sameCampaign := fun _ _ _ hc => by cases hc
  agree := agree_empty.of_writes (.single (.elsewhere rfl rfl rfl))

/-- Setting up a campaign makes no calls, so the staff is bound to none. -/
theorem bound_setup (cfg : Settings) {s : Sys} (h : s.Bound) (hcalls : s.db.calls = .empty)
    {a : SmartDialer.Act} (ha : isSetup a = true) :
    (SmartDialer.step cfg s a).Bound ∧ (SmartDialer.step cfg s a).db.calls = .empty := by
  -- so it may log agents in and out without leaving a live call behind
  have hidle : ∀ i k c, s.db.calls.get? k = some c → c.agent_id = some i →
      c.state.isTerminal = true := by
    intro i k c hc
    rw [hcalls] at hc
    cases hc
  cases a with
  | login now i => exact ⟨h.step cfg (hidle i), hcalls⟩
  | logout now i => exact ⟨h.step cfg (hidle i), hcalls⟩
  | pause now i => exact ⟨h.step cfg (hidle i), hcalls⟩
  | createAgent now campaign_id ext_ref =>
    refine ⟨h.step cfg trivial, ?_⟩
    rcases Txn.commit_cases (AgentRepo.create now campaign_id ext_ref) s.db with
      ⟨i, hrun, _⟩ | ⟨hc, _⟩
    · rw [SmartDialer.step, Sys.exec_db, ← Db.view_calls, insertAgent_run hrun]
      exact hcalls
    · rw [SmartDialer.step, Sys.exec_db, hc]
      exact hcalls
  | seed now campaign_id phone priority max_attempts =>
    refine ⟨h.step cfg trivial, ?_⟩
    obtain ⟨db', hrun, hv⟩ := BorrowerRepo.seed_run now campaign_id phone priority max_attempts s.db
    rw [SmartDialer.step, Sys.exec_db, (Txn.commit_of_run hrun).1, ← Db.view_calls db']
    rcases hv with hv | hv <;> rw [hv] <;> exact hcalls
  | _ => cases ha

/-- A loop that is about to start is calm. -/
theorem calm_start (limits : SafetyLimits fl) (campaigns : Table CampaignRow)
    {setup : List SmartDialer.Act} (hsetup : ∀ a ∈ setup, isSetup a = true) :
    Calm (p.start limits campaigns setup) := by
  have hboth := invariant_along (I := fun s : Sys => s.Bound ∧ s.db.calls = .empty)
    (fun s a hs ha => bound_setup p.cfg hs.1 hs.2 ha) ⟨bound_opened campaigns, rfl⟩
    (along_of_forall (P := fun a => isSetup a = true) (opened campaigns) hsetup)
  exact .of_idle hboth.1 rfl rfl

/-- **No self-triggered pullback.** After the campaigns have been set up, a run in which nobody logs
    in or out or pauses pulls back no call if none of its ticks is crowded.  The calls of
    dialing agents are counted twice, in flight and ringing, and a tick is crowded when that takes
    them over the ceiling. -/
theorem no_pullback_run (limits : SafetyLimits fl) (campaigns : Table CampaignRow)
    (setup : List SmartDialer.Act) (acts : List Act) (hsetup : ∀ a ∈ setup, isSetup a = true)
    (hscope : ∀ a ∈ acts, a.inScope = true)
    (hclear : Along p.step p.TickClear (p.start limits campaigns setup) acts) :
    (run p.step (p.start limits campaigns setup) acts).pulledBack = [] := by
  have halong : Along p.step (fun _ a => a.inScope = true) (p.start limits campaigns setup) acts :=
    along_of_forall (P := fun a : Act => a.inScope = true) _ hscope
  have hcalm := invariant_along (I := Calm) (fun l a hl ha => hl.step p ha.1 ha.2)
    (p.calm_start limits campaigns hsetup) (halong.and hclear)
  exact hcalm.pulledBack

/-! ### Two campaigns -/

/-- The loop of campaign 7, in which no call has been resolved yet. -/
def loop7 : PacingLoop := ⟨.default, 7, "w1", fun _ _ _ => .unknown .binary64⟩

/-- The limits that nobody has configured: the overdial ratio is 1.5. -/
def defaultLimits : SafetyLimits .binary64 := .new .binary64 (.default .binary64)

/-- Campaign 7 is active. -/
def campaign7 : Table CampaignRow := Table.empty.insertAt 7 ⟨true⟩

/-- Two agents log in, and there are two borrowers. -/
def twoAgents : List SmartDialer.Act :=
  [.createAgent 0 7 "ext-1", .login 0 1, .createAgent 0 7 "ext-2", .login 0 2,
    .seed 0 7 "+15550001" 100 3, .seed 0 7 "+15550002" 50 3]

/-- The first tick dials one borrower, the second tick finds the call ringing. -/
def twoTicks : List Act :=
  [.tick 0 0 1 none, .allocate 0 0 [] [] (some "mock"), .world (.placeCall 1),
    .world (.accepted (secs 1) (secs 1) 1 "pc-1"), .sweep, .tick (secs 2) (secs 2) 0 none, .sweep]

/-- Two agents, and a call that rings when the second tick comes: the sweep cancels nothing. -/
theorem no_pullback_twoTicks :
    (run loop7.step (loop7.start defaultLimits campaign7 twoAgents) twoTicks).pulledBack = [] :=
  no_pullback_run loop7 defaultLimits campaign7 twoAgents twoTicks (by decide) (by decide)
    (by decide +kernel)

/-- One agent logs in. -/
def oneAgent : List SmartDialer.Act :=
  [.createAgent 0 7 "ext-1", .login 0 1, .seed 0 7 "+15550001" 100 3]

/-- The same two ticks for one agent, and the sweep of the second one. -/
def ownCall : List Act := twoTicks ++ [.cancel (secs 2)]

/-- The second tick cancels the call that the first one has approved. -/
theorem ownCall_pulledBack :
    1 ≤ defaultLimits.max_overdial_ratio ∧ (∀ a ∈ oneAgent, isSetup a = true) ∧
      (∀ a ∈ ownCall, a.inScope = true) ∧
      (run loop7.step (loop7.start defaultLimits campaign7 oneAgent) ownCall).pulledBack = [1] ∧
      ((run loop7.step (loop7.start defaultLimits campaign7 oneAgent) ownCall).sys.db.calls.get?
        1).map (fun c => (c.state, c.failure_reason)) = some (.CANCELLED, some "SAFETY_PULLBACK") :=
  ⟨by decide +kernel, by decide, by decide, by decide +kernel, by decide +kernel⟩

end PacingLoop

end SmartDialer
