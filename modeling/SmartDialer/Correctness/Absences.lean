import SmartDialer.Lib.Roster
import SmartDialer.Correctness.MassLogout

namespace SmartDialer

open Relational

/-!
# What mass logouts leave of the pairing

An agent that is logged out during a call stays offline until the call ends, and nobody else is
given to it meanwhile: `RESERVE_AGENT` takes available agents only.  So a mass logout, whenever it
comes, costs a call its agent, but it never gives an agent two calls, and it leaves nobody busy
with a call that is not there.

* `AgentRow.post` — what an agent says about its call, unless it is offline.
* `Floor.Rostered` — agents and calls are a roster; every move keeps it.
* `scenario_staff` — so it is in every scenario.
-/

/-! ### Posts -/

/-- What an agent row says about the call that the agent is busy with, unless it is offline. -/
def AgentRow.post (a : AgentRow) : Option (Option Seat) :=
  if a.state = .OFFLINE then none else some a.seat

/-- An agent that is not offline posts the call it is busy with, or that it has none. -/
theorem AgentRow.post_of_ne {a : AgentRow} (h : a.state ≠ .OFFLINE) : a.post = some a.seat :=
  if_neg h

/-- Who is busy is there. -/
theorem AgentRow.post_of_seat {a : AgentRow} {p : Seat} (h : a.seat = some p) :
    a.post = some (some p) := by
  rw [← h]
  refine AgentRow.post_of_ne fun hs => ?_
  rw [AgentRow.seat, hs] at h
  cases h

namespace Floor

/-- The calls that the agents are busy with, by the records of the agents. -/
def posts (F : Floor) : ℕ → Option (Option Seat) := F.agents.column fun _ a => a.post

/-- Agents and calls agree about every agent that is not offline. -/
structure Rostered (F : Floor) : Prop where
  prompt : F.Prompt
  roster : Roster F.posts F.live

/-- At the start there is nobody, and no call. -/
theorem rostered_init : Sys.init.floor.Rostered where
  prompt := fun _ _ h => by cases h
  roster :=
    ⟨(fun _ _ _ h => by cases h), (fun _ _ _ _ _ h => by cases h), fun _ _ h => by cases h⟩

section

variable {F F' : Floor} {i agent_id : ℕ} {a : AgentRow} {c : CallRow} {f : CallRow → CallRow}
  {g : AgentRow → AgentRow}

/-- The post of an agent is read off its row. -/
theorem posts_of_get? (ha : F.agents.get? agent_id = some a) : F.posts agent_id = a.post :=
  Table.column_of_get? _ ha

/-- The agents that are there are updated, and the others stay away. -/
private theorem posts_alter {x : Option Seat} (hagents : F'.agents = F.agents.alter agent_id g)
    (hg : ∀ a, (g a).post = some x) :
    ∃ y, (y = none ∨ y = some x) ∧ F'.posts = Function.update F.posts agent_id y := by
  unfold posts
  rw [hagents]
  cases ha : F.agents.get? agent_id with
  | none =>
    refine ⟨none, Or.inl rfl, Table.column_alter _ (fun a ha' => ?_) fun _ => rfl⟩
    rw [ha] at ha'
    cases ha'
  | some a =>
    refine ⟨some x, Or.inr rfl, Table.column_alter _ (fun a _ => hg a) fun hnone => ?_⟩
    rw [ha] at hnone
    cases hnone

/-- Writing the row of a call moves that call and no other. -/
private theorem live_alter (hcalls : F'.calls = F.calls.alter i f) (hc : F.calls.get? i = some c) :
    F'.live = Function.update F.live i ((f c).seat i) := by
  unfold live
  rw [hcalls]
  refine Table.column_alter _ (fun d hd => ?_) fun hnone => ?_
  · rw [hc] at hd
    cases hd
    rfl
  · rw [hc] at hnone
    cases hnone

/-- **Shift.** A pair moves on when both rows are set to the same phase. -/
private theorem roster_shift (h : Roster F.posts F.live) (hc : F.calls.get? i = some c)
    (hagent : c.agent_id = some agent_id) (hlive : c.state.isTerminal = false) {p : Seat}
    (hf : (f c).seat i = some (agent_id, p)) (hg : ∀ a, (g a).post = some (some p))
    (hagents : F'.agents = F.agents.alter agent_id g) (hcalls : F'.calls = F.calls.alter i f) :
    Roster F'.posts F'.live := by
  obtain ⟨q, hq⟩ := live_of_call hc hagent hlive
  obtain ⟨y, hy, hposts⟩ := posts_alter hagents hg
  rw [hposts, live_alter hcalls hc, hf]
  exact h.shift hq hy

/-- **Unlink.** The end of a live call sets its agent free. -/
private theorem roster_unlink (h : Roster F.posts F.live) (hc : F.calls.get? i = some c)
    (hagent : c.agent_id = some agent_id) (hlive : c.state.isTerminal = false)
    (hend : (f c).state.isTerminal = true) (hg : ∀ a, (g a).post = some none)
    (hagents : F'.agents = F.agents.alter agent_id g) (hcalls : F'.calls = F.calls.alter i f) :
    Roster F'.posts F'.live := by
  obtain ⟨q, hq⟩ := live_of_call hc hagent hlive
  obtain ⟨y, hy, hposts⟩ := posts_alter hagents hg
  rw [hposts, live_alter hcalls hc, CallRow.seat_of_terminal i hend]
  exact h.unlink hq hy

/-- **Return.** Whoever no live call names is free, there or away. -/
private theorem roster_come (h : Roster F.posts F.live)
    (hidle : ∀ i p, F.live i ≠ some (agent_id, p)) (hg : ∀ a, (g a).post = some none)
    (hagents : F'.agents = F.agents.alter agent_id g) (hlive : F'.live = F.live) :
    Roster F'.posts F'.live := by
  obtain ⟨y, hy, hposts⟩ := posts_alter hagents hg
  rw [hposts, hlive]
  rcases hy with rfl | rfl
  · exact h.leave agent_id
  · exact h.come hidle

/-- **Leave.** Anybody may go away. -/
theorem roster_leave (h : Roster F.posts F.live) (hg : ∀ a, (g a).post = none)
    (hagents : F'.agents = F.agents.alter agent_id g) (hlive : F'.live = F.live) :
    Roster F'.posts F'.live := by
  have hposts : F'.posts = Function.update F.posts agent_id none := by
    unfold posts
    rw [hagents]
    exact Table.column_alter _ (fun a _ => hg a) fun _ => rfl
  rw [hposts, hlive]
  exact h.leave agent_id

end

/-- **Step.** Every safe move keeps the roster. -/
theorem Rostered.step {F F' : Floor} {m : Move} (h : F.Rostered) (hs : F.Safe m)
    (hm : F.Step m F') : F'.Rostered := by
  have hprompt : F'.Prompt := h.prompt.step (fun i hi => by subst hi; exact hs) hm
  obtain ⟨hnolate, hnolate'⟩ := h.prompt.not_late hm
  refine ⟨hprompt, ?_⟩
  have hR := h.roster
  cases hm with
  | seeded | unclaimed | placed | forgotten | unlocked => exact hR
  | @hired r hr =>
    show Roster ((F.agents.push r).column fun _ a => a.post) F.live
    rw [Table.column_push, AgentRow.post, if_pos hr]
    exact hR.leave _
  | @staffed now agent_id state hstate =>
    -- safe: no live call names the agent
    have hidle : ∀ i p, F.live i ≠ some (agent_id, p) := live_of_idle hs
    rcases hstate with rfl | rfl | rfl
    · exact roster_come hR hidle (fun _ => rfl) rfl rfl
    · exact roster_leave hR (fun _ => rfl) rfl rfl
    · exact roster_come hR hidle (fun _ => rfl) rfl rfl
  | @unreserved now lease worker agent_id a ha hav =>
    -- the reservation is undone in the transaction that made it
    have hfree : F.posts agent_id = some none := by
      rw [posts_of_get? ha, AgentRow.post_of_ne (by rw [hav]; decide), AgentRow.seat, hav]
    exact roster_come hR (fun i p => hR.unnamed hfree i p) (fun _ => rfl)
      (Table.alter_alter _ _ _ _) rfl
  | @allotted now lease worker provider phone campaign_id agent_id borrower_id a b ha hav =>
    have hfree : F.posts agent_id = some none := by
      rw [posts_of_get? ha, AgentRow.post_of_ne (by rw [hav]; decide), AgentRow.seat, hav]
    -- the agent row and the new call row carry the same lease
    have hlink := hR.link hfree (Table.column_nextId _ _) (.reserved (some lease))
    have hposts : (F.agents.alter agent_id (AgentRepo.reservedRow now worker lease)).column
        (fun _ a => a.post) = Function.update F.posts agent_id
          (some (some (.reserved (some lease)))) :=
      Table.column_alter _ (fun _ _ => rfl) fun hnone => by rw [hnone] at ha; cases ha
    unfold posts live at hlink ⊢
    rw [hposts, Table.column_push]
    exact hlink
  | @dialed now lease worker pcid call_id att c hatt hc hres =>
    obtain ⟨c', hc', hagent, _, _⟩ := h.prompt.call hatt
    rw [hc, Option.some.injEq] at hc'
    subst hc'
    have hseat : (CallRepo.advancedRow now .INITIATED (some pcid) (some lease) none c).seat
        att.reservation.call_id = some (att.reservation.agent_id,
          .dialing (some att.reservation.call_id)) := CallRow.seat_eq_some_iff.mpr ⟨hagent, rfl⟩
    exact roster_shift hR hc hagent (by rw [hres]; rfl) hseat (fun _ => rfl) rfl rfl
  | dialedLate => exact absurd rfl hnolate
  | refused hatt hc hlive hf hend =>
    obtain ⟨c, hc', hagent, _, _⟩ := h.prompt.call hatt
    rw [hc, Option.some.injEq] at hc'
    subst hc'
    exact roster_unlink hR hc hagent hlive hend (fun _ => rfl) rfl rfl
  | refusedLate => exact absurd rfl (hnolate' _)
  | @rang call_id c f hc hini hf hring =>
    -- the phase of a call does not change when it starts to ring
    have hseat : (f c).seat call_id = c.seat call_id := by
      unfold CallRow.seat CallRow.phase
      rw [hf.agent_id, hring, hini]
    rw [live_alter rfl hc, hseat, ← show F.live call_id = c.seat call_id from
      Table.column_of_get? _ hc, Function.update_eq_self]
    exact hR
  | @connected now call_id agent_id c f hc hring hagent hf hconn =>
    have hphase : (f c).phase call_id = some .connected := by unfold CallRow.phase; rw [hconn]
    exact roster_shift hR hc hagent (live_of_isRinging hring)
      (CallRow.seat_eq_some_iff.mpr ⟨hf.agent_id.trans hagent, hphase⟩) (fun _ => rfl) rfl rfl
  | ended hc hlive _ hagent hf hfinal hend hav =>
    refine roster_unlink hR hc hagent hlive (by rw [hfinal]; exact hend) (fun a => ?_) rfl rfl
    rcases hav with rfl | rfl <;> rfl
  | orphaned hc hlive hagent hf hend =>
    exact roster_unlink hR hc hagent hlive hend (fun _ => rfl) rfl rfl
  | @reclaimed now now_ts hres =>
    show Roster ((F.agents.modify _ _).column fun _ a => a.post) F.live
    rw [Table.column_modify _ fun i a ha hrec => ?_]
    · exact hR
    simp only [isReclaimed, Bool.and_eq_true, Bool.or_eq_true, beq_iff_eq] at hrec
    obtain ⟨hst | hst, hlease⟩ := hrec
    · -- a reserved agent has the lease of a reserved call, and that one has not run out
      have hbusy : F.posts i = some (some (.reserved a.lease_expires_at)) := by
        rw [posts_of_get? ha]
        exact AgentRow.post_of_seat (by rw [AgentRow.seat, hst])
      obtain ⟨k, hk⟩ := hR.covered i _ hbusy
      obtain ⟨c, hc, _, hp⟩ := live_eq_some_iff.mp hk
      obtain ⟨hcs, hcl⟩ := CallRow.state_of_reserved hp
      rw [← hcl, hres k c hc hcs] at hlease
      cases hlease
    · unfold AgentRow.post AgentRow.seat reclaimedRow
      rw [hst]
      rfl
  | wrapupOver =>
    -- both the state in wrap-up and the state after it are free
    show Roster ((F.agents.modify _ _).column fun _ a => a.post) F.live
    rw [Table.column_modify _ fun i a ha hover => ?_]
    · exact hR
    simp only [isWrapupOver, Bool.and_eq_true, beq_iff_eq] at hover
    unfold AgentRow.post AgentRow.seat wrapupReleasedRow
    rw [hover.1]
    rfl

end Floor

/-! ### What the roster says -/

namespace Floor.Rostered

variable {F : Floor} {i agent_id : ℕ} {c : CallRow} {a : AgentRow}

/-- An agent has no two live calls. -/
theorem call_unique (h : F.Rostered) {j : ℕ} {d : CallRow} (hc : F.calls.get? i = some c)
    (hd : F.calls.get? j = some d) (hca : c.agent_id = some agent_id)
    (hda : d.agent_id = some agent_id) (hcl : c.state.isTerminal = false)
    (hdl : d.state.isTerminal = false) : i = j := by
  obtain ⟨p, hp⟩ := live_of_call hc hca hcl
  obtain ⟨q, hq⟩ := live_of_call hd hda hdl
  exact h.roster.unique i j agent_id p q hp hq

/-- The agent of a live call is offline, or it is in the seat of the call. -/
theorem agent_of_call (h : F.Rostered) (hc : F.calls.get? i = some c)
    (hagent : c.agent_id = some agent_id) (hlive : c.state.isTerminal = false)
    (ha : F.agents.get? agent_id = some a) :
    a.state = .OFFLINE ∨ ∃ p, a.seat = some p ∧ c.phase i = some p := by
  by_cases hoff : a.state = .OFFLINE
  · exact Or.inl hoff
  · obtain ⟨p, hp⟩ := live_of_call hc hagent hlive
    have hseat := h.roster.agrees i agent_id p hp _
      ((posts_of_get? ha).trans (AgentRow.post_of_ne hoff))
    refine Or.inr ⟨p, hseat, ?_⟩
    rw [live, Table.column_of_get? _ hc] at hp
    exact (CallRow.seat_eq_some_iff.mp hp).2

/-- A busy agent has a call in its seat. -/
theorem call_of_agent (h : F.Rostered) (ha : F.agents.get? agent_id = some a) {p : Seat}
    (hseat : a.seat = some p) :
    ∃ i c, F.calls.get? i = some c ∧ c.agent_id = some agent_id ∧ c.phase i = some p := by
  obtain ⟨i, hi⟩ := h.roster.covered agent_id p
    ((posts_of_get? ha).trans (AgentRow.post_of_seat hseat))
  exact ⟨i, live_eq_some_iff.mp hi⟩

end Floor.Rostered

/-! ### Runs -/

/-- Anybody may log out; otherwise what pairing assumes. -/
def StaffAssumed (s : Sys) (a : Act) : Prop := (∀ now i, a ≠ .logout now i) → PairingAssumed s a

/-- The new assumption is weaker than that of pairing: it exempts the logouts. -/
theorem PairingAssumed.staffAssumed {s : Sys} {a : Act} (h : PairingAssumed s a) :
    StaffAssumed s a := fun _ => h

/-- **Step.** -/
theorem rostered_step (cfg : Settings) {s : Sys} {a : Act} (hs : s.Live) (h : s.floor.Rostered)
    (ha : StaffAssumed s a) : (step cfg s a).floor.Rostered := by
  by_cases hlogout : ∃ now i, a = .logout now i
  · obtain ⟨now, i, rfl⟩ := hlogout
    have hm : s.floor.Step (.staffed i) (step cfg s (.logout now i)).floor :=
      .staffed (Or.inr (Or.inl rfl))
    exact ⟨h.prompt.step (fun _ hi => by cases hi) hm,
      Floor.roster_leave h.roster (fun _ => rfl) rfl rfl⟩
  · push Not at hlogout
    exact (step_path cfg hs (ha hlogout).permits).invariant (I := Floor.Rostered)
      (fun _ _ _ hF hH hm => hF.step hH hm) h

namespace Scenario.State

/-- A scenario, as a run of the system in which anybody may log out. -/
structure Attended (cfg : Settings) (s : State) : Prop where
  ordered : s.Ordered
  reaches : Reaches (SmartDialer.step cfg) StaffAssumed Sys.init s.sys

section

variable {cfg : Settings} {s : State}

/-- Before `setup_campaign` nobody has logged out. -/
theorem attended_init (cfg : Settings) : init.Attended cfg := ⟨ordered_init, .refl _⟩

/-- A scenario is a run of the system, so its references are sound. -/
theorem Attended.referring (h : s.Attended cfg) : s.sys.Referring :=
  h.reaches.of_run fun acts _ => referring_run cfg acts

/-- A scenario is a run in which only agents log out, so agents and calls agree about the rest. -/
theorem Attended.rostered (h : s.Attended cfg) : s.sys.floor.Rostered := by
  refine (h.reaches.of_run (P := fun s => s.Live ∧ s.floor.Rostered) fun _ hacts => ?_).2
  exact invariant_along (I := fun s : Sys => s.Live ∧ s.floor.Rostered)
    (fun _ a hs ha => ⟨live_step cfg hs.1 a, rostered_step cfg hs.1 hs.2 ha⟩)
    ⟨live_init, Floor.rostered_init⟩ hacts

/-- **Step.** -/
theorem attended_step (h : s.Attended cfg) (a : Act) : (step cfg s a).Attended cfg := by
  refine ⟨ordered_step cfg h.ordered a, h.reaches.append ?_⟩
  have hidle : s.LogoutsIdle a →
      Along (SmartDialer.step cfg) StaffAssumed s.sys (s.writes a) := by
    intro ha
    refine Along.mono (fun _ _ hb => hb.staffAssumed)
      (h.ordered.pairingAssumed cfg (fun i c agent_id hc hagent => ?_) ha)
    obtain ⟨r, hr, _⟩ := h.referring.sameCampaign i c agent_id hc hagent
    exact ⟨r, hr⟩
  cases a with
  | logout now injector =>
    refine Along.mono (fun _ b hb hno => ?_) (along_of_forall
      (P := fun b => ∃ i, b = SmartDialer.Act.logout now i) s.sys fun b hb => ?_)
    · obtain ⟨i, rfl⟩ := hb
      exact absurd rfl (hno now i)
    · obtain ⟨i, _, rfl⟩ := List.mem_map.mp hb
      exact ⟨i, rfl⟩
  | _ => exact hidle trivial

end

end Scenario.State

/-- **Staff.** In every scenario, whatever is drawn and whenever agents are logged out, no agent has
    two live calls, a live call finds its agent offline or in the state that matches its own, and an
    agent that is busy has such a call. -/
theorem scenario_staff (cfg : Settings) (acts : List Scenario.Act) :
    let db := (run (Scenario.step cfg) Scenario.init acts).sys.db
    (∀ i j c d agent_id, db.calls.get? i = some c → db.calls.get? j = some d →
      c.agent_id = some agent_id → d.agent_id = some agent_id →
      c.state ∉ terminal → d.state ∉ terminal → i = j) ∧
    (∀ i c agent_id a, db.calls.get? i = some c → c.agent_id = some agent_id →
      c.state ∉ terminal → db.agents.get? agent_id = some a →
      a.state = .OFFLINE ∨ a.state.matchesCall c.state = true ∧
        (a.state = .DIALING → a.current_call_id = some i)) ∧
    ∀ agent_id a, db.agents.get? agent_id = some a →
      a.state = .RESERVED ∨ a.state = .DIALING ∨ a.state = .CONNECTED →
      ∃ i c, db.calls.get? i = some c ∧ c.agent_id = some agent_id ∧
        a.state.matchesCall c.state = true := by
  intro db
  have h := invariant_run (I := Scenario.State.Attended cfg)
    (fun _ a hs => Scenario.State.attended_step hs a) (Scenario.State.attended_init cfg) acts
  have hF := h.rostered
  have hset := h.referring.kept.live.healthy.settled
  have hlive : ∀ {t : CallState}, t ∉ terminal → t.isTerminal = false := by
    intro t ht
    rw [mem_terminal, Bool.not_eq_true] at ht
    exact ht
  refine ⟨fun i j c d agent_id hc hd hca hda hct hdt => ?_, fun i c agent_id a hc hca hct ha => ?_,
    fun agent_id a ha hs => ?_⟩
  · exact hF.call_unique hc hd hca hda (hlive hct) (hlive hdt)
  · rcases hF.agent_of_call hc hca (hlive hct) ha with hoff | ⟨p, hseat, hphase⟩
    · exact Or.inl hoff
    · exact Or.inr (matchesCall_of_seat (hset i c hc) hseat hphase)
  · obtain ⟨p, hseat⟩ := AgentRow.seat_of_busy hs
    obtain ⟨i, c, hc, hca, hphase⟩ := hF.call_of_agent ha hseat
    exact ⟨i, c, hc, hca, (matchesCall_of_seat (hset i c hc) hseat hphase).1⟩

end SmartDialer
