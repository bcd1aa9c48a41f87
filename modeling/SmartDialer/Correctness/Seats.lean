import SmartDialer.Lib.Matching
import SmartDialer.Correctness.Attempts

namespace SmartDialer

open Relational

/-!
# Agents and calls are a matching

`FORCE_STATE` is unconditional, so nothing in the database keeps the state of an agent in line with
its call.  What does is that whoever writes it holds the agent by a call: the records of the two
tables are a `Matching`, and every move of the floor links two free parties, shifts a pair or sets
both parties free.

* `AgentRow.seat`, `CallRow.seat` — what an agent and a call say about the pair they are in.
* `Floor.Paired` — the two agree, and no attempt in flight has lost its call.
* `Floor.Safe` — what is asked of staffing and of the reaper.
-/

/-! ### Seats -/

/-- The phase that an agent and its call are in, with the columns that have to agree. -/
inductive Seat where
  | reserved (lease_expires_at : Option Time)
  | dialing (current_call_id : Option ℕ)
  | connected
  deriving DecidableEq, Repr

/-- What an agent row says about the call that the agent is busy with. -/
def AgentRow.seat (a : AgentRow) : Option Seat :=
  match a.state with
  | .RESERVED => some (.reserved a.lease_expires_at)
  | .DIALING => some (.dialing a.current_call_id)
  | .CONNECTED => some .connected
  | .OFFLINE | .AVAILABLE | .WRAP_UP | .PAUSED => none

/-- The phase of a call. -/
def CallRow.phase (call_id : ℕ) (c : CallRow) : Option Seat :=
  match c.state with
  | .QUEUED | .RESERVED => some (.reserved c.lease_expires_at)
  | .INITIATED | .RINGING | .ANSWERED => some (.dialing (some call_id))
  | .CONNECTED => some .connected
  | .COMPLETED | .FAILED | .CANCELLED | .ABANDONED => none

/-- What a call row says about its agent. -/
def CallRow.seat (call_id : ℕ) (c : CallRow) : Option (ℕ × Seat) :=
  c.agent_id.bind fun agent_id => (c.phase call_id).map fun p => (agent_id, p)

/-- The seat of an agent tells its state, and in `DIALING` its call as well. -/
theorem AgentRow.state_of_seat {a : AgentRow} {p : Seat} (h : a.seat = some p) :
    match p with
    | .reserved _ => a.state = .RESERVED
    | .dialing call_id => a.state = .DIALING ∧ a.current_call_id = call_id
    | .connected => a.state = .CONNECTED := by
  unfold AgentRow.seat at h
  cases hs : a.state <;> rw [hs] at h <;> cases h
  · rfl
  · exact ⟨rfl, rfl⟩
  · rfl

/-- An agent that is busy with a call is in some seat. -/
theorem AgentRow.seat_of_busy {a : AgentRow}
    (h : a.state = .RESERVED ∨ a.state = .DIALING ∨ a.state = .CONNECTED) :
    ∃ p, a.seat = some p := by
  unfold AgentRow.seat
  rcases h with h | h | h <;> rw [h] <;> exact ⟨_, rfl⟩

/-- A live call is in some phase with its agent. -/
theorem CallRow.seat_of_live (call_id : ℕ) {agent_id : ℕ} {c : CallRow}
    (hagent : c.agent_id = some agent_id) (hlive : c.state.isTerminal = false) :
    ∃ p, c.seat call_id = some (agent_id, p) := by
  unfold CallRow.seat CallRow.phase
  rw [hagent]
  cases hs : c.state <;> rw [hs] at hlive <;>
    first | exact ⟨_, rfl⟩ | exact absurd hlive (by decide)

/-- A call that has ended holds no agent. -/
theorem CallRow.seat_of_terminal (call_id : ℕ) {c : CallRow} (h : c.state.isTerminal = true) :
    c.seat call_id = none := by
  unfold CallRow.seat CallRow.phase
  cases hs : c.state <;> rw [hs] at h <;>
    first | exact absurd h (by decide) | cases c.agent_id <;> rfl

/-- The seat of a call is its agent and its phase. -/
theorem CallRow.seat_eq_some_iff {call_id agent_id : ℕ} {c : CallRow} {p : Seat} :
    c.seat call_id = some (agent_id, p) ↔
      c.agent_id = some agent_id ∧ c.phase call_id = some p := by
  unfold CallRow.seat
  constructor
  · intro h
    obtain ⟨a, hagent, hmap⟩ := Option.bind_eq_some_iff.mp h
    obtain ⟨q, hq, heq⟩ := Option.map_eq_some_iff.mp hmap
    cases heq
    exact ⟨hagent, hq⟩
  · rintro ⟨hagent, hp⟩
    rw [hagent, hp]
    rfl

/-- A call in the reserved phase is yet to be dialed. -/
theorem CallRow.state_of_reserved {call_id : ℕ} {c : CallRow} {lease : Option Time}
    (h : c.phase call_id = some (.reserved lease)) :
    (c.state = .QUEUED ∨ c.state = .RESERVED) ∧ c.lease_expires_at = lease := by
  unfold CallRow.phase at h
  cases hs : c.state <;> rw [hs] at h <;> cases h
  · exact ⟨Or.inl rfl, rfl⟩
  · exact ⟨Or.inr rfl, rfl⟩

/-- A call that waits to be answered is in the dialing phase. -/
theorem CallRow.phase_of_isRinging {call_id : ℕ} {c : CallRow} (h : c.state.isRinging = true) :
    c.phase call_id = some (.dialing (some call_id)) := by
  unfold CallRow.phase
  cases hs : c.state <;> rw [hs] at h <;> first | rfl | exact absurd h (by decide)

/-! ### The invariant -/

namespace Floor

/-- The call that each agent is busy with, by the records of the agents. -/
def busy (F : Floor) : ℕ → Option Seat := F.agents.column fun _ a => a.seat

/-- The agent that each call holds, by the records of the calls. -/
def live (F : Floor) : ℕ → Option (ℕ × Seat) := F.calls.column fun i c => c.seat i

/-- Agents and live calls are matched one to one, and the attempts in flight find their calls as
    they left them. -/
structure Paired (F : Floor) : Prop where
  prompt : F.Prompt
  matching : Matching F.busy F.live

/-- What is asked of the moves: staff moves concern agents without a live call, and the reaper
    fails no call whose attempt is still to run its second transaction. -/
def Safe (F : Floor) : Move → Prop
  | .staffed agent_id => ∀ i c, F.calls.get? i = some c → c.agent_id = some agent_id →
      c.state.isTerminal = true
  | .orphaned call_id => F.Unattended call_id
  | _ => True

/-- Routine moves are never in question. -/
theorem safe_routine (F : Floor) (m : Move) (hm : m.Routine) : F.Safe m := by
  cases m <;> trivial

section

variable {F F' : Floor} {i agent_id : ℕ} {c : CallRow} {f : CallRow → CallRow}
  {g : AgentRow → AgentRow}

/-- A call holds an agent exactly when it names the agent and is in a phase that needs one. -/
theorem live_eq_some_iff {p : Seat} : F.live i = some (agent_id, p) ↔
    ∃ c, F.calls.get? i = some c ∧ c.agent_id = some agent_id ∧ c.phase i = some p := by
  unfold live
  rw [Table.column_eq_some_iff]
  exact exists_congr fun c => and_congr_right fun _ => CallRow.seat_eq_some_iff

/-- A live call holds its agent. -/
theorem live_of_call (hc : F.calls.get? i = some c) (hagent : c.agent_id = some agent_id)
    (hlive : c.state.isTerminal = false) : ∃ p, F.live i = some (agent_id, p) := by
  obtain ⟨p, hp⟩ := CallRow.seat_of_live i hagent hlive
  exact ⟨p, (Table.column_of_get? _ hc).trans hp⟩

/-- An agent whose calls have all ended is held by none. -/
theorem live_of_idle (hidle : ∀ i c, F.calls.get? i = some c →
    c.agent_id = some agent_id → c.state.isTerminal = true) (i : ℕ) (p : Seat) :
    F.live i ≠ some (agent_id, p) := by
  intro hl
  obtain ⟨c, hc, hagent, hp⟩ := live_eq_some_iff.mp hl
  have hseat := CallRow.seat_eq_some_iff.mpr ⟨hagent, hp⟩
  rw [CallRow.seat_of_terminal i (hidle i c hc hagent)] at hseat
  cases hseat

/-- Agents that are updated without changing their seat. -/
private theorem matching_of_busy (h : Matching F.busy F.live) (hb : F'.busy = F.busy)
    (hl : F'.live = F.live) : Matching F'.busy F'.live := by
  rw [hb, hl]
  exact h

/-- A free agent that is set to another free state. -/
private theorem busy_of_free (hbusy : F.busy agent_id = none) (hg : ∀ a, (g a).seat = none)
    (hagents : F'.agents = F.agents.alter agent_id g) : F'.busy = F.busy := by
  unfold busy
  rw [hagents, Table.column_alter _ (fun a _ => hg a) fun _ => rfl]
  exact Function.update_eq_self_iff.mpr hbusy.symm

/-- **Shift.** A pair moves on when both rows are set to the same phase. -/
private theorem matching_shift (h : Matching F.busy F.live) (hc : F.calls.get? i = some c)
    (hagent : c.agent_id = some agent_id) (hlive : c.state.isTerminal = false) {p : Seat}
    (hf : (f c).seat i = some (agent_id, p)) (hg : ∀ a, (g a).seat = some p)
    (hagents : F'.agents = F.agents.alter agent_id g) (hcalls : F'.calls = F.calls.alter i f) :
    Matching F'.busy F'.live := by
  obtain ⟨q, hq⟩ := live_of_call hc hagent hlive
  have hbusy : F'.busy = Function.update F.busy agent_id (some p) := by
    unfold busy
    rw [hagents]
    apply Table.column_alter _ (fun a _ => hg a)
    intro hnone
    -- the agent of a live call exists
    obtain ⟨a, ha, _⟩ := Table.column_eq_some_iff.mp (h.agrees i agent_id q hq)
    rw [hnone] at ha
    cases ha
  have hlive' : F'.live = Function.update F.live i (some (agent_id, p)) := by
    unfold live
    rw [hcalls]
    refine Table.column_alter _ (fun d hd => ?_) fun hnone => ?_
    · rw [hc, Option.some.injEq] at hd
      exact hd ▸ hf
    · rw [hnone] at hc
      cases hc
  rw [hbusy, hlive']
  exact h.shift hq p

/-- **Unlink.** The end of a live call sets its agent free. -/
private theorem matching_unlink (h : Matching F.busy F.live) (hc : F.calls.get? i = some c)
    (hagent : c.agent_id = some agent_id) (hlive : c.state.isTerminal = false)
    (hend : (f c).state.isTerminal = true) (hg : ∀ a, (g a).seat = none)
    (hagents : F'.agents = F.agents.alter agent_id g) (hcalls : F'.calls = F.calls.alter i f) :
    Matching F'.busy F'.live := by
  obtain ⟨q, hq⟩ := live_of_call hc hagent hlive
  have hbusy : F'.busy = Function.update F.busy agent_id none := by
    unfold busy
    rw [hagents]
    exact Table.column_alter _ (fun a _ => hg a) fun _ => rfl
  have hlive' : F'.live = Function.update F.live i none := by
    unfold live
    rw [hcalls]
    refine Table.column_alter _ (fun d hd => ?_) fun _ => rfl
    rw [hc, Option.some.injEq] at hd
    exact hd ▸ CallRow.seat_of_terminal _ hend
  rw [hbusy, hlive']
  exact h.unlink hq

end

/-- **Step.** Every safe move keeps agents and calls paired. -/
theorem Paired.step {F F' : Floor} {m : Move} (h : F.Paired) (hs : F.Safe m) (hm : F.Step m F') :
    F'.Paired := by
  have hprompt : F'.Prompt := h.prompt.step (fun i hi => by subst hi; exact hs) hm
  obtain ⟨hnolate, hnolate'⟩ := h.prompt.not_late hm
  refine ⟨hprompt, ?_⟩
  have hM := h.matching
  cases hm with
  | seeded | unclaimed | placed | forgotten | unlocked => exact hM
  | @hired r hr =>
    refine matching_of_busy hM ?_ rfl
    have hseat : r.seat = none := by unfold AgentRow.seat; rw [hr]
    unfold busy
    rw [Table.column_push, hseat]
    exact Function.update_eq_self_iff.mpr (Table.column_nextId _ _).symm
  | staffed hstate =>
    -- safe: no live call names the agent, so it is free before and after
    refine matching_of_busy hM (busy_of_free (hM.free (live_of_idle hs)) (fun a => ?_) rfl) rfl
    rcases hstate with rfl | rfl | rfl <;> rfl
  | @unreserved now lease worker agent_id a ha hav =>
    -- the reservation is undone in the transaction that made it
    have hfree : F.busy agent_id = none := by
      rw [busy, Table.column_of_get? _ ha, AgentRow.seat, hav]
    exact matching_of_busy hM (busy_of_free hfree (fun _ => rfl) (Table.alter_alter _ _ _ _)) rfl
  | @allotted now lease worker provider phone campaign_id agent_id borrower_id a b ha hav =>
    have hfree : F.busy agent_id = none := by
      rw [busy, Table.column_of_get? _ ha, AgentRow.seat, hav]
    -- the agent row and the new call row carry the same lease
    have hlink := hM.link hfree (Table.column_nextId _ _) (.reserved (some lease))
    have hbusy : (F.agents.alter agent_id (AgentRepo.reservedRow now worker lease)).column
        (fun _ a => a.seat) = Function.update F.busy agent_id (some (.reserved (some lease))) :=
      Table.column_alter _ (fun _ _ => rfl) fun hnone => by rw [hnone] at ha; cases ha
    unfold busy live at hlink ⊢
    rw [hbusy, Table.column_push]
    exact hlink
  | @dialed now lease worker pcid call_id att c hatt hc hres =>
    obtain ⟨c', hc', hagent, _, _⟩ := h.prompt.call hatt
    rw [hc, Option.some.injEq] at hc'
    subst hc'
    have hseat : (CallRepo.advancedRow now .INITIATED (some pcid) (some lease) none c).seat
        att.reservation.call_id = some (att.reservation.agent_id,
          .dialing (some att.reservation.call_id)) := CallRow.seat_eq_some_iff.mpr ⟨hagent, rfl⟩
    exact matching_shift hM hc hagent (by rw [hres]; rfl) hseat (fun _ => rfl) rfl rfl
  | dialedLate => exact absurd rfl hnolate
  | refused hatt hc hlive hf hend =>
    obtain ⟨c, hc', hagent, _, _⟩ := h.prompt.call hatt
    rw [hc, Option.some.injEq] at hc'
    subst hc'
    exact matching_unlink hM hc hagent hlive hend (fun _ => rfl) rfl rfl
  | refusedLate => exact absurd rfl (hnolate' _)
  | @rang call_id c f hc hini hf hring =>
    refine matching_of_busy hM rfl ?_
    -- the phase of a call does not change when it starts to ring
    have hphase : (f c).seat call_id = c.seat call_id := by
      unfold CallRow.seat CallRow.phase
      rw [hf.agent_id, hring, hini]
    unfold live
    rw [Table.column_alter _ (b := c.seat call_id) (fun d hd => ?_) fun hnone => ?_]
    · exact Function.update_eq_self_iff.mpr (Table.column_of_get? _ hc).symm
    · rw [hc, Option.some.injEq] at hd
      exact hd ▸ hphase
    · rw [hnone] at hc
      cases hc
  | @connected now call_id agent_id c f hc hring hagent hf hconn =>
    have hphase : (f c).phase call_id = some .connected := by unfold CallRow.phase; rw [hconn]
    exact matching_shift hM hc hagent (live_of_isRinging hring)
      (CallRow.seat_eq_some_iff.mpr ⟨hf.agent_id.trans hagent, hphase⟩) (fun _ => rfl) rfl rfl
  | ended hc hlive _ hagent hf hfinal hend hav =>
    refine matching_unlink hM hc hagent hlive (by rw [hfinal]; exact hend) (fun a => ?_) rfl rfl
    rcases hav with rfl | rfl <;> rfl
  | orphaned hc hlive hagent hf hend =>
    exact matching_unlink hM hc hagent hlive hend (fun _ => rfl) rfl rfl
  | @reclaimed now now_ts hres =>
    refine matching_of_busy hM (Table.column_modify _ fun i a ha hrec => ?_) rfl
    simp only [isReclaimed, Bool.and_eq_true, Bool.or_eq_true, beq_iff_eq] at hrec
    obtain ⟨hst | hst, hlease⟩ := hrec
    · -- a reserved agent has the lease of a reserved call, and that one has not run out
      have hbusy : F.busy i = some (.reserved a.lease_expires_at) := by
        rw [busy, Table.column_of_get? _ ha, AgentRow.seat, hst]
      obtain ⟨k, hk⟩ := hM.covered i _ hbusy
      obtain ⟨c, hc, _, hp⟩ := live_eq_some_iff.mp hk
      obtain ⟨hcs, hcl⟩ := CallRow.state_of_reserved hp
      rw [← hcl, hres k c hc hcs] at hlease
      cases hlease
    · unfold AgentRow.seat reclaimedRow
      rw [hst]
      rfl
  | wrapupOver =>
    -- both the state in wrap-up and the state after it are free
    refine matching_of_busy hM (Table.column_modify _ fun i a ha hover => ?_) rfl
    simp only [isWrapupOver, Bool.and_eq_true, beq_iff_eq] at hover
    unfold AgentRow.seat wrapupReleasedRow
    rw [hover.1]

end Floor

end SmartDialer
