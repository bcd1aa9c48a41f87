import SmartDialer.Correctness.CallRows
import SmartDialer.Correctness.Delivery

namespace SmartDialer

open Relational

/-!
# Calls underway

The events of a call that is being dialed come in any order and any number of times.  Whatever
has come, the call is dialing, connected or over, and agent and borrower agree with it
(`Underway`).  One more event keeps it so, whichever branch of `apply_one` it takes
(`Underway.applied`).
-/

/-- A call that is being dialed, its agent and its borrower. -/
structure Dialed (db : Db) (call_id agent_id : ℕ) (c : CallRow) (b : BorrowerRow) (ref : String) :
    Prop where
  call : db.calls.get? call_id = some c
  state : c.state = .INITIATED
  state_rank : c.state_rank = rank .INITIATED
  provider_call_id : c.provider_call_id = some ref
  agent : ∃ a, db.agents.get? agent_id = some a ∧ a.state = .DIALING ∧
    a.current_call_id = some call_id
  borrower : db.borrowers.get? c.borrower_id = some b
  agent_id : c.agent_id = some agent_id

/-! ### The call -/

/-- The row of the call has come from `c₀` to a state, by images of increasing ranks. -/
structure Advanced (v₀ : View) (call_id : ℕ) (c₀ : CallRow) (state : CallState) (v : View) :
    Prop where
  call : ∃ c, v.calls.get? call_id = some c ∧ c.state = state ∧ c.state_rank = rank state ∧
    c.provider = c₀.provider ∧ c.provider_call_id = c₀.provider_call_id ∧
    c.agent_id = c₀.agent_id ∧ c.borrower_id = c₀.borrower_id
  written : ∃ w : List CallRow, v.versions = v₀.versions ++ w.map (fun r => (call_id, r)) ∧
    (w.map (·.state)).Pairwise (fun s t => rank s < rank t) ∧ ∀ r ∈ w, rank r.state ≤ rank state

section

variable {v₀ v : View} {call_id : ℕ} {c₀ c : CallRow} {state s : CallState}

/-- **Advance.** One more image, of a higher rank. -/
theorem Advanced.advance (h : Advanced v₀ call_id c₀ state v) (hc : v.calls.get? call_id = some c)
    (hpcid : c₀.provider_call_id.isSome = true) (hs : rank state < rank s) (now : Time)
    (pcid : Option String) :
    Advanced v₀ call_id c₀ s (v.setCall call_id c (CallRepo.advancedRow now s pcid none none)) := by
  obtain ⟨c', hc', _, _, hp, href, hagent, hb⟩ := h.call
  rw [hc] at hc'
  cases hc'
  obtain ⟨w, hv, hw, hle⟩ := h.written
  refine ⟨⟨CallRepo.advancedRow now s pcid none none c, ?_, rfl, rfl, hp, ?_, hagent, hb⟩,
    ⟨w ++ [CallRepo.advancedRow now s pcid none none c], ?_, ?_, ?_⟩⟩
  · rw [View.setCall_calls, Table.get?_alter, if_pos rfl, hc]
    rfl
  · -- the reference was given when the call was dialed
    show c.provider_call_id.or pcid = c₀.provider_call_id
    rw [Option.or_of_isSome (by rw [href]; exact hpcid), href]
  · rw [View.setCall_versions, hv, List.map_append, List.append_assoc]
    rfl
  · rw [List.map_append, List.pairwise_append]
    refine ⟨hw, List.pairwise_singleton _ _, fun t ht t' ht' => ?_⟩
    obtain ⟨r, hr, rfl⟩ := List.mem_map.mp ht
    rw [List.mem_singleton.mp ht']
    exact lt_of_le_of_lt (hle r hr) hs
  · intro r hr
    show rank r.state ≤ rank s
    rcases List.mem_append.mp hr with hr | hr
    · have hlt := lt_of_le_of_lt (hle r hr) hs
      omega
    · rw [List.mem_singleton.mp hr]
      exact le_refl _

/-- What happens to agents, borrowers and ledger does not matter to the call. -/
theorem Advanced.of_eq {v' : View} (h : Advanced v₀ call_id c₀ state v) (hc : v'.calls = v.calls)
    (hv : v'.versions = v.versions) : Advanced v₀ call_id c₀ state v' where
  call := by rw [hc]; exact h.call
  written := by rw [hv]; exact h.written

end

/-! ### Call, agent and borrower -/

/-- What the agent of a call does while the call is in the given state. -/
def Attending (call_id : ℕ) (state : CallState) (a : AgentRow) : Prop :=
  if state.isRinging then a.state = .DIALING ∧ a.current_call_id = some call_id
  else agentOnCallState state = some a.state

/-- The events of a call have brought it to a state, and agent and borrower agree with it. -/
structure Underway (v₀ : View) (call_id agent_id : ℕ) (c₀ : CallRow) (b : BorrowerRow)
    (T state : CallState) (v : View) : Prop where
  stage : state = .INITIATED ∨ state = .RINGING ∨ state = .CONNECTED ∨ state = T
  advanced : Advanced v₀ call_id c₀ state v
  agent : ∃ a, v.agents.get? agent_id = some a ∧ Attending call_id state a
  live : state.isTerminal = false → v.borrowers.get? c₀.borrower_id = some b
  ended : state.isTerminal = true → ∃ now, v.borrowers.get? c₀.borrower_id =
    some (BorrowerRepo.endedRow now state (secs 60) b)

/-- The events that may come: the call rings, is answered, or ends in `T`. -/
def Reports (T s : CallState) : Prop := s = .RINGING ∨ s = .ANSWERED ∨ s = T

section

variable {v₀ v : View} {call_id agent_id : ℕ} {c₀ c : CallRow} {b : BorrowerRow}
  {T state : CallState}

/-- A dialed call is underway. -/
theorem Dialed.underway {db : Db} {ref : String} (h : Dialed db call_id agent_id c₀ b ref)
    (T : CallState) : Underway db.view call_id agent_id c₀ b T .INITIATED db.view where
  stage := Or.inl rfl
  advanced := ⟨⟨c₀, h.call, h.state, h.state_rank, rfl, rfl, rfl, rfl⟩,
    ⟨[], by rw [List.map_nil, List.append_nil], .nil, fun r hr => by cases hr⟩⟩
  agent := by
    obtain ⟨a, ha, hs, hcall⟩ := h.agent
    exact ⟨a, ha, hs, hcall⟩
  live := fun _ => h.borrower
  ended := fun hend => absurd hend (by decide)

namespace Underway

/-- The ledger does not matter. -/
theorem of_eq {v' : View} (h : Underway v₀ call_id agent_id c₀ b T state v)
    (ha : v'.agents = v.agents) (hb : v'.borrowers = v.borrowers) (hc : v'.calls = v.calls)
    (hv : v'.versions = v.versions) : Underway v₀ call_id agent_id c₀ b T state v' where
  stage := h.stage
  advanced := h.advanced.of_eq hc hv
  agent := by rw [ha]; exact h.agent
  live := by rw [hb]; exact h.live
  ended := by rw [hb]; exact h.ended

/-- The call rings. -/
private theorem rang (h : Underway v₀ call_id agent_id c₀ b T state v)
    (hT : T.isTerminal = true) (hc : v.calls.get? call_id = some c)
    (hpcid : c₀.provider_call_id.isSome = true) (hlegal : CallState.RINGING ∈ legalNext state)
    (now : Time) (pcid : Option String) :
    Underway v₀ call_id agent_id c₀ b T .RINGING
      (v.setCall call_id c (CallRepo.advancedRow now .RINGING pcid none none)) := by
  -- a call rings only before anything else is heard of it
  have hstate : state = .INITIATED := by
    rcases h.stage with rfl | rfl | rfl | rfl
    · rfl
    · exact absurd hlegal (by decide)
    · exact absurd hlegal (by decide)
    · rw [legalNext_of_isTerminal hT] at hlegal
      cases hlegal
  subst hstate
  exact
    { stage := Or.inr (Or.inl rfl)
      advanced := h.advanced.advance hc hpcid (by decide) now pcid
      agent := h.agent
      live := h.live
      ended := fun hend => absurd hend (by decide) }

/-- The call is answered while its agent is dialing it, so it is bridged. -/
private theorem connected (h : Underway v₀ call_id agent_id c₀ b T state v)
    (hT : T.isTerminal = true) (hc : v.calls.get? call_id = some c)
    (hagent : c₀.agent_id = some agent_id) (hpcid : c₀.provider_call_id.isSome = true)
    (hlegal : CallState.ANSWERED ∈ legalNext state) (now clock_now wrapup : Time)
    (pcid : Option String) :
    bridgeState v.agents call_id c = .CONNECTED ∧
    Underway v₀ call_id agent_id c₀ b T .CONNECTED
      (((v.setCall call_id c (CallRepo.advancedRow now .ANSWERED pcid none none)).setCall call_id
        (CallRepo.advancedRow now .ANSWERED pcid none none c)
        (CallRepo.advancedRow now .CONNECTED none none none)).sideEffects now c .CONNECTED
          clock_now wrapup) := by
  -- nothing is answered twice, nor after the end
  have hring : state.isRinging = true := by
    rcases h.stage with rfl | rfl | rfl | rfl
    · rfl
    · rfl
    · exact absurd hlegal (by decide)
    · rw [legalNext_of_isTerminal hT] at hlegal
      cases hlegal
  obtain ⟨c', hc', _, _, _, _, hca, _⟩ := h.advanced.call
  rw [hc] at hc'
  cases hc'
  have hcagent : c.agent_id = some agent_id := hca.trans hagent
  obtain ⟨a, ha, hatt⟩ := h.agent
  rw [Attending, if_pos hring] at hatt
  have hrank : rank state < rank .ANSWERED := legalNext_rank hlegal
  have hlive : state.isTerminal = false := live_of_edge hlegal
  constructor
  · unfold bridgeState isBridged
    rw [hcagent, Option.bind_some, ha]
    simp [hatt.1, hatt.2]
  · have hanswered := h.advanced.advance hc hpcid hrank now pcid
    have hrow : (v.setCall call_id c
        (CallRepo.advancedRow now .ANSWERED pcid none none)).calls.get? call_id
          = some (CallRepo.advancedRow now .ANSWERED pcid none none c) := by
      rw [View.setCall_calls, Table.get?_alter, if_pos rfl, hc]
      rfl
    have hconnected := hanswered.advance (s := .CONNECTED) hrow hpcid (by decide) now none
    rw [View.sideEffects_connected hcagent]
    exact
      { stage := Or.inr (Or.inr (Or.inl rfl))
        advanced := hconnected.of_eq rfl rfl
        agent := by
          refine ⟨AgentRepo.forcedRow now .CONNECTED none none none a, ?_, rfl⟩
          rw [View.setAgent_agents, View.setCall_agents, View.setCall_agents, Table.get?_alter,
            if_pos rfl, ha]
          rfl
        live := fun _ => h.live hlive
        ended := fun hend => absurd hend (by decide) }

/-- The call ends. -/
private theorem finished (h : Underway v₀ call_id agent_id c₀ b T state v)
    (hT : T.isTerminal = true) (hc : v.calls.get? call_id = some c)
    (hagent : c₀.agent_id = some agent_id) (hpcid : c₀.provider_call_id.isSome = true)
    (hlegal : T ∈ legalNext state) (now clock_now wrapup : Time) (pcid : Option String) :
    Underway v₀ call_id agent_id c₀ b T T
      ((v.setCall call_id c (CallRepo.advancedRow now T pcid none none)).sideEffects now c T
        clock_now wrapup) := by
  obtain ⟨c', hc', _, _, _, _, hca, hcb⟩ := h.advanced.call
  rw [hc] at hc'
  cases hc'
  have hcagent : c.agent_id = some agent_id := hca.trans hagent
  obtain ⟨a, ha, _⟩ := h.agent
  obtain ⟨agent_state, lease, hon, _, heff⟩ := View.sideEffects_terminal hcagent hT now clock_now
    wrapup (v.setCall call_id c (CallRepo.advancedRow now T pcid none none))
  have hringing : T.isRinging = false := by
    cases T <;> first | rfl | exact absurd hT (by decide)
  rw [heff]
  exact
    { stage := Or.inr (Or.inr (Or.inr rfl))
      advanced := (h.advanced.advance hc hpcid (legalNext_rank hlegal) now pcid).of_eq rfl rfl
      agent := by
        refine ⟨AgentRepo.forcedRow now agent_state none lease none a, ?_, ?_⟩
        · rw [View.setBorrower_agents, View.setAgent_agents, View.setCall_agents, Table.get?_alter,
            if_pos rfl, ha]
          rfl
        · rw [Attending, hringing]
          exact hon
      live := fun hlive => absurd hT (by rw [hlive]; exact Bool.false_ne_true)
      ended := by
        intro _
        refine ⟨now, ?_⟩
        rw [View.setBorrower_borrowers, View.setAgent_borrowers, View.setCall_borrowers, hcb,
          Table.get?_alter, if_pos rfl, h.live (live_of_edge hlegal)]
        rfl }

/-- **One event.** Whatever the check and the guard make of an event, the call stays underway, and
    it is over if the event claims so. -/
theorem applied {db : Db} {o : Option CallState} {s : CallState} {ev : ℕ × EventRow}
    {now clock_now wrapup : Time} (h : Underway v₀ call_id agent_id c₀ b T state db.view)
    (hT : T.isTerminal = true) (hc : db.calls.get? call_id = some c)
    (hagent : c₀.agent_id = some agent_id) (hpcid : c₀.provider_call_id.isSome = true)
    (hs : Reports T s)
    (happ : Applied now ev clock_now wrapup db (if (canApply c.state s).1 then .passed call_id s
      else .refused call_id (canApply c.state s).2) o v) :
    ∃ state', Underway v₀ call_id agent_id c₀ b T state' v ∧
      (state.isTerminal = true ∨ s = T → state' = T) := by
  obtain ⟨c', hc', hcs, hcr, _⟩ := h.advanced.call
  rw [Db.view_calls, hc] at hc'
  cases hc'
  rw [hcs] at happ
  have hend : state.isTerminal = true → state = T := by
    intro hterminal
    rcases h.stage with rfl | rfl | rfl | rfl
    · exact absurd hterminal (by decide)
    · exact absurd hterminal (by decide)
    · exact absurd hterminal (by decide)
    · rfl
  cases hcan : (canApply state s).1 with
  | false =>
    -- a refused event leaves everything as it is
    simp only [hcan, Bool.false_eq_true, if_false] at happ
    cases happ
    refine ⟨state, h.of_eq rfl rfl rfl rfl, ?_⟩
    rintro (hterminal | rfl)
    · exact hend hterminal
    · -- the end of a call is refused only when it has ended before
      cases hlive : state.isTerminal with
      | true => exact hend hlive
      | false =>
        have hlegal := canApply_iff.mpr (legalNext_terminal hlive hT)
        rw [hcan] at hlegal
        cases hlegal
  | true =>
    have hlegal : s ∈ legalNext state := canApply_iff.mp hcan
    have hlive : state.isTerminal = false := live_of_edge hlegal
    simp only [hcan, if_true] at happ
    cases happ with
    | lost hlost =>
      -- the rank guard agrees with the check
      have hle := hlost c hc
      have hlt := legalNext_rank hlegal
      omega
    | moved hi hc' _ =>
      rw [hc] at hc'
      cases hc'
      rcases hs with rfl | rfl | rfl
      · refine ⟨.RINGING, (h.rang hT hc hpcid hlegal now _).of_eq rfl rfl rfl rfl, ?_⟩
        rintro (hterminal | heq)
        · rw [hlive] at hterminal
          cases hterminal
        · exact heq
      · exact absurd rfl hi
      · exact ⟨s, (h.finished hT hc hagent hpcid hlegal now clock_now wrapup _).of_eq rfl rfl rfl
          rfl, fun _ => rfl⟩
    | bridged hc' _ ha hn =>
      rw [hc] at hc'
      cases hc'
      obtain ⟨hbridge, hnext⟩ :=
        h.connected hT hc hagent hpcid hlegal now clock_now wrapup ev.2.provider_call_id
      rw [Db.view_agents] at hbridge
      rw [hn, ha, hbridge]
      refine ⟨.CONNECTED, hnext.of_eq rfl rfl rfl rfl, ?_⟩
      rintro (hterminal | heq)
      · rw [hlive] at hterminal
        cases hterminal
      · rw [← heq] at hT
        cases hT

end Underway

end

end SmartDialer
