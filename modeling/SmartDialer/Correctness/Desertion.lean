import SmartDialer.Correctness.Staffing
import SmartDialer.Correctness.RowWrites

namespace SmartDialer

open Relational

/-!
# Agents that leave while a drain is open

A drain reads over its own writes, and its commit writes them again.  If an agent leaves in between,
a call that was read as connected may be abandoned by the commit, and this is all that can become
different: what has ended where the agents stay has ended where some have left.

* `View.Deserted` — the same calls, after some agents have left.
* `Applied.deserted`, `applyPlan_deserted` — an event, and a whole plan, keep this.
-/

/-! ### The relation -/

/-- The agent of a call is not dialing, if it has one. -/
def View.Free (v : View) (agent_id : Option ℕ) : Prop :=
  ∀ i a, agent_id = some i → v.agents.get? i = some a → a.state ≠ .DIALING

/-- The same calls after some agents have left: a call may be abandoned that is connected, or more,
    where they stay. -/
structure View.Deserted (v v' : View) : Prop where
  agents : ∀ i a', v'.agents.get? i = some a' → a'.state = .DIALING →
    ∃ a, v.agents.get? i = some a ∧ a.state = .DIALING ∧ a.current_call_id = a'.current_call_id
  calls : ∀ k c, v.calls.get? k = some c →
    ∃ c', v'.calls.get? k = some c' ∧ c'.agent_id = c.agent_id ∧
      (c'.state_rank = c.state_rank ∨
        5 ≤ c.state_rank ∧ 6 ≤ c'.state_rank ∧ v'.Free c.agent_id)

namespace View.Deserted

variable {v v₁ v' v'' : View}

/-- The calls are the same, and nobody has begun to dial. -/
theorem of_calls (hcalls : v'.calls = v.calls)
    (hagents : ∀ i a', v'.agents.get? i = some a' → a'.state = .DIALING →
      v.agents.get? i = some a') : v.Deserted v' where
  agents i a' ha' hs := ⟨a', hagents i a' ha' hs, hs, rfl⟩
  calls _ c hc := ⟨c, hcalls ▸ hc, rfl, Or.inl rfl⟩

/-- Nobody has left, and no call has changed. -/
theorem refl (v : View) : v.Deserted v := .of_calls rfl fun _ _ ha _ => ha

/-- Who is free stays free. -/
theorem free (h : v.Deserted v') {o : Option ℕ} (hf : v.Free o) : v'.Free o := by
  intro i a' ho ha' hs
  obtain ⟨a, ha, hs, _⟩ := h.agents i a' ha' hs
  exact hf i a ho ha hs

/-- More agents may leave later. -/
theorem trans (h : v.Deserted v') (h' : v'.Deserted v'') : v.Deserted v'' where
  agents i a'' ha'' hs := by
    obtain ⟨a', ha', hs', hcur'⟩ := h'.agents i a'' ha'' hs
    obtain ⟨a, ha, hs, hcur⟩ := h.agents i a' ha' hs'
    exact ⟨a, ha, hs, hcur.trans hcur'⟩
  calls k c hc := by
    obtain ⟨c', hc', hagent, hrank⟩ := h.calls k c hc
    obtain ⟨c'', hc'', hagent', hrank'⟩ := h'.calls k c' hc'
    refine ⟨c'', hc'', hagent'.trans hagent, ?_⟩
    rcases hrank' with hsame' | ⟨h5, h6, hfree⟩
    · rcases hrank with hsame | ⟨h5, h6, hfree⟩
      · exact Or.inl (hsame'.trans hsame)
      · exact Or.inr ⟨h5, hsame' ▸ h6, h'.free hfree⟩
    · rw [hagent] at hfree
      refine Or.inr ⟨?_, h6, hfree⟩
      rcases hrank with hsame | ⟨h5', _⟩
      · exact hsame ▸ h5
      · exact h5'

/-- Who is connected to its agent where some have left is so where they stay. -/
theorem isBridged (h : v.Deserted v') {k : ℕ} {o : Option ℕ}
    (hb : isBridged k (o.bind v'.agents.get?) = true) :
    SmartDialer.isBridged k (o.bind v.agents.get?) = true := by
  cases o with
  | none => cases hb
  | some i =>
    rw [Option.bind_some] at hb ⊢
    cases ha' : v'.agents.get? i with
    | none => rw [ha'] at hb; cases hb
    | some a' =>
      rw [ha'] at hb
      simp only [SmartDialer.isBridged, Bool.and_eq_true, beq_iff_eq] at hb
      obtain ⟨a, ha, hs, hcur⟩ := h.agents i a' ha' hb.2
      rw [ha]
      simp [SmartDialer.isBridged, hs, hcur, hb.1]

/-- An answered call goes the same way, or it is abandoned instead of connected. -/
theorem bridgeState (h : v.Deserted v') {c c' : CallRow} (hagent : c'.agent_id = c.agent_id)
    (k : ℕ) : SmartDialer.bridgeState v'.agents k c' = SmartDialer.bridgeState v.agents k c ∨
      SmartDialer.bridgeState v.agents k c = .CONNECTED ∧
        SmartDialer.bridgeState v'.agents k c' = .ABANDONED := by
  unfold SmartDialer.bridgeState
  rw [hagent]
  by_cases hb' : SmartDialer.isBridged k (c.agent_id.bind v'.agents.get?) = true
  · rw [if_pos hb', if_pos (h.isBridged hb')]
    exact Or.inl rfl
  · rw [if_neg hb']
    split
    · exact Or.inr ⟨rfl, rfl⟩
    · exact Or.inl rfl

end View.Deserted

/-! ### Events -/

section

variable {now clock_now wrapup : Time} {p : Planned} {db : Db} {o : Option CallState} {v : View}

/-- An agent that an event touches is free afterwards. -/
theorem Applied.frees (h : Applied now p.event clock_now wrapup db p.read o v)
    (hp : p.Valid db.view) {i : ℕ} (ht : p.Touches db.view i) : v.Free (some i) := by
  obtain ⟨k, s, c, hpass, hring, hc, hrank, hagent⟩ := ht
  have hvalid := hp k s hpass
  rw [hpass] at h
  -- whatever row the agent had, it is in this state now
  have hset : ∀ (state : AgentState) (lease : Option Time),
      v.agents = db.agents.alter i (AgentRepo.forcedRow now state none lease none) →
      state ≠ .DIALING → v.Free (some i) := by
    intro state lease hagents hstate j a hj ha
    obtain rfl := Option.some.inj hj
    rw [hagents, Table.get?_alter, if_pos rfl] at ha
    obtain ⟨a₀, _, rfl⟩ := Option.map_eq_some_iff.mp ha
    exact hstate
  cases h with
  | lost hlost => exact absurd hrank (not_lt.mpr (hlost c hc))
  | @moved _ _ d hi hd _ =>
    obtain rfl := Option.some.inj (hc.symm.trans hd)
    rcases hvalid.1 with hs | hs | hterm
    · exact absurd hs hring
    · exact absurd hs hi
    · obtain ⟨state, lease, _, hfree, heff⟩ := View.sideEffects_terminal hagent hterm now clock_now
        wrapup (db.view.setCall k c
          (CallRepo.advancedRow now s p.event.2.provider_call_id none none))
      refine hset state lease ?_ ?_
      · rw [View.setEvent_agents, heff]
        rfl
      · rcases hfree with rfl | rfl <;> decide
  | @bridged _ d answered next hd _ ha hn =>
    obtain rfl := Option.some.inj (hc.symm.trans hd)
    rcases bridgeState_cases db.agents k c with hnext | hnext <;> rw [hnext] at hn <;> subst hn
    · refine hset .CONNECTED none ?_ (by decide)
      rw [View.setEvent_agents, View.sideEffects_connected hagent]
      rfl
    · refine hset .AVAILABLE none ?_ (by decide)
      rw [View.setEvent_agents]
      unfold View.sideEffects
      rw [hagent]
      rfl

/-- Whoever is dialing after an event was dialing before, and it has not touched him. -/
theorem Applied.dialing (h : Applied now p.event clock_now wrapup db p.read o v)
    (hh : db.view.Healthy) (hp : p.Valid db.view) {i : ℕ} {a : AgentRow}
    (ha : v.agents.get? i = some a) (hs : a.state = .DIALING) :
    db.agents.get? i = some a ∧ ¬ p.Touches db.view i := by
  have hnot : ¬ p.Touches db.view i := fun ht => h.frees hp ht i a rfl ha hs
  rcases h.staff hh hp with ⟨hagents, _⟩ | ⟨j, g, ht, _, _, hagents⟩
  · exact ⟨hagents ▸ ha, hnot⟩
  · have hij : i ≠ j := fun hij => hnot (hij ▸ ht)
    rw [hagents, Table.get?_alter, if_neg hij] at ha
    exact ⟨ha, hnot⟩

/-- An event writes to no agent but the one of its call. -/
theorem Applied.untouched (h : Applied now p.event clock_now wrapup db p.read o v)
    (hh : db.view.Healthy) (hp : p.Valid db.view) {i : ℕ} (hi : ¬ p.Touches db.view i) :
    v.agents.get? i = db.agents.get? i := by
  rcases h.staff hh hp with ⟨hagents, _⟩ | ⟨j, g, ht, _, _, hagents⟩
  · rw [hagents]
  · rw [hagents, Table.get?_alter, if_neg fun hij : i = j => hi (hij ▸ ht)]

end

/-- **Simulation.** Applied to the same calls after some agents have left, an event leaves the same
    calls after some agents have left. -/
theorem Applied.deserted {now clock_now wrapup : Time} {p : Planned} {db db' : Db}
    {o o' : Option CallState} {v v' : View}
    (h : Applied now p.event clock_now wrapup db p.read o v)
    (h' : Applied now p.event clock_now wrapup db' p.read o' v') (hh : db.view.Healthy)
    (hh' : db'.view.Healthy) (hp : p.Valid db.view) (hp' : p.Valid db'.view)
    (hd : db.view.Deserted db'.view) : v.Deserted v' where
  agents i a' ha' hs' := by
    obtain ⟨hold, hnot'⟩ := h'.dialing hh' hp' ha' hs'
    obtain ⟨a, ha, hs, hcur⟩ := hd.agents i a' hold hs'
    -- had the event touched him where they stay, he would be free here
    have hnot : ¬ p.Touches db.view i := by
      rintro ⟨k, s, c, hpass, hring, hc, hrank, hagent⟩
      obtain ⟨c', hc', hagent', hcase⟩ := hd.calls k c hc
      rcases hcase with hsame | ⟨_, _, hfree⟩
      · exact hnot' ⟨k, s, c', hpass, hring, hc', hsame ▸ hrank, hagent'.trans hagent⟩
      · exact hfree i a' hagent hold hs'
    exact ⟨a, (h.untouched hh hp hnot).trans ha, hs, hcur⟩
  calls k c₁ hc₁ := by
    obtain ⟨c, hc, _⟩ := (h.wrote hh hp).before hc₁
    obtain ⟨c', hc', hagent', hcase⟩ := hd.calls k c hc
    obtain ⟨d, hd₁, hdagent, hrank⟩ := h.ranks hc
    obtain rfl := Option.some.inj (hc₁.symm.trans hd₁)
    obtain ⟨d', hd', hdagent', hrank'⟩ := h'.ranks hc'
    refine ⟨d', hd', hdagent'.trans (hagent'.trans hdagent.symm), ?_⟩
    rw [hdagent]
    have hstays : db'.view.Free c.agent_id → v'.Free c.agent_id := fun hfree i a hi ha hs =>
      hfree i a hi (h'.dialing hh' hp' ha hs).1 hs
    rcases hrank with ⟨s, hpass, hr⟩ | ⟨hno, hr⟩
    · rcases hrank' with ⟨s', hpass', hr'⟩ | ⟨hno', _⟩
      · obtain rfl : s = s' := by
          rw [hpass] at hpass'
          exact (ReadResult.passed.inj hpass').2
        rw [hr, hr']
        rcases hcase with hsame | ⟨h5, h6, hfree⟩
        · unfold rankAfter
          rw [hsame]
          by_cases hlow : c.state_rank < rank s
          · rw [if_pos hlow, if_pos hlow]
            by_cases hs : s = .ANSWERED
            · rw [if_pos hs, if_pos hs]
              rcases hd.bridgeState hagent' k with hb | ⟨hb, hb'⟩
              · exact Or.inl (congrArg rank hb)
              · -- abandoned here and connected there
                rw [← Db.view_agents db, ← Db.view_agents db', hb, hb']
                refine Or.inr ⟨le_rfl, le_rfl, fun i a hi => ?_⟩
                refine h'.frees hp' ⟨k, s, c', hpass, ?_, hc', hsame ▸ hlow, hagent'.trans hi⟩ i a
                  rfl
                rw [hs]
                decide
            · rw [if_neg hs, if_neg hs]
              exact Or.inl rfl
          · rw [if_neg hlow, if_neg hlow]
            exact Or.inl rfl
        · refine Or.inr ⟨?_, ?_, hstays hfree⟩
          · unfold rankAfter
            split
            · split
              · exact rank_bridgeState _ _ _
              · omega
            · exact h5
          · unfold rankAfter
            rw [if_neg]
            · exact h6
            · have hle := rank_le_terminalRank s
              unfold terminalRank at hle
              omega
      · exact absurd hpass (hno' s)
    · rcases hrank' with ⟨s', hpass', _⟩ | ⟨_, hr'⟩
      · exact absurd hpass' (hno s')
      · rw [hr, hr']
        exact hcase.imp_right fun ⟨h5, h6, hfree⟩ => ⟨h5, h6, hstays hfree⟩

/-- **Simulation, plans.** -/
theorem applyPlan_deserted {cfg : Settings} {now : Time} {plan : List Planned}
    {db db' db₁ db₁' : Db} {moved moved' : List (ℕ × CallState)} (hh : db.view.Healthy)
    (hh' : db'.view.Healthy) (hp : ∀ p ∈ plan, p.Valid db.view)
    (hp' : ∀ p ∈ plan, p.Valid db'.view) (hd : db.view.Deserted db'.view)
    (h : (applyPlan cfg now plan).run db = .ok (moved, db₁))
    (h' : (applyPlan cfg now plan).run db' = .ok (moved', db₁')) :
    db₁.view.Deserted db₁'.view := by
  induction plan generalizing db db' moved moved' with
  | nil =>
    obtain ⟨_, rfl⟩ := Txn.run_pure_ok.mp h
    obtain ⟨_, rfl⟩ := Txn.run_pure_ok.mp h'
    exact hd
  | cons p plan ih =>
    obtain ⟨o, db₂, rest, hone, hplan, _⟩ := applyPlan_cons h
    obtain ⟨o', db₂', rest', hone', hplan', _⟩ := applyPlan_cons h'
    have happ := applyOneWrite_cases hone
    have happ' := applyOneWrite_cases hone'
    have hv := hp p (by simp)
    have hv' := hp' p (by simp)
    obtain ⟨hh₂, he₂⟩ := (happ.progress hv).1 hh
    obtain ⟨hh₂', he₂'⟩ := (happ'.progress hv').1 hh'
    exact ih hh₂ hh₂' (fun q hq => (hp q (by simp [hq])).mono he₂)
      (fun q hq => (hp' q (by simp [hq])).mono he₂') (happ.deserted happ' hh hh' hv hv' hd) hplan
      hplan'

end SmartDialer
