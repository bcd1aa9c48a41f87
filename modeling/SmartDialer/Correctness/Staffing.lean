import SmartDialer.Domain.Models
import SmartDialer.Correctness.Transactions
import SmartDialer.Correctness.Cancels
import SmartDialer.Correctness.Recovery

namespace SmartDialer

open Relational

/-!
# Staffing

`agents_staffed` counts the agents that are neither `OFFLINE` nor `PAUSED`.  The end of a call, and
the answer of a provider, set the state of the agent without a look at the state it is in, so an
agent that logged out in the middle of a call is brought back by its end.

* `Applied.staff` — what the write of a planned event does to the agents.
* `staff_unmoved_iff` — nobody is brought back or sent away in exactly the runs in which the agents
  that are written to are on duty.
-/

/-! ### Agents on duty -/

/-- `OFFLINE` or `PAUSED`, if the agent is one of the two. -/
def AgentRow.offDuty (a : AgentRow) : Option AgentState :=
  if a.state = .OFFLINE ∨ a.state = .PAUSED then some a.state else none

/-- An agent is on duty exactly when it is in neither of the two states. -/
theorem AgentRow.offDuty_eq_none {a : AgentRow} :
    a.offDuty = none ↔ a.state ≠ .OFFLINE ∧ a.state ≠ .PAUSED := by
  unfold offDuty
  rw [ite_eq_right_iff, ← not_or]
  exact imp_congr_right fun _ => ⟨fun h => (by cases h), fun h => h.elim⟩

/-- An agent is not off duty. -/
def OnDuty (agents : Table AgentRow) (agent_id : ℕ) : Prop :=
  ∀ a, agents.get? agent_id = some a → a.offDuty = none

/-- The campaign of an agent, and where it is when it is off duty. -/
def AgentRow.staffing (a : AgentRow) : ℕ × Option AgentState := (a.campaign_id, a.offDuty)

/-- The same agents in the same campaigns, off duty as before. -/
def SameStaff (t t' : Table AgentRow) : Prop :=
  ∀ i, (t'.get? i).map (·.staffing) = (t.get? i).map (·.staffing)

/-- Where nothing is written, the staff is the same. -/
theorem SameStaff.refl (t : Table AgentRow) : SameStaff t t := fun _ => rfl

/-- The staff is the same across any number of writes. -/
theorem SameStaff.trans {t₁ t₂ t₃ : Table AgentRow} (h₁ : SameStaff t₁ t₂) (h₂ : SameStaff t₂ t₃) :
    SameStaff t₁ t₃ := fun i => (h₂ i).trans (h₁ i)

/-- Whoever is on duty stays on duty. -/
theorem SameStaff.onDuty {t t' : Table AgentRow} (h : SameStaff t t') {i : ℕ} (hi : OnDuty t i) :
    OnDuty t' i := by
  intro a' ha'
  have hmap := h i
  rw [ha', Option.map_some] at hmap
  obtain ⟨a, ha, hstaff⟩ := Option.map_eq_some_iff.mp hmap.symm
  have hoff : a'.offDuty = a.offDuty := (congrArg Prod.snd hstaff).symm
  rw [hoff]
  exact hi a ha

/-- Having the same staff is symmetric. -/
theorem SameStaff.symm {t t' : Table AgentRow} (h : SameStaff t t') : SameStaff t' t :=
  fun i => (h i).symm

/-- A write that puts an agent on duty. -/
structure Recalls (g : AgentRow → AgentRow) : Prop where
  campaign : ∀ a, (g a).campaign_id = a.campaign_id
  onDuty : ∀ a, (g a).offDuty = none

/-- Forcing an agent into a state of duty puts it on duty, wherever it was: this is the write behind
    the failing runs. -/
theorem recalls_forcedRow {state : AgentState} (h : state ≠ .OFFLINE ∧ state ≠ .PAUSED) (now : Time)
    (worker : Option String) (lease_until : Option Time) (call_id : Option ℕ) :
    Recalls (AgentRepo.forcedRow now state worker lease_until call_id) where
  campaign := fun _ => rfl
  onDuty := fun _ => AgentRow.offDuty_eq_none.mpr h

/-- The release of an agent. -/
theorem recalls_released (now : Time) :
    Recalls (AgentRepo.forcedRow now .AVAILABLE none none none) :=
  recalls_forcedRow (by decide) now none none none

/-- A reservation leaves its agent on duty. -/
theorem recalls_reservedRow (now : Time) (worker : String) (lease : Time) :
    Recalls (AgentRepo.reservedRow now worker lease) where
  campaign := fun _ => rfl
  onDuty := fun _ => AgentRow.offDuty_eq_none.mpr
    ⟨fun h => AgentState.noConfusion h, fun h => AgentState.noConfusion h⟩

namespace Recalls

variable {f g : AgentRow → AgentRow} {t : Table AgentRow} {i j : ℕ}

/-- Two such writes in a row are one. -/
theorem comp (hg : Recalls g) (hf : Recalls f) : Recalls fun a => g (f a) where
  campaign := fun a => (hg.campaign (f a)).trans (hf.campaign a)
  onDuty := fun a => hg.onDuty (f a)

/-- The agent is on duty after the write, and nobody leaves. -/
theorem onDuty_alter (h : Recalls g) (hj : j = i ∨ OnDuty t j) : OnDuty (t.alter i g) j := by
  intro a ha
  rw [Table.get?_alter] at ha
  split at ha
  · obtain ⟨a₀, _, rfl⟩ := Option.map_eq_some_iff.mp ha
    exact h.onDuty a₀
  · rename_i hne
    exact hj.resolve_left hne a ha

/-- **One write.** It leaves the staff as it is exactly if its agent is on duty already. -/
theorem sameStaff_alter_iff (h : Recalls g) : SameStaff t (t.alter i g) ↔ OnDuty t i := by
  constructor
  · -- the write leaves the agent on duty, so the same staff had it on duty before
    intro hsame
    exact hsame.symm.onDuty (h.onDuty_alter (Or.inl rfl))
  · intro hduty k
    rw [Table.get?_alter]
    split
    · rename_i hk
      subst hk
      cases ha : t.get? k with
      | none => rfl
      | some a =>
        show some (g a).staffing = some a.staffing
        unfold AgentRow.staffing
        rw [h.campaign, h.onDuty, hduty a ha]
    · rfl

end Recalls

/-- A sweep that takes nobody off duty or out of its campaign, and brings nobody back. -/
theorem sameStaff_modify (t : Table AgentRow) {p : AgentRow → Bool} {g : AgentRow → AgentRow}
    (h : ∀ a, p a = true → (g a).staffing = a.staffing) :
    SameStaff t (t.modify (fun _ a => p a) g) := by
  intro i
  rw [Table.get?_modify]
  cases t.get? i with
  | none => rfl
  | some a =>
    rw [Option.map_some, Option.map_some, Option.map_some]
    by_cases hp : p a = true
    · rw [if_pos hp, h a hp]
    · rw [if_neg hp]

/-- The sweeps of the reaper concern agents on duty. -/
theorem sameStaff_sweep (now now_ts : Time) (v : View) :
    SameStaff v.agents (v.sweep now now_ts).agents := by
  -- both sweeps take agents that are reserved, dialing or wrapping up
  have hreclaimed : ∀ a, isReclaimed now_ts a = true →
      (reclaimedRow now a).staffing = a.staffing := by
    intro a ha
    unfold isReclaimed at ha
    simp only [Bool.and_eq_true, Bool.or_eq_true, beq_iff_eq] at ha
    unfold AgentRow.staffing AgentRow.offDuty reclaimedRow
    rcases ha.1 with hs | hs <;> simp [hs]
  have hwrapup : ∀ a, isWrapupOver now_ts a = true →
      (wrapupReleasedRow now a).staffing = a.staffing := by
    intro a ha
    unfold isWrapupOver at ha
    simp only [Bool.and_eq_true, beq_iff_eq] at ha
    unfold AgentRow.staffing AgentRow.offDuty wrapupReleasedRow
    simp [ha.1]
  exact (sameStaff_modify _ hreclaimed).trans (sameStaff_modify _ hwrapup)

/-! ### Events -/

/-- The write of a planned event sets the state of the agent, if the rank guard lets it pass. -/
def Planned.Touches (v : View) (p : Planned) (agent_id : ℕ) : Prop :=
  ∃ call_id incoming c, p.read = .passed call_id incoming ∧ incoming ≠ .RINGING ∧
    v.calls.get? call_id = some c ∧ c.state_rank < rank incoming ∧ c.agent_id = some agent_id

namespace Planned.Touches

variable {p : Planned} {v : View} {i : ℕ}

/-- Nobody is touched unless the event passed its check. -/
private theorem passed (h : p.Touches v i) :
    ∃ call_id incoming, p.read = .passed call_id incoming := by
  obtain ⟨call_id, incoming, _, hpass, _⟩ := h
  exact ⟨call_id, incoming, hpass⟩

/-- The row of the call says who is touched. -/
private theorem of_passed (h : p.Touches v i) {call_id : ℕ} {incoming : CallState}
    (hread : p.read = .passed call_id incoming) :
    ∃ c, v.calls.get? call_id = some c ∧ incoming ≠ .RINGING ∧ c.state_rank < rank incoming ∧
      c.agent_id = some i := by
  obtain ⟨k, s, c, hpass, hring, hc, hrank, hagent⟩ := h
  rw [hread] at hpass
  cases hpass
  exact ⟨c, hc, hring, hrank, hagent⟩

/-- So it is the agent of the call. -/
private theorem eq_agent (h : p.Touches v i) {call_id : ℕ} {incoming : CallState}
    (hread : p.read = .passed call_id incoming) {c : CallRow} (hc : v.calls.get? call_id = some c)
    {j : ℕ} (hagent : c.agent_id = some j) : i = j := by
  obtain ⟨c', hc', _, _, hagent'⟩ := h.of_passed hread
  rw [hc, Option.some.injEq] at hc'
  rw [← hc', hagent, Option.some.injEq] at hagent'
  exact hagent'.symm

end Planned.Touches

section

variable {now clock_now wrapup : Time} {p : Planned} {db : Db} {o : Option CallState} {v : View}

/-- **Effect on the staff.** The write of a planned event recalls the agent that it touches, or
    leaves all agents as they are. -/
theorem Applied.staff (h : Applied now p.event clock_now wrapup db p.read o v)
    (hh : db.view.Healthy) (hp : p.Valid db.view) :
    (v.agents = db.agents ∧ ∀ i, ¬ p.Touches db.view i) ∨
      ∃ i g, p.Touches db.view i ∧ (∀ j, p.Touches db.view j → j = i) ∧ Recalls g ∧
        v.agents = db.agents.alter i g := by
  generalize hread : p.read = read at h
  cases h with
  | unknown | raised | refused =>
    refine Or.inl ⟨rfl, fun i ht => ?_⟩
    obtain ⟨_, _, hpass⟩ := ht.passed
    rw [hread] at hpass
    cases hpass
  | @lost call_id incoming hlost =>
    refine Or.inl ⟨rfl, fun i ht => ?_⟩
    obtain ⟨c, hc, _, hrank, _⟩ := ht.of_passed hread
    exact absurd hrank (not_lt.mpr (hlost c hc))
  | @moved call_id incoming c hi hc hrank =>
    obtain ⟨i, hagent⟩ := Option.isSome_iff_exists.mp (hh.settled call_id c hc).agent
    obtain ⟨hin, _⟩ := hp call_id incoming hread
    rcases hin with rfl | rfl | hterm
    · -- `RINGING` has no effect on the agent
      refine Or.inl ⟨rfl, fun j ht => ?_⟩
      obtain ⟨_, _, hring, _⟩ := ht.of_passed hread
      exact hring rfl
    · exact absurd rfl hi
    · obtain ⟨state, lease, _, hfree, heff⟩ := View.sideEffects_terminal hagent hterm now clock_now
        wrapup (db.view.setCall call_id c
          (CallRepo.advancedRow now incoming p.event.2.provider_call_id none none))
      have hring : incoming ≠ .RINGING := by
        rintro rfl
        cases hterm
      have hrecalls : Recalls (AgentRepo.forcedRow now state none lease none) := by
        refine recalls_forcedRow ?_ now none lease none
        rcases hfree with rfl | rfl <;> decide
      refine Or.inr ⟨i, _, ⟨call_id, incoming, c, hread, hring, hc, hrank, hagent⟩,
        fun j ht => ht.eq_agent hread hc hagent, hrecalls, ?_⟩
      rw [heff]
      rfl
  | @bridged call_id c answered next hc hrank ha hn =>
    obtain ⟨i, hagent⟩ := Option.isSome_iff_exists.mp (hh.settled call_id c hc).agent
    have htouch : p.Touches db.view i :=
      ⟨call_id, .ANSWERED, c, hread, by decide, hc, hrank, hagent⟩
    refine Or.inr ⟨i, AgentRepo.forcedRow now
      (if next = .CONNECTED then .CONNECTED else .AVAILABLE) none none none, htouch,
      fun j ht => ht.eq_agent hread hc hagent, recalls_forcedRow ?_ now none none none, ?_⟩
    · split <;> decide
    · -- the agent is connected, or freed by a bridge that failed
      rcases bridgeState_cases db.agents call_id c with hnext | hnext
      · rw [hnext] at hn
        rw [hn, View.sideEffects_connected hagent]
        rfl
      · rw [hnext] at hn
        rw [hn]
        unfold View.sideEffects
        rw [hagent]
        rfl

/-- **Effect on a call.** It keeps its agent and gains in rank, and beyond `RINGING` only if the
    write touches its agent. -/
theorem Applied.row (h : Applied now p.event clock_now wrapup db p.read o v) {k : ℕ} {c : CallRow}
    (hc : db.calls.get? k = some c) :
    ∃ c', v.calls.get? k = some c' ∧ c'.agent_id = c.agent_id ∧ c.state_rank ≤ c'.state_rank ∧
      (c' = c ∨ c'.state_rank = rank .RINGING ∨
        ∀ i, c.agent_id = some i → p.Touches db.view i) := by
  -- the read decides which of the writes is made
  generalize hread : p.read = read at h
  cases h with
  | unknown | raised | refused | lost => exact ⟨c, hc, rfl, le_refl _, Or.inl rfl⟩
  | @moved call_id incoming d hi hd hrank =>
    rw [View.setEvent_calls, View.sideEffects_calls, View.setCall_calls, Table.get?_alter]
    by_cases hk : k = call_id
    · subst hk
      rw [hc, Option.some.injEq] at hd
      subst hd
      refine ⟨CallRepo.advancedRow now incoming p.event.2.provider_call_id none none c,
        by rw [if_pos rfl, Db.view_calls, hc]; rfl, rfl, le_of_lt hrank, Or.inr ?_⟩
      -- an event that only rings reaches `RINGING`; any other touches the agent of the call
      by_cases hring : incoming = .RINGING
      · rw [hring]
        exact Or.inl rfl
      · exact Or.inr fun i hagent => ⟨k, incoming, c, hread, hring, hc, hrank, hagent⟩
    · exact ⟨c, by rw [if_neg hk, Db.view_calls, hc], rfl, le_refl _, Or.inl rfl⟩
  | @bridged call_id d answered next hd hrank ha hn =>
    rw [View.setEvent_calls, View.sideEffects_calls, View.setCall_calls, View.setCall_calls,
      Table.alter_alter, Table.get?_alter]
    by_cases hk : k = call_id
    · subst hk
      rw [hc, Option.some.injEq] at hd
      subst hd
      -- bridging takes the call at least to `CONNECTED`
      have hnext : 5 ≤ rank next := by
        rw [hn]
        exact rank_bridgeState db.agents k c
      refine ⟨CallRepo.advancedRow now next none none none (CallRepo.advancedRow now .ANSWERED
          p.event.2.provider_call_id none none c), by rw [if_pos rfl, Db.view_calls, hc]; rfl, rfl,
        ?_, Or.inr (Or.inr ?_)⟩
      · show c.state_rank ≤ rank next
        omega
      · exact fun i hagent => ⟨k, .ANSWERED, c, hread, by decide, hc, hrank, hagent⟩
    · exact ⟨c, by rw [if_neg hk, Db.view_calls, hc], rfl, le_refl _, Or.inl rfl⟩

/-- A later event of a plan touches the agents that it touched before, unless this one does. -/
theorem Applied.touches_after (h : Applied now p.event clock_now wrapup db p.read o v)
    {q : Planned} (hq : q.Valid db.view) {i : ℕ} (ht : q.Touches db.view i) :
    p.Touches db.view i ∨ q.Touches v i := by
  obtain ⟨k, incoming, c, hpass, hring, hc, hrank, hagent⟩ := ht
  obtain ⟨c', hc', hagent', _, hrow⟩ := h.row hc
  rcases hrow with rfl | hrow | hrow
  · exact Or.inr ⟨k, incoming, c', hpass, hring, hc', hrank, hagent⟩
  · -- a call that rings now can still be answered or end
    obtain ⟨hin, _⟩ := hq k incoming hpass
    have hhigh : rank .RINGING < rank incoming := by
      rcases hin with hin | rfl | hterm
      · exact absurd hin hring
      · decide
      · exact lt_of_lt_of_le (by decide) (isTerminal_iff.mp hterm)
    refine Or.inr ⟨k, incoming, c', hpass, hring, hc', ?_, hagent'.trans hagent⟩
    rw [hrow]
    exact hhigh
  · exact Or.inl (hrow i hagent)

/-- What a later event touches after this one, it touched before. -/
theorem Applied.touches_before (h : Applied now p.event clock_now wrapup db p.read o v)
    {q : Planned} (hq : q.Valid db.view) {i : ℕ} (ht : q.Touches v i) : q.Touches db.view i := by
  obtain ⟨k, incoming, c', hpass, hring, hc', hrank, hagent⟩ := ht
  obtain ⟨_, c, hc, _⟩ := hq k incoming hpass
  obtain ⟨d, hd, hagent', hle, _⟩ := h.row hc
  rw [hc', Option.some.injEq] at hd
  subst hd
  exact ⟨k, incoming, c, hpass, hring, hc, lt_of_le_of_lt hle hrank, hagent'.symm.trans hagent⟩

/-- Nobody is sent off duty by an event. -/
theorem Applied.onDuty (h : Applied now p.event clock_now wrapup db p.read o v)
    (hh : db.view.Healthy) (hp : p.Valid db.view) {i : ℕ}
    (hi : OnDuty db.agents i ∨ p.Touches db.view i) : OnDuty v.agents i := by
  rcases h.staff hh hp with ⟨hagents, hnone⟩ | ⟨j, g, _, hunique, hg, hagents⟩
  · rw [hagents]
    exact hi.resolve_right (hnone i)
  · rw [hagents]
    rcases hi with hi | hi
    · exact hg.onDuty_alter (Or.inr hi)
    · exact hg.onDuty_alter (Or.inl (hunique i hi))

end

/-! ### Plans -/

/-- A plan that touches agents on duty only leaves the staff as it is. -/
theorem applyPlan_sameStaff {cfg : Settings} {now : Time} {plan : List Planned} {db db' : Db}
    {moved : List (ℕ × CallState)} (hh : db.view.Healthy) (hp : ∀ p ∈ plan, p.Valid db.view)
    (hduty : ∀ p ∈ plan, ∀ i, p.Touches db.view i → OnDuty db.agents i)
    (h : (applyPlan cfg now plan).run db = .ok (moved, db')) : SameStaff db.agents db'.agents := by
  induction plan generalizing db moved with
  | nil =>
    obtain ⟨_, rfl⟩ := Txn.run_pure_ok.mp h
    exact .refl _
  | cons p plan ih =>
    obtain ⟨o, db₁, rest, h₁, h₂, _⟩ := applyPlan_cons h
    have happ := applyOneWrite_cases h₁
    have hvalid := hp p (by simp)
    obtain ⟨hh₁, he₁⟩ := (happ.progress hvalid).1 hh
    have hfirst : SameStaff db.agents db₁.agents := by
      rcases happ.staff hh hvalid with ⟨hagents, _⟩ | ⟨i, g, htouch, _, hg, hagents⟩
      · rw [← Db.view_agents db₁, hagents]
        exact .refl _
      · rw [← Db.view_agents db₁, hagents]
        exact hg.sameStaff_alter_iff.mpr (hduty p (by simp) i htouch)
    -- the agents that later events touch were on duty before the first one, and still are
    refine hfirst.trans (ih hh₁ (fun q hq => (hp q (by simp [hq])).mono he₁) ?_ h₂)
    intro q hq i ht
    have hbefore := happ.touches_before (hp q (by simp [hq])) ht
    exact hfirst.onDuty (hduty q (by simp [hq]) i hbefore)

/-- Nobody is sent off duty by a plan. -/
theorem applyPlan_onDuty {cfg : Settings} {now : Time} {plan : List Planned} {db db' : Db}
    {moved : List (ℕ × CallState)} (hh : db.view.Healthy) (hp : ∀ p ∈ plan, p.Valid db.view)
    (h : (applyPlan cfg now plan).run db = .ok (moved, db')) {i : ℕ} (hi : OnDuty db.agents i) :
    OnDuty db'.agents i :=
  (related_applyPlan (R := fun v v' => OnDuty v.agents i → OnDuty v'.agents i)
    (fun _ h => h) (fun _ _ _ h₁ h₂ h => h₂ (h₁ h))
    (fun _ _ _ _ hh hv happ hi => happ.onDuty hh hv (Or.inl hi)) hh hp h).1 hi

/-- An agent that a plan touches is on duty at its end. -/
theorem applyPlan_recalls {cfg : Settings} {now : Time} {plan : List Planned} {db db' : Db}
    {moved : List (ℕ × CallState)} (hh : db.view.Healthy) (hp : ∀ p ∈ plan, p.Valid db.view)
    (h : (applyPlan cfg now plan).run db = .ok (moved, db')) {p : Planned} (hmem : p ∈ plan) {i : ℕ}
    (ht : p.Touches db.view i) : OnDuty db'.agents i := by
  induction plan generalizing db moved with
  | nil => cases hmem
  | cons q plan ih =>
    obtain ⟨o, db₁, rest, h₁, h₂, _⟩ := applyPlan_cons h
    have happ := applyOneWrite_cases h₁
    have hvalid := hp q (by simp)
    obtain ⟨hh₁, he₁⟩ := (happ.progress hvalid).1 hh
    have hp₁ : ∀ r ∈ plan, r.Valid db₁.view := fun r hr => (hp r (by simp [hr])).mono he₁
    -- either this event touches the agent, or the rest of the plan still does
    have hnow : q.Touches db.view i → OnDuty db'.agents i := fun hq =>
      applyPlan_onDuty hh₁ hp₁ h₂ (happ.onDuty hh hvalid (Or.inr hq))
    rcases List.mem_cons.mp hmem with rfl | hmem
    · exact hnow ht
    · rcases happ.touches_after (hp p (by simp [hmem])) ht with hq | hlater
      · exact hnow hq
      · exact ih hh₁ hp₁ h₂ hmem hlater

/-- **Plans.** They leave the staff as it is exactly if they touch agents on duty only. -/
theorem commitDrain_sameStaff_iff {cfg : Settings} {now : Time} {plan : List Planned} {db : Db}
    (hh : db.view.Healthy) (hp : ∀ p ∈ plan, p.Valid db.view) :
    SameStaff db.agents ((commitDrain cfg ⟨now, [], plan⟩).commit db).agents ↔
      ∀ p ∈ plan, ∀ i, p.Touches db.view i → OnDuty db.agents i := by
  obtain ⟨moved, db₁, hplan⟩ := applyPlan_total cfg now hh hp
  -- giving up on unknown events writes to the ledger alone
  have hagents : ((commitDrain cfg ⟨now, [], plan⟩).commit db).agents = db₁.agents := by
    obtain ⟨rows, db₂, h₂, hv₂⟩ := EventRepo.giveUpUnknown_run now db₁
    have hrun : (commitDrain cfg ⟨now, [], plan⟩).run db = .ok (moved, db₂) := by
      rw [commitDrain, Txn.run_bind_of_ok hplan, Txn.run_bind_of_ok h₂]
      rfl
    rw [(Txn.commit_of_run hrun).1]
    exact congrArg View.agents hv₂
  rw [hagents]
  constructor
  · intro hsame p hmem i ht
    exact hsame.symm.onDuty (applyPlan_recalls hh hp hplan hmem ht)
  · intro hduty
    exact applyPlan_sameStaff hh hp hduty hplan

/-! ### The other transactions -/

/-- An agent is reserved, or reserved and released: either way it was available. -/
theorem Allocated.sameStaff {now : Time} {lockedBorrowers : List ℕ} {worker : String}
    {campaign_id : ℕ} {lease : Time} {db : Db} {o : Option Reservation} {v : View}
    (h : Allocated now lockedBorrowers worker campaign_id lease db o v) :
    SameStaff db.agents v.agents := by
  -- an allocation picks an available agent, who is on duty
  have hduty : ∀ {i : ℕ} {a : AgentRow}, db.agents.get? i = some a → a.state = .AVAILABLE →
      OnDuty db.agents i := by
    intro i a ha hs b hb
    rw [ha, Option.some.injEq] at hb
    rw [← hb, AgentRow.offDuty_eq_none, hs]
    decide
  have hreserved := recalls_reservedRow now worker lease
  have hreleased := (recalls_released now).comp hreserved
  cases h with
  | noAgent => exact .refl _
  | noBorrower ha hs =>
    rw [View.setAgent_agents, View.setAgent_agents, Table.alter_alter]
    exact hreleased.sameStaff_alter_iff.mpr (hduty ha hs)
  | noProvider ha hs =>
    rw [View.setBorrower_agents, View.setAgent_agents, View.setBorrower_agents,
      View.setAgent_agents, Table.alter_alter]
    exact hreleased.sameStaff_alter_iff.mpr (hduty ha hs)
  | created ha hs => exact hreserved.sameStaff_alter_iff.mpr (hduty ha hs)

/-- The provider's reference is taken: the call is reserved, and another call has it. -/
def Db.RefTaken (db : Db) (call_id : ℕ) (pcid : String) : Prop :=
  ∃ c j d, db.calls.get? call_id = some c ∧ c.state = .RESERVED ∧ j ≠ call_id ∧
    db.calls.get? j = some d ∧ d.refIndex = some (c.provider, pcid)

/-- A dialed row carries the new reference. -/
private theorem refIndex_dialed {c : CallRow} (hset : c.Settled) (hs : c.state = .RESERVED)
    (now lease : Time) (pcid : String) :
    (CallRepo.advancedRow now .INITIATED (some pcid) (some lease) none c).refIndex
      = some (c.provider, pcid) := by
  have hnone : c.provider_call_id = none := by
    rw [← Option.not_isSome_iff_eq_none]
    exact fun h => hset.dialed h hs
  unfold CallRow.refIndex CallRepo.advancedRow
  simp only
  rw [hnone]
  rfl

/-- The transaction after the provider accepted fails on a reference that is taken. -/
theorem recordInitiated_refTaken {now : Time} {r : Reservation} {pcid worker : String}
    {dial_lease : Time} {db : Db} (hh : db.view.Healthy) (htaken : db.RefTaken r.call_id pcid) :
    (recordInitiated now r pcid worker dial_lease).commit db = db := by
  rcases Txn.commit_cases (recordInitiated now r pcid worker dial_lease) db with
    ⟨_, hrun, _⟩ | ⟨h, _⟩
  swap
  · exact h
  obtain ⟨c, j, d, hc, hs, hne, hd, href⟩ := htaken
  have hset : c.Settled := hh.settled r.call_id c hc
  obtain ⟨db₁, _, hcall⟩ := recordInitiated_cases hrun
  rcases hcall with ⟨_, hlost⟩ | ⟨c', hc', _, hv⟩
  · -- a reserved call is below the rank of `INITIATED`
    have hle := hlost c hc
    rw [hset.rank_eq, hs] at hle
    exact absurd hle (by decide)
  · -- the two calls would share the reference
    rw [hc, Option.some.injEq] at hc'
    subst hc'
    have hcalls : db₁.calls = db.calls.alter r.call_id
        (CallRepo.advancedRow now .INITIATED (some pcid) (some dial_lease) none) :=
      congrArg View.calls hv
    have hrow : db₁.calls.get? r.call_id
        = some (CallRepo.advancedRow now .INITIATED (some pcid) (some dial_lease) none c) := by
      rw [hcalls, Table.get?_alter, if_pos rfl, hc]
      rfl
    have hother : db₁.calls.get? j = some d := by
      rw [hcalls, Table.get?_alter, if_neg hne, hd]
    have hnew := refIndex_dialed hset hs now dial_lease pcid
    have hsome : d.refIndex ≠ none := by
      rw [href]
      exact Option.some_ne_none _
    exact absurd (db₁.refUnique j d r.call_id _ hother hrow hsome (href.trans hnew.symm)) hne

/-- Otherwise it does not fail. -/
theorem recordInitiated_total (now : Time) {r : Reservation} {pcid : String} (worker : String)
    (dial_lease : Time) {db : Db} (hh : db.view.Healthy) (hfree : ¬ db.RefTaken r.call_id pcid) :
    ∃ db', (recordInitiated now r pcid worker dial_lease).run db = .ok (⟨⟩, db') := by
  -- the one statement that may raise is `ADVANCE`, which writes the reference of the call
  obtain ⟨o, db₁, h₁⟩ : ∃ o db₁, (CallRepo.advance now r.call_id .INITIATED (some pcid)
      (some dial_lease) none).run db = .ok (o, db₁) := by
    by_cases hlow : ∃ c, db.calls.get? r.call_id = some c ∧ c.state_rank < rank .INITIATED
    · obtain ⟨c, hc, hrank⟩ := hlow
      have hset : c.Settled := hh.settled r.call_id c hc
      -- below `INITIATED` there is only a call that waits to be dialed
      have hs : c.state = .RESERVED := by
        have hq := hset.not_queued
        rw [hset.rank_eq] at hrank
        cases hcs : c.state <;> simp_all [rank]
      have hmod := Table.modify_key_of_pos (g := fun d => decide (d.state_rank < rank .INITIATED))
        (CallRepo.advancedRow now .INITIATED (some pcid) (some dial_lease) none) hc
        (decide_eq_true hrank)
      have hkey : (db.calls.modify (fun i d => i == r.call_id
          && decide (d.state_rank < rank .INITIATED)) (CallRepo.advancedRow now .INITIATED
            (some pcid) (some dial_lease) none)).UniqueOn CallRow.keyIndex :=
        db.keyUnique.modify fun _ _ _ _ => rfl
      have href : (db.calls.modify (fun i d => i == r.call_id
          && decide (d.state_rank < rank .INITIATED)) (CallRepo.advancedRow now .INITIATED
            (some pcid) (some dial_lease) none)).UniqueOn CallRow.refIndex := by
        rw [hmod]
        apply db.refUnique.alter hc
        -- a clash of references is what `RefTaken` says
        intro j d hne hd heq
        rw [refIndex_dialed hset hs] at heq
        exact hfree ⟨c, j, d, hc, hs, hne, hd, heq⟩
      obtain ⟨db₁, hrun⟩ := updateCalls_of_unique now hkey href
      exact ⟨_, db₁, Txn.run_bind_of_ok hrun⟩
    · exact ⟨none, db, CallRepo.advance_lost fun c hc => not_lt.mp fun hrank => hlow ⟨c, hc, hrank⟩⟩
  obtain ⟨_, db₂, h₂, _⟩ := AgentRepo.forceState_run now r.agent_id .DIALING (some worker)
    (some dial_lease) (some r.call_id) db₁
  refine ⟨db₂, ?_⟩
  rw [recordInitiated, Txn.run_bind_of_ok h₁, Txn.run_bind_of_ok h₂]
  rfl

/-- The acceptance of a provider leaves the staff as it is exactly if it fails, or its agent is on
    duty. -/
theorem recordInitiated_sameStaff_iff (now : Time) (r : Reservation) (pcid worker : String)
    (dial_lease : Time) {db : Db} (hh : db.view.Healthy) :
    SameStaff db.agents ((recordInitiated now r pcid worker dial_lease).commit db).agents ↔
      db.RefTaken r.call_id pcid ∨ OnDuty db.agents r.agent_id := by
  -- with the reference taken the transaction is rolled back
  by_cases htaken : db.RefTaken r.call_id pcid
  · rw [recordInitiated_refTaken hh htaken]
    exact ⟨fun _ => Or.inl htaken, fun _ => .refl _⟩
  · obtain ⟨db', hrun⟩ := recordInitiated_total now worker dial_lease hh htaken
    have hagents : db'.agents = db.agents.alter r.agent_id (AgentRepo.forcedRow now .DIALING
        (some worker) (some dial_lease) (some r.call_id)) := by
      obtain ⟨db₁, hv, hcall⟩ := recordInitiated_cases hrun
      have hsame : db₁.agents = db.agents := by
        rcases hcall with ⟨rfl, _⟩ | ⟨_, _, _, hv₁⟩
        · rfl
        · exact congrArg View.agents hv₁
      rw [← Db.view_agents db', hv, View.setAgent_agents, Db.view_agents, hsame]
    -- otherwise the agent is forced to `DIALING`, whether or not `ADVANCE` found its call
    have hdialing : Recalls (AgentRepo.forcedRow now .DIALING (some worker) (some dial_lease)
        (some r.call_id)) := recalls_forcedRow (by decide) now _ _ _
    rw [(Txn.commit_of_run hrun).1, hagents, hdialing.sameStaff_alter_iff]
    exact (or_iff_right htaken).symm

/-- The refusal of a provider leaves the staff as it is exactly if its agent is on duty. -/
theorem recordRejected_sameStaff_iff (now : Time) (r : Reservation) (db : Db) :
    SameStaff db.agents ((recordRejected now r).commit db).agents ↔
      OnDuty db.agents r.agent_id := by
  obtain ⟨db₁, db', hrun, hv, hcall⟩ := recordRejected_run now r db
  have hsame : db₁.agents = db.agents := by
    rcases hcall with ⟨rfl, _⟩ | ⟨_, _, _, hv₁⟩
    · rfl
    · exact congrArg View.agents hv₁
  have hagents : db'.agents = db.agents.alter r.agent_id
      (AgentRepo.forcedRow now .AVAILABLE none none none) := by
    rw [← Db.view_agents db', hv, View.setBorrower_agents, View.setAgent_agents, Db.view_agents,
      hsame]
  rw [(Txn.commit_of_run hrun).1, hagents]
  exact (recalls_released now).sameStaff_alter_iff

/-- A pullback leaves the staff as it is exactly if it finds nothing to cancel, or its agent is on
    duty. -/
theorem cancelCandidate_sameStaff_iff (now : Time) (call_id : ℕ) {db : Db} (hh : db.view.Healthy) :
    SameStaff db.agents ((cancelCandidate now call_id).commit db).agents ↔
      ∀ c i, db.calls.get? call_id = some c → c.state.isRinging = true → c.agent_id = some i →
        OnDuty db.agents i := by
  obtain ⟨b, db', hrun, hcall⟩ := cancelCandidate_run now call_id db
  have hcalls := cancelCandidate_calls now call_id db
  rw [(Txn.commit_of_run hrun).1] at hcalls ⊢
  rcases hcall with ⟨_, rfl⟩ | ⟨c, hc, hs, _, hv⟩
  · -- had there been a ringing call, it would be cancelled now
    refine ⟨fun _ c i hc hs _ => ?_, fun _ => .refl _⟩
    have hrow : db'.calls.get? call_id = some (CallRepo.cancelledRow now "SAFETY_PULLBACK" c) := by
      rw [hcalls, Table.get?_modify, hc]
      simp [hs]
    rw [hc, Option.some.injEq] at hrow
    rw [hrow] at hs
    cases hs
  · obtain ⟨i, hagent⟩ := Option.isSome_iff_exists.mp (hh.settled call_id c hc).agent
    have hagents : db'.agents = db.agents.alter i
        (AgentRepo.forcedRow now .AVAILABLE none none none) := by
      rw [← Db.view_agents db', hv, hagent]
      rfl
    rw [hagents, (recalls_released now).sameStaff_alter_iff]
    constructor
    · intro hduty d j hd _ hj
      rw [hc, Option.some.injEq] at hd
      rw [← hd, hagent, Option.some.injEq] at hj
      rw [← hj]
      exact hduty
    · intro h
      exact h c i hc hs hagent

/-- A tick of the reaper leaves the staff as it is exactly if the agents of the orphans are on
    duty. -/
theorem reap_sameStaff_iff (s : Sys) (now now_ts : Time) (registry : Option (List String)) :
    SameStaff s.db.agents (s.reap now now_ts registry).db.agents ↔
      ∀ k c i, s.db.calls.get? k = some c → isOrphan now_ts c = true → c.agent_id = some i →
        OnDuty s.db.agents i := by
  constructor
  · intro hsame k c i hc ho hagent
    -- after the round the agent of an orphan is on duty, wherever it was
    obtain ⟨g, hget, _, hfree⟩ := reap_agent s now now_ts registry i
    apply hsame.symm.onDuty
    intro a' ha'
    rw [hget] at ha'
    obtain ⟨a, _, rfl⟩ := Option.map_eq_some_iff.mp ha'
    rw [AgentRow.offDuty_eq_none, hfree ⟨k, c, hc, ho, hagent⟩ a]
    decide
  · intro hduty
    obtain ⟨res, db', hrun, hv⟩ := reap_run now now_ts registry s.db
    have horphans : SameStaff s.db.agents ((s.db.view.calls.select fun _ c =>
        isOrphan now_ts c).foldl (View.failOrphan now) s.db.view).agents := by
      -- orphan by orphan: the agent that is released was on duty, and stays so for the next one
      refine View.foldl_failOrphan_induction now now_ts
        (I := fun v => SameStaff s.db.agents v.agents) (fun v e hsame _ hc ho => ?_) (.refl _)
      apply hsame.trans
      unfold View.failOrphan View.releaseOrphan
      rw [View.setBorrower_agents]
      simp only [orphanedRow]
      cases hagent : e.2.agent_id with
      | none => exact .refl _
      | some i =>
        rw [View.setAgentOf_some, View.setAgent_agents, View.setCall_agents]
        exact (recalls_released now).sameStaff_alter_iff.mpr
          (hsame.onDuty (hduty e.1 e.2 i hc ho hagent))
    rw [Sys.reap_db, (Txn.commit_of_run hrun).1, ← Db.view_agents db', hv, View.reap_eq]
    exact horphans.trans (sameStaff_sweep now now_ts _)

/-! ### Steps -/

/-- The drain does not have to wait for the lock on an event that it would give up. -/
def Sys.Unblocked (s : Sys) (w : ℕ) (now : Time) : Prop :=
  ∀ i e, s.db.provider_events.get? i = some e → EventRepo.isGivenUp now e = true →
    i ∉ s.lockedBy (· ≠ w)

/-- The commit of a drain that has read everything and does not have to wait. -/
theorem Sys.commit_db (cfg : Settings) {s : Sys} {w : ℕ} {now : Time} {plan : List Planned}
    (hd : s.drains.get? w = some ⟨now, [], plan⟩) (hfree : s.Unblocked w now) :
    (s.commit cfg w).db = (commitDrain cfg ⟨now, [], plan⟩).commit s.db := by
  -- no other drain holds a row that the commit would give up
  have hnil : s.db.provider_events.select (fun i e => EventRepo.isGivenUp now e &&
      (s.lockedBy (· ≠ w)).contains i) = [] := by
    rw [Table.select_eq_nil_iff]
    intro i e he
    cases hg : EventRepo.isGivenUp now e with
    | false => rfl
    | true =>
      have hnot := hfree i e he hg
      simpa [List.contains_eq_mem] using hnot
  unfold Sys.commit
  rw [hd]
  simp only
  rw [if_pos hnil]

/-- The agents whose state the action is about to set are on duty. -/
def Sys.Spares (s : Sys) : Act → Prop
  | .accepted _ _ i pcid => ∀ att, s.attempts.get? i = some att → att.placed = true →
      s.db.RefTaken att.reservation.call_id pcid ∨ OnDuty s.db.agents att.reservation.agent_id
  | .rejected _ i => ∀ att, s.attempts.get? i = some att → att.placed = true →
      OnDuty s.db.agents att.reservation.agent_id
  | .pullback _ call_id => ∀ c i, s.db.calls.get? call_id = some c → c.state.isRinging = true →
      c.agent_id = some i → OnDuty s.db.agents i
  | .reap _ clock_now _ => ∀ k c i, s.db.calls.get? k = some c → isOrphan clock_now c = true →
      c.agent_id = some i → OnDuty s.db.agents i
  | .commit w => ∀ now plan, s.drains.get? w = some ⟨now, [], plan⟩ → s.Unblocked w now →
      ∀ p ∈ plan, ∀ i, p.Touches s.db.view i → OnDuty s.db.agents i
  | _ => True

/-- The actions of the staff itself. -/
def Act.isStaffing : Act → Bool
  | .createAgent .. | .login .. | .logout .. | .pause .. => true
  | _ => false

/-- A second transaction runs for an attempt that has been placed. -/
private theorem settle_sameStaff_iff (s : Sys) (i : ℕ) {x : Attempt → Tx PUnit}
    {Q : Attempt → Prop} (hQ : ∀ att, SameStaff s.db.agents ((x att).commit s.db).agents ↔ Q att) :
    SameStaff s.db.agents (s.settle i x).db.agents ↔
      ∀ att, s.attempts.get? i = some att → att.placed = true → Q att := by
  unfold Sys.settle
  cases hatt : s.attempts.get? i with
  | none => exact iff_of_true (.refl _) fun att h => by cases h
  | some att =>
    simp only
    by_cases hplaced : att.placed = true
    · rw [if_pos hplaced, hQ att]
      -- there is one attempt of this number
      refine ⟨fun h att' h' _ => ?_, fun h => h att rfl hplaced⟩
      cases h'
      exact h
    · rw [if_neg hplaced]
      apply iff_of_true (.refl _)
      intro att' h' hp
      cases h'
      exact absurd hp hplaced

/-- A drain commits when it has read everything and need not wait. -/
private theorem commit_sameStaff_iff (cfg : Settings) {s : Sys} (h : s.Live) (w : ℕ) :
    SameStaff s.db.agents (s.commit cfg w).db.agents ↔
      ∀ now plan, s.drains.get? w = some ⟨now, [], plan⟩ → s.Unblocked w now →
        ∀ p ∈ plan, ∀ i, p.Touches s.db.view i → OnDuty s.db.agents i := by
  by_cases hready : ∃ now plan, s.drains.get? w = some ⟨now, [], plan⟩ ∧ s.Unblocked w now
  · obtain ⟨now, plan, hd, hfree⟩ := hready
    rw [Sys.commit_db cfg hd hfree, commitDrain_sameStaff_iff h.healthy (h.planned w _ hd)]
    refine ⟨fun hduty now' plan' hd' _ => ?_, fun h => h now plan hd hfree⟩
    rw [hd, Option.some.injEq] at hd'
    cases hd'
    exact hduty
  · -- a drain that is not done, or has to wait for another, leaves everything alone
    have hstay : s.commit cfg w = s := by
      rcases s.commit_cases cfg w with ⟨now, plan, hd, hfree, _⟩ | hs
      · exact absurd ⟨now, plan, hd, hfree⟩ hready
      · exact hs
    rw [hstay]
    exact iff_of_true (.refl _) fun now plan hd hfree => absurd ⟨now, plan, hd, hfree⟩ hready

/-- **Step.** An action other than the staff's leaves the staff as it is exactly if the agents that
    it writes to are on duty. -/
theorem step_sameStaff_iff (cfg : Settings) {s : Sys} (h : s.Live) {a : Act}
    (ha : a.isStaffing = false) :
    SameStaff s.db.agents (step cfg s a).db.agents ↔ s.Spares a := by
  have hunmoved : ∀ {s' : Sys}, s'.db.agents = s.db.agents →
      (SameStaff s.db.agents s'.db.agents ↔ True) := by
    intro s' hagents
    rw [hagents]
    exact iff_of_true (.refl _) trivial
  cases a with
  | createAgent | login | logout | pause => cases ha
  | seed now campaign_id phone priority max_attempts =>
    obtain ⟨db', hrun, hv⟩ := BorrowerRepo.seed_run now campaign_id phone priority max_attempts s.db
    apply hunmoved
    rw [step, Sys.exec_db, (Txn.commit_of_run hrun).1, ← Db.view_agents db']
    rcases hv with hv | hv <;> rw [hv] <;> rfl
  | reserveAndCreate now clock_now lockedAgents lockedBorrowers pick worker campaign_id =>
    refine iff_of_true ?_ trivial
    rw [step, Sys.allocate_db]
    rcases Txn.commit_cases (SmartDialer.reserveAndCreate now lockedAgents lockedBorrowers pick
      worker campaign_id (reserveUntil clock_now cfg)) s.db with ⟨o, hrun, _⟩ | ⟨hc, _⟩
    · exact (reserveAndCreate_cases hrun).sameStaff
    · rw [hc]
      exact .refl _
  | placeCall call_id =>
    apply hunmoved
    rw [step, Sys.placeCall_db]
  -- the transactions from here on write agents by their id, whatever they are doing
  | rejected now call_id =>
    exact settle_sameStaff_iff s call_id fun att => recordRejected_sameStaff_iff now _ s.db
  | accepted now clock_now call_id pcid =>
    exact settle_sameStaff_iff s call_id fun att =>
      recordInitiated_sameStaff_iff now _ pcid att.worker _ h.healthy
  | abandon | rollback => exact hunmoved rfl
  | pullback now call_id => exact cancelCandidate_sameStaff_iff now call_id h.healthy
  | reap now clock_now registry => exact reap_sameStaff_iff s now clock_now registry
  | ingest now provider event_id call_ref etype ts payload =>
    obtain ⟨o, db', hrun, hv⟩ := EventRepo.ingest_run now provider event_id call_ref etype ts
      payload s.db
    apply hunmoved
    rw [step, Sys.exec_db, (Txn.commit_of_run hrun).1, ← Db.view_agents db']
    rcases hv with ⟨_, _, hv⟩ | ⟨_, _, rfl⟩
    · rw [hv]
      rfl
    · rfl
  | fetch now w limit =>
    obtain ⟨rows, hs, _⟩ := s.fetch_cases now w limit
    apply hunmoved
    rw [step, hs]
  | read clock_now w =>
    apply hunmoved
    rcases s.read_cases cfg clock_now w with ⟨_, _, _, _, _, _, _, hs⟩ | hs <;> rw [step, hs]
  | commit w => exact commit_sameStaff_iff cfg h w

/-! ### Runs -/

/-- The agents of a campaign are on duty or off duty. -/
private theorem count_staffed (agents : Table AgentRow) (campaign_id : ℕ) :
    (agents.count fun _ a => a.campaign_id == campaign_id && a.offDuty.isNone)
      = (agents.count fun _ a => a.campaign_id == campaign_id && a.state == .AVAILABLE)
        + (agents.count fun _ a => a.campaign_id == campaign_id && a.state == .RESERVED)
        + (agents.count fun _ a => a.campaign_id == campaign_id && a.state == .DIALING)
        + (agents.count fun _ a => a.campaign_id == campaign_id && a.state == .CONNECTED)
        + agents.count fun _ a => a.campaign_id == campaign_id && a.state == .WRAP_UP := by
  unfold Table.count AgentRow.offDuty
  dsimp only
  generalize agents.rows = rows
  induction rows with
  | nil => rfl
  | cons e rows ih =>
    simp only [List.countP_cons, ih]
    -- each agent of the campaign is in one state
    cases hc : e.2.campaign_id == campaign_id <;> cases hs : e.2.state <;> simp <;> omega

/-- `agents_staffed` counts the agents of the campaign that are on duty. -/
theorem agents_staffed_eq (resolvedStats : ℕ → Db → Stats) (campaign_id : ℕ) (clock_now : Time)
    (fast : Bool) {db : Db} (h : Agree db) :
    (MetricsRepo.snapshot resolvedStats campaign_id clock_now fast db).agents_staffed
      = db.agents.count fun _ a => a.campaign_id == campaign_id && a.offDuty.isNone := by
  have hnaive : (MetricsRepo.snapshot resolvedStats campaign_id clock_now fast db).toMetricsSnapshot
      = MetricsRepo.snapshotNaive resolvedStats campaign_id clock_now db := by
    unfold MetricsRepo.snapshot
    cases fast with
    | false => rfl
    | true => exact MetricsRepo.snapshotFast_eq_of_agree resolvedStats campaign_id clock_now h
  unfold Snapshot.agents_staffed
  rw [hnaive, count_staffed]
  unfold MetricsRepo.snapshotNaive
  simp only [MetricsRepo.countOf_agentCountsNaive]
  push_cast
  rfl

/-- Nobody goes off duty or comes back, and every campaign has as many agents staffed. -/
structure Sys.StaffKept (s s' : Sys) : Prop where
  offDuty : ∀ i, (s'.db.agents.get? i).map (·.offDuty) = (s.db.agents.get? i).map (·.offDuty)
  agents_staffed : ∀ resolvedStats campaign_id clock_now clock_now' fast,
    (MetricsRepo.snapshot resolvedStats campaign_id clock_now' fast s'.db).agents_staffed
      = (MetricsRepo.snapshot resolvedStats campaign_id clock_now fast s.db).agents_staffed

/-- The step is the staff's own, or it keeps the staff as it is. -/
def Sys.StaffUnmoved (cfg : Settings) (s : Sys) (a : Act) : Prop :=
  a.isStaffing = false → s.StaffKept (step cfg s a)

/-- **Staffing.** In a run the steps that are not the staff's own keep the staff as it is exactly if
    each of them writes to agents on duty only.  `FORCE_STATE` has no guard on the state that it
    overwrites, so an event of a call brings an agent back to duty who has logged out or paused in
    the meantime. -/
theorem staff_unmoved_iff (cfg : Settings) (acts : List Act) :
    Along (step cfg) (Sys.StaffUnmoved cfg) Sys.init acts ↔
      Along (step cfg) Sys.Spares Sys.init acts := by
  -- step by step: the condition of a step says what that step does to the staff
  refine along_congr (I := fun s : Sys => s.Live ∧ Agree s.db)
    (fun s a h => ⟨live_step cfg h.1 a, h.2.of_writes (step_writes cfg s a)⟩) ?_
    ⟨live_init, agree_empty⟩ acts
  rintro s a ⟨hlive, hagree⟩
  cases ha : a.isStaffing with
  | true =>
    refine iff_of_true (fun h => ?_) ?_
    · rw [ha] at h
      cases h
    · cases a <;> first | exact trivial | cases ha
  | false =>
    have hagree' : Agree (step cfg s a).db := hagree.of_writes (step_writes cfg s a)
    rw [← step_sameStaff_iff cfg hlive ha]
    constructor
    · intro h i
      have hoff := (h ha).offDuty i
      cases hi : s.db.agents.get? i with
      | none =>
        rw [hi, Option.map_none, Option.map_eq_none_iff] at hoff
        rw [hoff]
      | some r =>
        -- the claim says nothing of campaigns, which no step changes
        obtain ⟨r', hr', hcampaign⟩ := step_agents_stay cfg hlive a hi
        rw [hi, hr', Option.map_some, Option.map_some, Option.some.injEq] at hoff
        rw [hr', Option.map_some, Option.map_some, AgentRow.staffing, hcampaign, hoff]
        rfl
    · intro hsame _
      refine ⟨fun i => ?_, fun resolvedStats campaign_id clock_now clock_now' fast => ?_⟩
      · have hi := congrArg (Option.map Prod.snd) (hsame i)
        rw [Option.map_map, Option.map_map] at hi
        exact hi
      · -- `agents_staffed` is a count over the staff
        rw [agents_staffed_eq _ _ _ _ hagree, agents_staffed_eq _ _ _ _ hagree',
          Table.count_eq_of_get? fun i => ?_]
        have hi := congrArg (Option.map fun d : ℕ × Option AgentState =>
          d.1 == campaign_id && d.2.isNone) (hsame i)
        rw [Option.map_map, Option.map_map] at hi
        exact hi

/-- An agent logs out in the middle of a call, and the call is completed. -/
def loggedOut : List Act :=
  [.createAgent 0 7 "ext-1", .login 0 1, .seed 0 7 "+15550001" 100 3,
    .reserveAndCreate 0 0 [] [] (some "mock") "w1" 7, .placeCall 1,
    .accepted (secs 1) (secs 1) 1 "pc-1",
    .ingest (secs 2) "mock" "ev-1" (some "pc-1") "answered" (secs 2) "", .fetch (secs 3) 1 200,
    .read (secs 3) 1, .commit 1, .logout (secs 4) 1,
    .ingest (secs 5) "mock" "ev-2" (some "pc-1") "completed" (secs 5) "", .fetch (secs 6) 1 200,
    .read (secs 6) 1]

/-- The event brings the agent back to wrap up, and from there it will be available again. -/
theorem loggedOut_not_staffUnmoved :
    ¬ Along (step .default) (Sys.StaffUnmoved .default) Sys.init (loggedOut ++ [.commit 1]) ∧
      ((run (step .default) Sys.init loggedOut).db.agents.get? 1).map (·.state) = some .OFFLINE ∧
      ((run (step .default) Sys.init (loggedOut ++ [.commit 1])).db.agents.get? 1).map (·.state)
        = some .WRAP_UP := by
  have hbefore : ((run (step .default) Sys.init loggedOut).db.agents.get? 1).map (·.offDuty)
      = some (some .OFFLINE) := by decide +kernel
  have hafter : ((step .default (run (step .default) Sys.init loggedOut) (.commit 1)).db.agents.get?
      1).map (·.offDuty) = some none := by decide +kernel
  refine ⟨fun h => ?_, by decide +kernel, by decide +kernel⟩
  obtain ⟨hlast, _⟩ := (along_append.mp h).2
  have hoff := (hlast rfl).offDuty 1
  rw [hbefore, hafter] at hoff
  cases hoff

end SmartDialer
