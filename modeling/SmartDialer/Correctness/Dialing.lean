import SmartDialer.Correctness.Books

namespace SmartDialer

open Relational

/-!
# Dialing agents and their calls

The second transaction of an allocation writes the call under the guard of its rank, and the agent
under no guard at all.  An agent in `DIALING` has a call of its own nonetheless (`Floor.Dials`), but
the call may be over by the time the transaction runs.

* `Floor.Dials.step` — the moves keep the call of a dialing agent in a set of rows that the call
  does not leave before its agent leaves `DIALING`.
* `dials_live_iff` — the calls of dialing agents are live exactly in the runs in which no second
  transaction comes too late.
-/

/-- Every dialing agent has a call of its own, with a row in `Q`. -/
def Floor.Dials (Q : CallRow → Prop) (F : Floor) : Prop :=
  ∀ i a, F.agents.get? i = some a → a.state = .DIALING →
    ∃ k c, a.current_call_id = some k ∧ F.calls.get? k = some c ∧ c.agent_id = some i ∧ Q c

namespace Floor.Dials

variable {Q : CallRow → Prop} {F F' : Floor}

/-- An agent that does not dial any more may take its calls with it. -/
private theorem reset (h : F.Dials Q) {i : ℕ} {g : AgentRow → AgentRow}
    (hagents : F'.agents = F.agents.alter i g) (hg : ∀ a, (g a).state ≠ .DIALING)
    (hcalls : ∀ j k c, j ≠ i → F.calls.get? k = some c → c.agent_id = some j →
      F'.calls.get? k = some c) : F'.Dials Q := by
  intro j a ha hs
  rw [hagents, Table.get?_alter] at ha
  split at ha
  · obtain ⟨a₀, _, rfl⟩ := Option.map_eq_some_iff.mp ha
    exact absurd hs (hg a₀)
  · rename_i hne
    obtain ⟨k, c, hk, hc, hagent, hQ⟩ := h j a ha hs
    exact ⟨k, c, hk, hcalls j k c hne hc hagent, hagent, hQ⟩

/-- The call of an agent does not concern the calls of the others. -/
private theorem get?_alter_of_ne {calls : Table CallRow} {i j k k' : ℕ} {c d : CallRow}
    {f : CallRow → CallRow} (hc : calls.get? k = some c) (hagent : c.agent_id = some i)
    (hne : j ≠ i) (hd : calls.get? k' = some d) (hd' : d.agent_id = some j) :
    (calls.alter k f).get? k' = some d := by
  rw [Table.get?_alter, if_neg, hd]
  rintro rfl
  rw [hc, Option.some.injEq] at hd
  rw [← hd, hagent, Option.some.injEq] at hd'
  exact hne hd'.symm

/-- An agent that starts to dial brings a call of its own. -/
private theorem dial (h : F.Dials Q) {i k : ℕ} {g : AgentRow → AgentRow} {c : CallRow}
    (hagents : F'.agents = F.agents.alter i g) (hg : ∀ a, (g a).current_call_id = some k)
    (hc : F'.calls.get? k = some c) (hagent : c.agent_id = some i) (hQ : Q c)
    (hcalls : ∀ j k' d, j ≠ i → F.calls.get? k' = some d → d.agent_id = some j →
      F'.calls.get? k' = some d) : F'.Dials Q := by
  intro j a ha hs
  rw [hagents, Table.get?_alter] at ha
  split at ha
  · rename_i hj
    obtain ⟨a₀, _, rfl⟩ := Option.map_eq_some_iff.mp ha
    exact ⟨k, c, hg a₀, hc, by rw [hj]; exact hagent, hQ⟩
  · rename_i hne
    obtain ⟨k', d, hk, hd, hdagent, hQd⟩ := h j a ha hs
    exact ⟨k', d, hk, hcalls j k' d hne hd hdagent, hdagent, hQd⟩

/-- A sweep that leaves dialing agents dialing, and sets no agent to dial. -/
private theorem sweep (h : F.Dials Q) {p : ℕ → AgentRow → Bool} {g : AgentRow → AgentRow}
    (hagents : F'.agents = F.agents.modify p g) (hcalls : F'.calls = F.calls)
    (hg : ∀ i a, p i a = true → (g a).state = .DIALING →
      a.state = .DIALING ∧ (g a).current_call_id = a.current_call_id) : F'.Dials Q := by
  intro j a ha hs
  rw [hcalls]
  rw [hagents, Table.get?_modify, Option.map_eq_some_iff] at ha
  obtain ⟨a₀, ha₀, rfl⟩ := ha
  by_cases hp : p j a₀ = true
  · rw [if_pos hp] at hs ⊢
    obtain ⟨hs₀, hcall⟩ := hg j a₀ hp hs
    rw [hcall]
    exact h j a₀ ha₀ hs₀
  · rw [if_neg hp] at hs ⊢
    exact h j a₀ ha₀ hs

/-- **Step.** A set of rows that holds initiated calls with a lease and ringing calls, and the calls
    that end before their second transaction when that one may come too late. -/
theorem step {m : Move} (hinit : ∀ c : CallRow, c.state = .INITIATED →
      c.lease_expires_at.isSome = true → Q c) (hring : ∀ c : CallRow, c.state = .RINGING → Q c)
    (hlate : m = .dialedLate → ∀ c : CallRow, c.state.isTerminal = true → Q c)
    (hatt : F.Attempted) (h : F.Dials Q) (hm : F.Step m F') : F'.Dials Q := by
  -- the moves that end the dialing of an agent may change its calls
  have hkeep : ∀ {i : ℕ} {f : CallRow → CallRow} {k : ℕ} {c : CallRow},
      F.calls.get? k = some c → c.agent_id = some i → ∀ j k' d, j ≠ i →
      F.calls.get? k' = some d → d.agent_id = some j → (F.calls.alter k f).get? k' = some d :=
    fun hc hagent _ _ _ hne hd hd' => get?_alter_of_ne hc hagent hne hd hd'
  cases hm with
  | @hired r hr =>
    intro i a ha hs
    rcases Table.cases_of_get?_push ha with ⟨_, rfl⟩ | ha
    · rw [hr] at hs; cases hs
    · exact h i a ha hs
  | staffed hs =>
    refine h.reset rfl (fun a => ?_) fun _ _ _ _ hc _ => hc
    rcases hs with rfl | rfl | rfl <;> exact fun h => by cases h
  | seeded | unclaimed | placed | forgotten | unlocked => exact h
  | unreserved =>
    exact h.reset (Table.alter_alter _ _ _ _) (fun _ h => by cases h) fun _ _ _ _ hc _ => hc
  | allotted =>
    apply h.reset rfl (fun _ h => by cases h)
    intro _ k c _ hc _
    rw [Table.get?_push, if_neg (Table.ne_nextId hc), hc]
  | @dialed now lease worker pcid call_id att c ha hc hs =>
    obtain ⟨d, hd, hagent, _⟩ := Floor.Attends.call hatt ha
    rw [hc, Option.some.injEq] at hd
    subst hd
    have hrow : (F.calls.alter att.reservation.call_id
        (CallRepo.advancedRow now .INITIATED (some pcid) (some lease) none)).get?
          att.reservation.call_id
        = some (CallRepo.advancedRow now .INITIATED (some pcid) (some lease) none c) := by
      rw [Table.get?_alter, if_pos rfl, hc]
      rfl
    exact h.dial rfl (fun _ => rfl) hrow hagent (hinit _ rfl rfl) (hkeep hc hagent)
  | dialedLate ha hpast =>
    obtain ⟨d, hd, hagent, _, hs⟩ := Floor.Attends.call hatt ha
    exact h.dial rfl (fun _ => rfl) hd hagent (hlate rfl d (hs.resolve_left (hpast d hd)))
      fun _ _ _ _ hc _ => hc
  | refused ha hc =>
    obtain ⟨d, hd, hagent, _⟩ := Floor.Attends.call hatt ha
    rw [hc, Option.some.injEq] at hd
    subst hd
    exact h.reset rfl (fun _ h => by cases h) (hkeep hc hagent)
  | refusedLate => exact h.reset rfl (fun _ h => by cases h) fun _ _ _ _ hc _ => hc
  | @rang k c f hc _ hf hstate =>
    intro i a ha hs
    obtain ⟨k', d, hk, hd, hagent, hQ⟩ := h i a ha hs
    by_cases hkk : k' = k
    · subst hkk
      rw [hc, Option.some.injEq] at hd
      subst hd
      refine ⟨k', f c, hk, ?_, hf.agent_id.trans hagent, hring _ hstate⟩
      rw [Table.get?_alter, if_pos rfl, hc]
      rfl
    · exact ⟨k', d, hk, by rw [Table.get?_alter, if_neg hkk, hd], hagent, hQ⟩
  | connected hc _ hagent => exact h.reset rfl (fun _ h => by cases h) (hkeep hc hagent)
  | ended hc _ _ hagent _ _ _ hs =>
    refine h.reset rfl (fun a => ?_) (hkeep hc hagent)
    rcases hs with rfl | rfl <;> exact fun h => by cases h
  | orphaned hc _ hagent => exact h.reset rfl (fun _ h => by cases h) (hkeep hc hagent)
  | @reclaimed now now_ts =>
    refine h.sweep (p := fun _ a => isReclaimed now_ts a) (g := reclaimedRow now) rfl rfl
      fun i a _ hs => ⟨?_, rfl⟩
    unfold reclaimedRow at hs
    simp only at hs
    split at hs
    · cases hs
    · exact hs
  | @wrapupOver now now_ts =>
    exact h.sweep (p := fun _ a => isWrapupOver now_ts a) (g := wrapupReleasedRow now) rfl rfl
      fun i a _ hs => by cases hs

end Floor.Dials

/-! ### Runs -/

/-- The agents of the attempts in flight have their rows. -/
def Floor.Manned (F : Floor) : Prop :=
  ∀ i att, F.attempts.get? i = some att →
    ∃ a, F.agents.get? att.reservation.agent_id = some a

/-- No move removes an agent or takes it to another campaign. -/
theorem Floor.Step.agents_stay {F F' : Floor} {m : Move} (hm : F.Step m F') {i : ℕ} {a : AgentRow}
    (ha : F.agents.get? i = some a) :
    ∃ a', F'.agents.get? i = some a' ∧ a'.campaign_id = a.campaign_id := by
  -- no write of an agent's row moves it to another campaign, by key or by sweep
  have halter : ∀ (j : ℕ) {g : AgentRow → AgentRow}, (∀ b, (g b).campaign_id = b.campaign_id) →
      ∃ a', (F.agents.alter j g).get? i = some a' ∧ a'.campaign_id = a.campaign_id := by
    intro j g hg
    rw [Table.get?_alter]
    split
    · rename_i hj
      exact ⟨g a, by rw [← hj, ha]; rfl, hg a⟩
    · exact ⟨a, ha, rfl⟩
  have hsweep : ∀ (p : ℕ → AgentRow → Bool) {g : AgentRow → AgentRow},
      (∀ b, (g b).campaign_id = b.campaign_id) →
      ∃ a', (F.agents.modify p g).get? i = some a' ∧ a'.campaign_id = a.campaign_id := by
    intro p g hg
    refine ⟨if p i a then g a else a, by rw [Table.get?_modify, ha]; rfl, ?_⟩
    split
    · exact hg a
    · rfl
  cases hm with
  | hired => exact ⟨a, by rw [Table.get?_push, if_neg (Table.ne_nextId ha), ha], rfl⟩
  | seeded | unclaimed | placed | forgotten | rang | unlocked => exact ⟨a, ha, rfl⟩
  | unreserved =>
    rw [Table.alter_alter]
    exact halter _ fun _ => rfl
  | reclaimed | wrapupOver => exact hsweep _ fun _ => rfl
  | staffed | allotted | dialed | dialedLate | refused | refusedLate | connected | ended
  | orphaned => exact halter _ fun _ => rfl

/-- No move takes away the agent of an attempt in flight. -/
theorem Floor.Manned.step {F F' : Floor} {m : Move} (h : F.Manned) (hm : F.Step m F') :
    F'.Manned := by
  intro i att hatt
  -- an attempt after the move was in flight before it, or its agent was just reserved
  have hold : (∃ att₀, F.attempts.get? i = some att₀ ∧
        att.reservation.agent_id = att₀.reservation.agent_id) ∨
      ∃ a, F.agents.get? att.reservation.agent_id = some a := by
    cases hm with
    | allotted ha =>
      rcases Table.cases_of_get?_insertAt hatt with hatt | ⟨_, rfl, _⟩
      · exact Or.inl ⟨att, hatt, rfl⟩
      · exact Or.inr ⟨_, ha⟩
    | placed =>
      rw [Table.get?_modify, Option.map_eq_some_iff] at hatt
      obtain ⟨att₀, hatt₀, rfl⟩ := hatt
      refine Or.inl ⟨att₀, hatt₀, ?_⟩
      split <;> rfl
    | forgotten | dialed | dialedLate | refused | refusedLate =>
      exact Or.inl ⟨att, (Table.get?_of_get?_erase hatt).2, rfl⟩
    | _ => exact Or.inl ⟨att, hatt, rfl⟩
  rcases hold with ⟨att₀, hatt₀, hid⟩ | ⟨a, ha⟩
  · obtain ⟨a, ha⟩ := h i att₀ hatt₀
    rw [hid]
    exact (hm.agents_stay ha).imp fun _ h => h.1
  · exact (hm.agents_stay ha).imp fun _ h => h.1

/-- No action removes an agent or takes it to another campaign. -/
theorem step_agents_stay (cfg : Settings) {s : Sys} (h : s.Live) (a : Act) {i : ℕ} {r : AgentRow}
    (hr : s.db.agents.get? i = some r) :
    ∃ r', (step cfg s a).db.agents.get? i = some r' ∧ r'.campaign_id = r.campaign_id := by
  refine (step_path cfg h (permits_true s a)).invariant (I := fun F : Floor =>
    ∃ r', F.agents.get? i = some r' ∧ r'.campaign_id = r.campaign_id) ?_ ⟨r, hr, rfl⟩
  rintro F F' m ⟨r₁, hr₁, hcampaign⟩ _ hm
  obtain ⟨r₂, hr₂, hsame⟩ := hm.agents_stay hr₁
  exact ⟨r₂, hr₂, hsame.trans hcampaign⟩

/-- What is known of every reachable state. -/
structure Sys.Tended (s : Sys) : Prop extends s.Kept where
  manned : s.floor.Manned

/-- No attempt is in flight at the start. -/
theorem tended_init : Sys.init.Tended := ⟨kept_init, fun _ _ h => by cases h⟩

/-- **Step.** The agents of the attempts in flight stay where they are. -/
theorem tended_step (cfg : Settings) (s : Sys) (a : Act) (h : s.Tended) :
    (step cfg s a).Tended :=
  ⟨kept_step cfg h.toKept a, (step_path cfg h.live (permits_true s a)).invariant (I := Floor.Manned)
    (fun _ _ _ hF _ hm => hF.step hm) h.manned⟩

/-- The call of every dialing agent is a call of its own that has not ended. -/
def Sys.DialsLive (s : Sys) : Prop :=
  ∀ i a, s.db.agents.get? i = some a → a.state = .DIALING →
    ∃ k c, a.current_call_id = some k ∧ s.db.calls.get? k = some c ∧ c.agent_id = some i ∧
      c.state ∉ terminal

/-- A provider's acceptance finds the call still reserved. -/
def Sys.InTime (s : Sys) (a : Act) : Prop :=
  ∀ now clock_now i pcid att, a = .accepted now clock_now i pcid →
    s.attempts.get? i = some att → att.placed = true →
    ∃ c, s.db.calls.get? att.reservation.call_id = some c ∧ c.state = .RESERVED

/-- A set of rows that the calls of dialing agents stay in as long as no acceptance is late. -/
theorem dials_step (cfg : Settings) {Q : CallRow → Prop}
    (hinit : ∀ c : CallRow, c.state = .INITIATED → c.lease_expires_at.isSome = true → Q c)
    (hring : ∀ c : CallRow, c.state = .RINGING → Q c) {s : Sys} (hs : s.Kept)
    (hdials : s.floor.Dials Q) {a : Act}
    (hlate : s.InTime a ∨ ∀ c : CallRow, c.state.isTerminal = true → Q c) :
    (step cfg s a).floor.Dials Q := by
  -- only the acceptance of an ended call needs the hypothesis; other moves are free
  have hallows : Allows (fun _ m => m = .dialedLate →
      ∀ c : CallRow, c.state.isTerminal = true → Q c) s a := by
    refine ⟨fun _ m hm h => ?_, fun now clock_now i pcid att ha hatt hplaced hpast _ => ?_,
      fun _ _ _ h => (by cases h), fun _ _ _ _ _ _ _ h => (by cases h),
      fun _ _ _ _ _ _ _ _ _ _ h => (by cases h), fun _ _ _ _ _ _ _ h => (by cases h)⟩
    · rw [h] at hm
      exact hm.elim
    · rcases hlate with htime | hQ
      · obtain ⟨c, hc, hres⟩ := htime now clock_now i pcid att ha hatt hplaced
        exact absurd hres (hpast c hc)
      · exact hQ
  have hboth := (hallows.step_path cfg hs.live).invariant
    (I := fun F => F.Attempted ∧ F.Dials Q)
    (fun _ _ _ hF hH hm => ⟨hF.1.step hm, hF.2.step hinit hring hH hF.1 hm⟩) ⟨hs.attempted, hdials⟩
  exact hboth.2

/-- An acceptance that comes after its call has ended leaves an agent dialing that call. -/
theorem accepted_late (cfg : Settings) {s : Sys} (hs : s.Tended) (now clock_now : Time) {i : ℕ}
    (pcid : String) {att : Attempt} (hatt : s.attempts.get? i = some att)
    (hplaced : att.placed = true) {c : CallRow}
    (hc : s.db.calls.get? att.reservation.call_id = some c) (hend : c.state.isTerminal = true) :
    (step cfg s (.accepted now clock_now i pcid)).db.calls.get? att.reservation.call_id = some c ∧
      ∃ a, (step cfg s (.accepted now clock_now i pcid)).db.agents.get? att.reservation.agent_id
        = some a ∧ a.state = .DIALING ∧ a.current_call_id = some att.reservation.call_id := by
  obtain ⟨a₀, ha₀⟩ := hs.manned i att hatt
  -- ADVANCE matches no row, the call being past INITIATED, and returns nothing
  have hlost : (CallRepo.advance now att.reservation.call_id .INITIATED (some pcid)
      (some (dialUntil clock_now cfg)) none).run s.db = .ok (none, s.db) := by
    apply CallRepo.advance_lost
    intro r hr
    rw [hc, Option.some.injEq] at hr
    rw [← hr, (hs.live.healthy.settled _ c hc).rank_eq]
    exact le_trans (by decide) (isTerminal_iff.mp hend)
  obtain ⟨_, db', hforce, hv⟩ := AgentRepo.forceState_run now att.reservation.agent_id .DIALING
    (some att.worker) (some (dialUntil clock_now cfg)) (some att.reservation.call_id) s.db
  -- the result is not looked at: FORCE_STATE runs all the same
  have hrun : (recordInitiated now att.reservation pcid att.worker (dialUntil clock_now cfg)).run
      s.db = .ok (⟨⟩, db') := by
    rw [recordInitiated, Txn.run_bind_of_ok hlost, Txn.run_bind_of_ok hforce]
    rfl
  have hdb : (step cfg s (.accepted now clock_now i pcid)).db = db' := by
    rw [step]
    unfold Sys.settle
    simp only [hatt, hplaced, if_true]
    exact (Txn.commit_of_run hrun).1
  rw [hdb]
  refine ⟨?_, AgentRepo.forcedRow now .DIALING (some att.worker) (some (dialUntil clock_now cfg))
    (some att.reservation.call_id) a₀, ?_, rfl, rfl⟩
  · rw [← Db.view_calls db', hv]
    exact hc
  · have ha₀' : s.db.agents.get? att.reservation.agent_id = some a₀ := ha₀
    rw [← Db.view_agents db', hv, View.setAgent_agents, Table.get?_alter, if_pos rfl,
      Db.view_agents, ha₀']
    rfl

/-- **Fencing.** In a run the calls of dialing agents are calls of their own that have not ended, in
    every state reached, exactly if every acceptance of a provider finds its call still reserved.
    The second transaction does not look at what `ADVANCE` returns: a late acceptance sets its agent
    dialing although the call has ended. -/
theorem dials_live_iff (cfg : Settings) (acts : List Act) :
    (∀ pre, pre <+: acts → (run (step cfg) Sys.init pre).DialsLive) ↔
      Along (step cfg) Sys.InTime Sys.init acts := by
  refine forall_prefix_iff_along (tended_step cfg) (fun s a hs hlive => ?_) tended_init
    (fun _ _ h => by cases h) acts
  have hterm : ∀ {t : CallState}, t ∉ terminal ↔ t.isTerminal = false := by
    intro t
    rw [mem_terminal, Bool.not_eq_true]
  constructor
  · -- a late acceptance would leave its agent DIALING on the ended call
    rintro hafter now clock_now i pcid att rfl hatt hplaced
    obtain ⟨c, hc, _, _, hstate⟩ := Floor.Attends.call hs.attempted hatt
    refine ⟨c, hc, hstate.resolve_right fun hend => ?_⟩
    obtain ⟨hc', a, ha, hdial, hcurrent⟩ := accepted_late cfg hs now clock_now pcid hatt hplaced
      hc hend
    obtain ⟨k, d, hk, hd, _, hnot⟩ := hafter _ a ha hdial
    rw [hcurrent, Option.some.injEq] at hk
    rw [← hk, hc', Option.some.injEq] at hd
    rw [← hd, hterm, hend] at hnot
    cases hnot
  · intro htime
    refine dials_step cfg (Q := fun c => c.state ∉ terminal) (fun c hc _ => ?_) (fun c hc => ?_)
      hs.toKept hlive (Or.inl htime)
    · rw [hc]; decide
    · rw [hc]; decide

/-- The reaper fails a call whose provider has not answered yet; its agent is reserved for another
    call, and then the provider accepts. -/
def lateAcceptance : List Act :=
  [.createAgent 0 7 "ext-1", .login 0 1, .seed 0 7 "+15550001" 100 3, .seed 0 7 "+15550002" 50 3,
    .reserveAndCreate 0 0 [] [] (some "mock") "w1" 7, .placeCall 1, .reap (secs 31) (secs 31) none,
    .reserveAndCreate (secs 32) (secs 32) [] [] (some "mock") "w1" 7,
    .accepted (secs 33) (secs 33) 1 "pc-1"]

/-- The agent is dialing the call that has failed. -/
theorem lateAcceptance_not_dialsLive :
    ¬ (run (step .default) Sys.init lateAcceptance).DialsLive ∧
      ((run (step .default) Sys.init lateAcceptance).db.calls.get? 2).map
        (fun c => (c.state, c.agent_id)) = some (.RESERVED, some 1) := by
  refine ⟨fun h => ?_, by decide +kernel⟩
  -- after the run agent 1 is DIALING and points at call 1, which has FAILED
  have hagent : ((run (step .default) Sys.init lateAcceptance).db.agents.get? 1).map
      (fun a => (a.state, a.current_call_id)) = some (.DIALING, some 1) := by decide +kernel
  have hcall : ((run (step .default) Sys.init lateAcceptance).db.calls.get? 1).map (·.state)
      = some .FAILED := by decide +kernel
  obtain ⟨a, ha, hrow⟩ := Option.map_eq_some_iff.mp hagent
  obtain ⟨hdial, hcurrent⟩ := Prod.mk.inj hrow
  obtain ⟨k, c, hk, hc, _, hnot⟩ := h 1 a ha hdial
  rw [hcurrent, Option.some.injEq] at hk
  rw [← hk] at hc
  rw [hc, Option.map_some, Option.some.injEq] at hcall
  rw [hcall] at hnot
  exact hnot (by decide)

end SmartDialer
