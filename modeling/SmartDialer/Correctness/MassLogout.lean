import SmartDialer.Correctness.Scenarios
import SmartDialer.Correctness.Simulated
import SmartDialer.Sim.Runner

namespace SmartDialer

open Relational

/-!
# Mass logouts

`AgentMassLogout` is meant for agents without a call: it selects available ones.  But the selection
locks nobody, so an allocation may reserve a selected agent before it is logged out, and then a call
is answered with nobody there.

* `Scenario.State.LogoutsIdle` — the agents that are logged out have no live call by then.
* `scenario_paired_iff` — agents and calls are paired in exactly the scenarios of this kind.
-/

namespace Scenario.State

/-- The agents that a mass logout logs out have no live call. -/
def LogoutsIdle (s : State) : Act → Prop
  | .logout _ injector => ∀ agent_id ∈ s.leaving injector, ∀ i c, s.sys.db.calls.get? i = some c →
      c.agent_id = some agent_id → c.state.isTerminal = true
  | _ => True

/-- The condition looks at the agents that the injector has selected, and at their calls. -/
instance (s : State) (a : Act) : Decidable (s.LogoutsIdle a) :=
  match a with
  | .logout _ injector =>
    inferInstanceAs (Decidable (∀ agent_id ∈ s.leaving injector, ∀ i c,
      s.sys.db.calls.get? i = some c → c.agent_id = some agent_id → c.state.isTerminal = true))
  | .hire .. | .loop .. | .turn .. | .place .. | .settle .. | .outage .. | .select ..
  | .advance .. | .resume .. => inferInstanceAs (Decidable True)

end Scenario.State

/-! ### Logging out -/

/-- A mass logout writes to the agents alone, and leaves those offline that it concerns. -/
theorem run_logouts (cfg : Settings) (now : Time) (s : Sys) (ids : List ℕ) :
    (run (step cfg) s (ids.map (.logout now))).db.calls = s.db.calls ∧
      ∀ i a, s.db.agents.get? i = some a →
        ∃ a', (run (step cfg) s (ids.map (.logout now))).db.agents.get? i = some a' ∧
          (i ∈ ids ∨ a.state = .OFFLINE → a'.state = .OFFLINE) := by
  induction ids generalizing s with
  | nil => exact ⟨rfl, fun i a ha => ⟨a, ha, fun h => h.resolve_left List.not_mem_nil⟩⟩
  | cons j ids ih =>
    obtain ⟨hcalls, hagents⟩ := ih (step cfg s (.logout now j))
    refine ⟨hcalls, fun i a ha => ?_⟩
    -- the first logout writes to one agent, and the rest leave it offline
    have hone : (step cfg s (.logout now j)).db.agents.get? i
        = some (if i = j then AgentRepo.forcedRow now .OFFLINE none none none a else a) := by
      show (s.db.agents.alter j _).get? i = _
      rw [Table.get?_alter]
      split
      · rename_i hij
        rw [← hij, ha]
        rfl
      · exact ha
    obtain ⟨a', ha', hoff⟩ := hagents i _ hone
    refine ⟨a', ha', fun h => hoff ?_⟩
    rcases h with hmem | hs
    · rcases List.mem_cons.mp hmem with rfl | hmem
      · right
        rw [if_pos rfl]
        rfl
      · exact Or.inl hmem
    · right
      split
      · rfl
      · exact hs

/-- Creating an agent leaves the calls alone. -/
theorem createAgent_calls (cfg : Settings) (s : Sys) (now : Time) (campaign_id : ℕ)
    (ext_ref : String) :
    (step cfg s (.createAgent now campaign_id ext_ref)).db.calls = s.db.calls := by
  rw [step, Sys.exec_db, ← Db.view_calls, ← Db.view_calls]
  rcases Txn.commit_cases (AgentRepo.create now campaign_id ext_ref) s.db with
    ⟨i, hrun, _⟩ | ⟨hc, _⟩
  · rw [insertAgent_run hrun]
  · rw [hc]

/-! ### Runs -/

namespace Scenario.State

section

variable {s : State} {a : Act}

/-- What a scenario does to the staff is what pairing assumes. -/
theorem Ordered.pairingAssumed (h : s.Ordered) (cfg : Settings)
    (hagents : ∀ i c agent_id, s.sys.db.calls.get? i = some c → c.agent_id = some agent_id →
      ∃ r, s.sys.db.agents.get? agent_id = some r) (ha : s.LogoutsIdle a) :
    Along (SmartDialer.step cfg) PairingAssumed s.sys (s.writes a) := by
  cases a with
  | hire now campaign_id ext_ref =>
    refine ⟨trivial, fun i c hc hagent => ?_, trivial⟩
    -- nobody has the new agent's number
    rw [createAgent_calls] at hc
    obtain ⟨r, hr⟩ := hagents i c _ hc hagent
    exact absurd rfl (Table.ne_nextId hr)
  | loop b =>
    rw [writes]
    split
    · rename_i hruns
      refine ⟨?_, trivial⟩
      cases b with
      | reap now clock_now registry =>
        obtain ⟨_, hempty⟩ := h.reaped (a := .loop (.reap now clock_now registry))
          (by rw [writes, if_pos hruns]; exact List.mem_singleton_self _) rfl
        exact fun k att hatt => absurd hatt (Table.rows_eq_nil_iff.mp hempty k att)
      | login | logout | pause => cases hp : s.phase <;> rw [hp] at hruns <;> cases hruns
      | _ => trivial
    · trivial
  | place clock_now call_id timeout hard_fail pcid =>
    rw [writes]
    split
    · exact ⟨trivial, trivial⟩
    · trivial
  | settle now clock_now call_id =>
    rw [writes]
    split
    · exact ⟨trivial, trivial⟩
    · exact ⟨trivial, trivial⟩
    · trivial
  | logout now injector =>
    rw [writes]
    change ∀ agent_id ∈ s.leaving injector, _ at ha
    generalize s.leaving injector = ids at ha
    generalize s.sys = sys at ha
    induction ids generalizing sys with
    | nil => trivial
    | cons j ids ih =>
      exact ⟨ha j List.mem_cons_self, ih _ fun i hi => ha i (List.mem_cons_of_mem j hi)⟩
  | resume now provider pcid reorder =>
    rw [writes]
    split
    · exact ⟨trivial, trivial⟩
    · trivial
  | turn | outage | select | advance => trivial

/-- A scenario in which everybody leaves between calls, as a run of the system. -/
structure Undisturbed (cfg : Settings) (s : State) : Prop where
  ordered : s.Ordered
  reaches : Reaches (SmartDialer.step cfg) PairingAssumed Sys.init s.sys

/-- Such a scenario is a run of the system, so its references are sound. -/
theorem Undisturbed.referring {cfg : Settings} (h : s.Undisturbed cfg) : s.sys.Referring :=
  h.reaches.of_run fun acts _ => referring_run cfg acts

/-- Such a scenario is a run of the kind in which agents and calls are paired. -/
theorem Undisturbed.paired {cfg : Settings} (h : s.Undisturbed cfg) : s.sys.floor.Paired :=
  h.reaches.of_run (P := fun s => s.floor.Paired) fun _ hacts => paired_run cfg hacts

/-- Before `setup_campaign` nobody has left. -/
theorem undisturbed_init (cfg : Settings) : init.Undisturbed cfg := ⟨ordered_init, .refl _⟩

/-- An action of such a scenario asks of the system only what pairing assumes. -/
theorem Undisturbed.assumed {cfg : Settings} (h : s.Undisturbed cfg) (ha : s.LogoutsIdle a) :
    Along (SmartDialer.step cfg) PairingAssumed s.sys (s.writes a) := by
  refine h.ordered.pairingAssumed cfg (fun i c agent_id hc hagent => ?_) ha
  obtain ⟨r, hr, _⟩ := h.referring.sameCampaign i c agent_id hc hagent
  exact ⟨r, hr⟩

/-- **Step.** The scenario stays of this kind while mass logouts come between calls. -/
theorem undisturbed_step (cfg : Settings) (h : s.Undisturbed cfg) (ha : s.LogoutsIdle a) :
    (step cfg s a).Undisturbed cfg :=
  ⟨ordered_step cfg h.ordered a, h.reaches.append (h.assumed ha)⟩

/-- Whoever is logged out during a call is missed by it. -/
theorem Undisturbed.idle_of_paired {cfg : Settings} (h : s.Undisturbed cfg)
    (hpaired : (step cfg s a).sys.AgentsPaired cfg) : s.LogoutsIdle a := by
  cases a with
  | logout now injector =>
    intro agent_id hmem i c hc hagent
    obtain ⟨hcalls, hoffline⟩ := run_logouts cfg now s.sys (s.leaving injector)
    change ((run (SmartDialer.step cfg) s.sys (s.writes (.logout now injector))).AgentsPaired cfg)
      at hpaired
    rw [writes] at hpaired
    obtain ⟨r, hr, _⟩ := h.referring.sameCampaign i c agent_id hc hagent
    obtain ⟨r', hr', hoff⟩ := hoffline agent_id r hr
    have hstate : r'.state = .OFFLINE := hoff (Or.inl hmem)
    have hset := h.referring.kept.live.healthy.settled i c hc
    generalize run (SmartDialer.step cfg) s.sys _ = s' at hpaired hcalls hr'
    have hc' : s'.db.calls.get? i = some c := by rw [hcalls, hc]
    -- every live call finds its agent in a state that matches its own
    have hbusy : ∀ t : AgentState, t ≠ .OFFLINE →
        ¬ ∃ j b, c.agent_id = some j ∧ s'.db.agents.get? j = some b ∧ b.state = t := by
      rintro t ht ⟨j, b, hj, hb, hs⟩
      rw [hagent, Option.some.injEq] at hj
      rw [← hj, hr', Option.some.injEq] at hb
      rw [← hb, hstate] at hs
      exact ht hs.symm
    cases hs : c.state with
    | QUEUED => exact absurd hs hset.not_queued
    | ANSWERED => exact absurd hs hset.not_answered
    | RESERVED => exact absurd (hpaired.reserved i c hc' hs) (hbusy _ (by decide))
    | INITIATED =>
      obtain ⟨j, b, hj, hb, hst, _⟩ := hpaired.dialing i c hc' (Or.inl hs)
      exact absurd ⟨j, b, hj, hb, hst⟩ (hbusy _ (by decide))
    | RINGING =>
      obtain ⟨j, b, hj, hb, hst, _⟩ := hpaired.dialing i c hc' (Or.inr hs)
      exact absurd ⟨j, b, hj, hb, hst⟩ (hbusy _ (by decide))
    | CONNECTED => exact absurd (hpaired.connected i c hc' hs) (hbusy _ (by decide))
    | COMPLETED | FAILED | CANCELLED | ABANDONED => rfl
  | _ => trivial

end

end Scenario.State

/-- **Pairing.** In a scenario agents and calls are paired in every state exactly if each mass
    logout finds the agents that it has selected still without a live call. -/
theorem scenario_paired_iff (cfg : Settings) (acts : List Scenario.Act) :
    (∀ pre, pre <+: acts →
      (run (Scenario.step cfg) Scenario.init pre).sys.AgentsPaired cfg) ↔
    Along (Scenario.step cfg) Scenario.State.LogoutsIdle Scenario.init acts :=
  observed_iff_along (I := Scenario.State.Undisturbed cfg) (K := fun s => s.sys.AgentsPaired cfg)
    (fun _ _ h ha => Scenario.State.undisturbed_step cfg h ha)
    (fun _ h => h.paired.agentsPaired h.referring.kept.live)
    (fun _ _ h hK => h.idle_of_paired hK) (Scenario.State.undisturbed_init cfg) acts

/-! ### Abandoned calls -/

/-- No call has been abandoned. -/
def View.Unabandoned (v : View) : Prop := ∀ k c, v.calls.get? k = some c → c.state ≠ .ABANDONED

/-- Whoever answers is connected to the agent, if agents and calls are paired. -/
theorem Applied.unabandoned {now clock_now wrapup : Time} {p : Planned} {db : Db}
    {o : Option CallState} {v : View} {attempts : Table Attempt}
    (h : Applied now p.event clock_now wrapup db p.read o v) (hh : db.view.Healthy)
    (hp : p.Valid db.view) (hpaired : (db.view.floor attempts).Paired)
    (hn : ∀ k, p.read ≠ .passed k .ABANDONED) (hv : db.view.Unabandoned) : v.Unabandoned := by
  generalize hread : p.read = read at h hn
  -- one call changes its state, to one that is not `ABANDONED`
  have hset : ∀ {k : ℕ} {c : CallRow} {f : CallRow → CallRow}, db.calls.get? k = some c →
      (f c).state ≠ .ABANDONED → ∀ i c', (db.calls.alter k f).get? i = some c' →
        c'.state ≠ .ABANDONED := by
    intro k c f hc hf i c' hc'
    rcases Table.cases_of_get?_alter hc hc' with ⟨_, rfl⟩ | ⟨_, hold⟩
    · exact hf
    · exact hv i c' hold
  cases h with
  | unknown | raised | refused | lost => exact hv
  | @moved call_id incoming c hi hc hrank =>
    unfold View.Unabandoned
    rw [View.setEvent_calls, View.sideEffects_calls, View.setCall_calls]
    exact hset hc fun hs => hn call_id (congrArg (ReadResult.passed call_id) hs)
  | @bridged call_id c answered next hc hrank ha hnext =>
    obtain ⟨_, c', hc', href⟩ := hp call_id .ANSWERED hread
    obtain rfl := Option.some.inj (hc.symm.trans hc')
    have hsettled := hh.settled call_id c hc
    obtain ⟨agent_id, hagent⟩ := Option.isSome_iff_exists.mp hsettled.agent
    -- the call has been dialed and not been answered, so it counts as ringing
    have hring : c.state.isRinging = true := by
      have hrank' : rank c.state < 4 := hsettled.rank_eq ▸ hrank
      have hnq := hsettled.not_queued
      have hnr := hsettled.dialed href
      revert hrank' hnq hnr
      cases c.state <;> decide
    -- its agent is dialing for it, so the bridge succeeds
    have hconn : next = .CONNECTED := hnext.trans (hpaired.bridged hc hagent hring)
    unfold View.Unabandoned
    rw [View.setEvent_calls, View.sideEffects_calls, View.setCall_calls, View.setCall_calls,
      Table.alter_alter]
    refine hset hc ?_
    show next ≠ .ABANDONED
    rw [hconn]
    decide

/-- A drain abandons no call while agents and calls are paired and no event claims that a call was
    abandoned. -/
theorem applyPlan_unabandoned {cfg : Settings} {now : Time} {plan : List Planned} {db db' : Db}
    {moved : List (ℕ × CallState)} (attempts : Table Attempt) (hh : db.view.Healthy)
    (hp : ∀ p ∈ plan, p.Valid db.view) (hn : ∀ p ∈ plan, ∀ k, p.read ≠ .passed k .ABANDONED)
    (hpaired : (db.view.floor attempts).Paired) (hv : db.view.Unabandoned)
    (h : (applyPlan cfg now plan).run db = .ok (moved, db')) : db'.view.Unabandoned := by
  induction plan generalizing db moved with
  | nil =>
    obtain ⟨_, rfl⟩ := Txn.run_pure_ok.mp h
    exact hv
  | cons p plan ih =>
    obtain ⟨o, db₁, rest, h₁, h₂, _⟩ := applyPlan_cons h
    have happ := applyOneWrite_cases h₁
    have hvalid := hp p List.mem_cons_self
    obtain ⟨hh₁, he₁⟩ := (happ.progress hvalid).1 hh
    -- the first write is a routine move, which keeps agents and calls paired
    have hpaired₁ : (db₁.view.floor attempts).Paired :=
      (happ.path (fun F m hm => F.safe_routine m hm.routine) hh hvalid attempts).invariant
        (fun _ _ _ hF hH hm => hF.step hH hm) hpaired
    exact ih hh₁ (fun q hq => (hp q (List.mem_cons_of_mem p hq)).mono he₁)
      (fun q hq => hn q (List.mem_cons_of_mem p hq)) hpaired₁
      (happ.unabandoned hh hvalid hpaired (hn p List.mem_cons_self) hv) h₂

/-- Every call that is answered is served. -/
structure Sys.Served (s : Sys) : Prop where
  accounted : s.Accounted
  paired : s.floor.Paired
  calls : s.db.view.Unabandoned
  /-- No event reports that a call is abandoned. -/
  events : ∀ i e, s.db.provider_events.get? i = some e → e.incoming ≠ some .ABANDONED

/-- A provider does not report that a call is abandoned. -/
def Act.Answerable : Act → Prop
  | .ingest _ _ _ _ etype _ _ => CallState.ofString? (mapProviderEvent etype) ≠ some .ABANDONED
  | _ => True

/-- What the dialer writes on its own abandons no call. -/
theorem DialerWrites.unabandoned {a : Act} {calls calls' : Table CallRow}
    (h : DialerWrites a calls calls') (hv : ∀ k c, calls.get? k = some c → c.state ≠ .ABANDONED) :
    ∀ k c, calls'.get? k = some c → c.state ≠ .ABANDONED := by
  intro k c' hc'
  have hset : ∀ {j : ℕ} {d : CallRow} {f : CallRow → CallRow}, calls.get? j = some d →
      (f d).state ≠ .ABANDONED → (calls.alter j f).get? k = some c' → c'.state ≠ .ABANDONED := by
    intro j d f hd hf hget
    rcases Table.cases_of_get?_alter hd hget with ⟨_, rfl⟩ | ⟨_, hold⟩
    · exact hf
    · exact hv k c' hold
  -- the dialer ends calls as `FAILED` or `CANCELLED`, never as `ABANDONED`
  have hsweep : ∀ {q : ℕ → CallRow → Bool} {f : CallRow → CallRow},
      (∀ d, (f d).state ≠ .ABANDONED) → (calls.modify q f).get? k = some c' →
        c'.state ≠ .ABANDONED := by
    intro q f hf hget
    obtain ⟨d, hd, heq⟩ := Table.exists_of_get?_modify hget
    rw [heq]
    split
    · exact hf d
    · exact hv k d hd
  cases h with
  | nothing => exact hv k c' hc'
  | created =>
    rcases Table.cases_of_get?_push hc' with ⟨_, rfl⟩ | hold
    · exact fun h => nomatch h
    · exact hv k c' hold
  | dialed _ hd =>
    refine hset hd ?_ hc'
    show CallState.INITIATED ≠ .ABANDONED
    decide
  | rejected hd =>
    refine hset hd ?_ hc'
    show CallState.FAILED ≠ .ABANDONED
    decide
  | pulledBack =>
    refine hsweep (fun d => ?_) hc'
    show CallState.CANCELLED ≠ .ABANDONED
    decide
  | reaped =>
    refine hsweep (fun d => ?_) hc'
    show CallState.FAILED ≠ .ABANDONED
    decide

/-- **Step.** -/
theorem served_step (cfg : Settings) {s : Sys} {a : Act} (h : s.Served)
    (ha : PairingAssumed s a ∧ a.Answerable) : (step cfg s a).Served := by
  have hlive := h.accounted.kept.live
  refine ⟨accounted_step cfg h.accounted a, (step_path cfg hlive ha.1.permits).invariant
    (I := Floor.Paired) (fun _ _ _ hF hH hm => hF.step hH hm) h.paired, ?_, fun i e' he' => ?_⟩
  · by_cases hcommit : ∀ w, a ≠ .commit w
    · exact (step_acted cfg h.accounted.kept hcommit).calls.unabandoned h.calls
    · push Not at hcommit
      obtain ⟨w, rfl⟩ := hcommit
      rcases s.commit_cases cfg w with ⟨now, plan, hw, _, hs⟩ | hs
      · rw [step, hs]
        show (Db.view (Txn.commit _ _)).Unabandoned
        rcases Txn.commit_cases (commitDrain cfg ⟨now, [], plan⟩) s.db with
          ⟨moved, hrun, _⟩ | ⟨hc, _⟩
        · obtain ⟨db₁, hplan, hview⟩ := commitDrain_run hrun
          rw [hview]
          refine applyPlan_unabandoned s.attempts hlive.healthy
            (hlive.planned w _ hw) (fun p hp k hread => ?_) h.paired h.calls hplan
          -- an event that passed the check claims what the ledger says it does
          obtain ⟨e, he, hsame⟩ := h.accounted.citing.held w _ hw p.event
            (List.mem_append_left _ (List.mem_map_of_mem hp))
          have hclaim := (h.accounted.citing.cites w _ hw p hp).claimed k _ hread
          rw [← EventRow.incoming_of_unmarked hsame] at hclaim
          exact h.events _ e he hclaim
        · rw [hc]
          exact h.calls
      · rw [step, hs]
        exact h.calls
  · rcases step_events cfg h.accounted.kept a with hsame | ⟨now, provider, event_id, call_ref,
      etype, ts, payload, rfl, hpush⟩
    · obtain ⟨e, he, hunmarked⟩ := hsame.before he'
      rw [EventRow.incoming_of_unmarked hunmarked]
      exact h.events i e he
    · rw [hpush] at he'
      rcases Table.cases_of_get?_push he' with ⟨_, rfl⟩ | hold
      · exact ha.2
      · exact h.events i e' hold

/-! ### Offline agents -/

/-- Whoever is offline stays so, but for the staff itself. -/
def Floor.KeepsOffline (F F' : Floor) : Prop :=
  ∀ i a, F.agents.get? i = some a → a.state = .OFFLINE →
    ∃ a', F'.agents.get? i = some a' ∧ a'.state = .OFFLINE

/-- A move that is not of the staff leaves the agents alone that are offline. -/
theorem Floor.Paired.keepsOffline {F F' : Floor} {m : Move} (h : F.Paired) (hm : F.Step m F')
    (hstaff : ∀ i, m ≠ .staffed i) : F.KeepsOffline F' := by
  intro i a ha hs
  -- an agent that is written to is available or in a seat
  have halter : ∀ {j : ℕ} {g : AgentRow → AgentRow},
      (∀ b, F.agents.get? j = some b → b.state ≠ .OFFLINE) →
      ∃ a', (F.agents.alter j g).get? i = some a' ∧ a'.state = .OFFLINE := by
    intro j g hj
    refine ⟨a, ?_, hs⟩
    rw [Table.get?_alter, if_neg, ha]
    rintro rfl
    exact hj a ha hs
  have hseat : ∀ {k j : ℕ} {c : CallRow}, F.calls.get? k = some c → c.agent_id = some j →
      c.state.isTerminal = false → ∀ b, F.agents.get? j = some b → b.state ≠ .OFFLINE := by
    intro k j c hc hagent hlive b hb hoff
    obtain ⟨p, hp⟩ := CallRow.seat_of_live k hagent hlive
    have hbusy := h.matching.agrees k j p ((Table.column_of_get? _ hc).trans hp)
    rw [Floor.busy, Table.column_of_get? _ hb, AgentRow.seat, hoff] at hbusy
    cases hbusy
  have hsweep : ∀ {p : ℕ → AgentRow → Bool} {g : AgentRow → AgentRow}, p i a = false →
      ∃ a', (F.agents.modify p g).get? i = some a' ∧ a'.state = .OFFLINE := by
    intro p g hp
    refine ⟨a, ?_, hs⟩
    rw [Table.get?_modify, ha, Option.map_some, hp]
    rfl
  obtain ⟨hnolate, hnolate'⟩ := h.prompt.not_late hm
  cases hm with
  | seeded | unclaimed | placed | forgotten | rang | unlocked => exact ⟨a, ha, hs⟩
  | hired => exact ⟨a, by rw [Table.get?_push, if_neg (Table.ne_nextId ha), ha], hs⟩
  | staffed => exact absurd rfl (hstaff _)
  | unreserved hb hav =>
    rw [Table.alter_alter]
    refine halter fun b hb' => ?_
    rw [← Option.some.inj (hb.symm.trans hb'), hav]
    decide
  | allotted hb hav =>
    refine halter fun b hb' => ?_
    rw [← Option.some.inj (hb.symm.trans hb'), hav]
    decide
  | dialed hatt hc hres =>
    obtain ⟨c', hc', hagent, _⟩ := h.prompt.call hatt
    obtain rfl := Option.some.inj (hc.symm.trans hc')
    exact halter (hseat hc hagent (by rw [hres]; rfl))
  | dialedLate => exact absurd rfl hnolate
  | refused hatt hc hlive =>
    obtain ⟨c', hc', hagent, _⟩ := h.prompt.call hatt
    obtain rfl := Option.some.inj (hc.symm.trans hc')
    exact halter (hseat hc hagent hlive)
  | refusedLate => exact absurd rfl (hnolate' _)
  | connected hc hring hagent => exact halter (hseat hc hagent (live_of_isRinging hring))
  | ended hc hlive _ hagent => exact halter (hseat hc hagent hlive)
  | orphaned hc hlive hagent => exact halter (hseat hc hagent hlive)
  | reclaimed =>
    refine hsweep ?_
    unfold isReclaimed
    rw [hs]
    rfl
  | wrapupOver =>
    refine hsweep ?_
    unfold isWrapupOver
    rw [hs]
    rfl

/-- Where nothing moves, nobody comes back. -/
theorem Floor.KeepsOffline.refl (F : Floor) : F.KeepsOffline F := fun _ a ha hs => ⟨a, ha, hs⟩

/-- Nobody comes back in any number of moves. -/
theorem Floor.KeepsOffline.trans {F F' F'' : Floor} (h : F.KeepsOffline F')
    (h' : F'.KeepsOffline F'') : F.KeepsOffline F'' := by
  intro i a ha hs
  obtain ⟨a', ha', hs'⟩ := h i a ha hs
  exact h' i a' ha' hs'

/-- Does somebody log in or out, or pause? -/
def Act.staffs : Act → Bool
  | .login .. | .logout .. | .pause .. => true
  | _ => false

/-- Apart from the staff's own actions, none brings back an agent that is offline. -/
theorem step_keepsOffline (cfg : Settings) {s : Sys} {a : Act} (h : s.Served)
    (ha : PairingAssumed s a) (hstaff : a.staffs = false) :
    s.floor.KeepsOffline (step cfg s a).floor := by
  -- the action makes no move of the staff, and otherwise those that pairing permits
  have hpermits : Permits (fun F m => F.Safe m ∧ ∀ i, m ≠ .staffed i) s a := by
    refine ⟨fun F m hm => ⟨F.safe_routine m hm, ?_⟩, fun now i hi => ?_,
      fun now i att hi hatt hp hc =>
        ⟨ha.permits.refusedLate now i att hi hatt hp hc, fun _ h => nomatch h⟩,
      fun now now_ts registry F i c hi hF hc ho =>
        ⟨ha.permits.orphaned now now_ts registry F i c hi hF hc ho, fun _ h => nomatch h⟩,
      fun now now_ts registry F hi hF hb =>
        ⟨ha.permits.unlocked now now_ts registry F hi hF hb, fun _ h => nomatch h⟩⟩
    · rintro i rfl
      exact hm
    · rcases hi with rfl | rfl | rfl <;> cases hstaff
  exact (step_path cfg h.accounted.kept.live hpermits).related (I := Floor.Paired)
    (R := Floor.KeepsOffline) .refl (fun _ _ _ => .trans)
    (fun _ _ _ hF hH hm => hF.step hH.1 hm)
    (fun _ _ _ hF hH hm => hF.keepsOffline hm hH.2) h.paired

/-! ### Undisturbed scenarios -/

namespace Scenario.State

section

variable {s : State}

/-- The mocks report none of their calls as abandoned. -/
theorem Genuine.answerable (cfg : Settings) (h : s.Genuine) (a : Act) :
    Along (SmartDialer.step cfg) (fun _ b => b.Answerable) s.sys (s.writes a) := by
  refine (h.tells cfg a).mono fun sys b hb => ?_
  cases b with
  | ingest now provider event_id call_ref etype ts payload =>
    obtain ⟨pcid, em, _, hem, _, rfl⟩ := hb
    obtain ⟨_, l, _, _, _, hscript⟩ := h.scripted.of_raws (MockProvider.mem_raws hem)
    show CallState.ofString? (mapProviderEvent (mapProviderEvent em.raw_event_type)) ≠ _
    rcases Stage.of_script hscript with hr | ⟨hr, _⟩ | ⟨hr, _⟩ | ⟨hr, _⟩ <;> rw [hr] <;> decide
  | _ => trivial

/-- Everything that is known while everybody leaves between calls. -/
structure Served (cfg : Settings) (s : State) : Prop where
  undisturbed : s.Undisturbed cfg
  genuine : s.Genuine
  served : s.sys.Served

/-- Nobody has been called. -/
theorem served_init (cfg : Settings) : init.Served cfg where
  undisturbed := undisturbed_init cfg
  genuine := genuine_init
  served := ⟨accounted_init, Floor.paired_init, (fun _ _ h => by cases h), fun _ _ h => by cases h⟩

/-- **Step.** The three parts of the invariant keep each other: paired agents serve the calls that
    genuine events report. -/
theorem served_step (cfg : Settings) {a : Act} (h : s.Served cfg) (ha : s.LogoutsIdle a) :
    (step cfg s a).Served cfg where
  undisturbed := undisturbed_step cfg h.undisturbed ha
  genuine := genuine_step cfg h.genuine a
  served := invariant_along (fun _ _ hs hb => SmartDialer.served_step cfg hs hb) h.served
    ((h.undisturbed.assumed ha).and (h.genuine.answerable cfg a))

/-- Nobody who is offline comes back. -/
theorem Served.keepsOffline (cfg : Settings) {a : Act} (h : s.Served cfg) (ha : s.LogoutsIdle a) :
    s.sys.floor.KeepsOffline (step cfg s a).sys.floor := by
  have hassumed := h.undisturbed.assumed ha
  -- a single action that is not of the staff
  have hone : ∀ {b : SmartDialer.Act}, s.writes a = [b] → b.staffs = false →
      s.sys.floor.KeepsOffline (step cfg s a).sys.floor := by
    intro b hb hstaff
    show s.sys.floor.KeepsOffline (run (SmartDialer.step cfg) s.sys (s.writes a)).floor
    rw [hb] at hassumed ⊢
    exact step_keepsOffline cfg h.served hassumed.1 hstaff
  have hnone : s.writes a = [] → s.sys.floor.KeepsOffline (step cfg s a).sys.floor := by
    intro hb
    show s.sys.floor.KeepsOffline (run (SmartDialer.step cfg) s.sys (s.writes a)).floor
    rw [hb]
    exact .refl _
  cases a with
  | hire now campaign_id ext_ref =>
    intro i r hr hs
    obtain ⟨r', hr', hs'⟩ := step_keepsOffline cfg h.served
      (a := .createAgent now campaign_id ext_ref) trivial rfl i r hr hs
    refine ⟨r', ?_, hs'⟩
    -- only the new agent is logged in
    show (Table.alter _ s.sys.db.agents.nextId _).get? i = some r'
    rw [Table.get?_alter, if_neg (show i ≠ s.sys.db.agents.nextId from Table.ne_nextId hr)]
    exact hr'
  | loop b =>
    by_cases hruns : s.phase.runs b = true
    · refine hone (b := b) (by rw [writes, if_pos hruns]) ?_
      cases b with
      | login | logout | pause => cases hp : s.phase <;> rw [hp] at hruns <;> cases hruns
      | _ => rfl
    · exact hnone (by rw [writes, if_neg hruns])
  | place clock_now call_id timeout hard_fail pcid =>
    cases hcalling : s.calling call_id pcid with
    | none => exact hnone (by rw [writes, hcalling])
    | some provider => exact hone (b := .placeCall call_id) (by rw [writes, hcalling]) rfl
  | settle now clock_now call_id =>
    cases hanswer : s.answers call_id with
    | none => exact hnone (by rw [writes, hanswer])
    | some answer =>
      cases answer with
      | none => exact hone (b := .rejected now call_id) (by rw [writes, hanswer]) rfl
      | some pcid =>
        exact hone (b := .accepted now clock_now call_id pcid) (by rw [writes, hanswer]) rfl
  | logout now injector =>
    intro i r hr hs
    obtain ⟨r', hr', hoff⟩ := (run_logouts cfg now s.sys (s.leaving injector)).2 i r hr
    exact ⟨r', hr', hoff (Or.inr hs)⟩
  | resume now provider pcid reorder =>
    cases hsending : s.sending provider pcid with
    | none => exact hnone (by rw [writes, hsending])
    | some ev =>
      obtain ⟨payload, hb⟩ : ∃ payload, s.writes (.resume now provider pcid reorder)
          = [.ingest now provider ev.event_id (some pcid) ev.etype (toTimestamp ev.ts) payload] :=
        ⟨_, by rw [writes, hsending]⟩
      exact hone hb rfl
  | turn | outage | select | advance => exact hnone rfl

end

end Scenario.State

/-- **Mass logouts.** In a scenario whose mass logouts find the selected agents still without a
    call, no call is ever abandoned, so the report shows none, and whoever is logged out stays so.
    -/
theorem scenario_undisturbed (cfg : Settings) (acts more : List Scenario.Act)
    (h : Along (Scenario.step cfg) Scenario.State.LogoutsIdle Scenario.init (acts ++ more)) :
    let db := (run (Scenario.step cfg) Scenario.init acts).sys.db
    let later := (run (Scenario.step cfg) Scenario.init (acts ++ more)).sys.db
    (∀ campaign_id, (cumQuery campaign_id later).abandoned_cum = 0) ∧
    ∀ i a, db.agents.get? i = some a → a.state = .OFFLINE →
      ∃ a', later.agents.get? i = some a' ∧ a'.state = .OFFLINE := by
  intro db later
  have hserved := invariant_along (I := Scenario.State.Served cfg)
    (fun _ _ hs ha => Scenario.State.served_step cfg hs ha) (Scenario.State.served_init cfg) h
  refine ⟨fun campaign_id => ?_, ?_⟩
  · rw [cumQuery_abandoned, Table.count_eq_zero_iff]
    intro k c hc
    rw [beq_eq_false_iff_ne.mpr (hserved.served.calls k c hc), Bool.and_false]
  · -- the second half starts from a state in which all of it holds
    obtain ⟨hbefore, hafter⟩ := along_append.mp h
    have hfirst := invariant_along (I := Scenario.State.Served cfg)
      (fun _ _ hs ha => Scenario.State.served_step cfg hs ha)
      (Scenario.State.served_init cfg) hbefore
    have hkeeps := related_along (I := Scenario.State.Served cfg)
      (R := fun s s' => s.sys.floor.KeepsOffline s'.sys.floor) (fun s => .refl s.sys.floor)
      (fun _ _ _ => .trans) (fun _ _ hs ha => Scenario.State.served_step cfg hs ha)
      (fun _ _ hs ha => hs.keepsOffline cfg ha) hfirst hafter
    rw [← run_append] at hkeeps
    exact hkeeps

/-- While one agent is dialing, the other one is selected and logged out. -/
def idleLogout : List Scenario.Act :=
  [.hire 0 7 "agent-0", .hire 0 7 "agent-1", .loop (.seed 0 7 "+15550001-0" 0 3),
    .loop (.reserveAndCreate 0 0 [] [] (some "mock_a") "w1" 7),
    .place 0 1 false false "MOCK_A-1", .settle 0 0 1, .select 0 7 1 [2], .turn false,
    .logout (secs 1) 0]

/-- The call is answered; its ringing comes second. -/
def answeredCall : List Scenario.Act :=
  [.advance 1 true "e-1" 0 false, .resume (secs 1) "mock_a" "MOCK_A-1" false,
    .advance 1 true "e-2" 1 false, .resume (secs 1) "mock_a" "MOCK_A-1" true,
    .resume (secs 1) "mock_a" "MOCK_A-1" false, .resume (secs 1) "mock_a" "MOCK_A-1" false,
    .loop (.fetch (secs 2) 0 200), .loop (.read (secs 2) 0), .loop (.read (secs 2) 0),
    .loop (.commit 0), .turn false]

/-- A scenario in which one agent leaves while it has no call, and the other one serves its own. -/
theorem scenario_undisturbed_answeredCall :
    let later := (run (Scenario.step .default) Scenario.init (idleLogout ++ answeredCall)).sys.db
    ((later.calls.get? 1).map (·.state) = some .CONNECTED ∧
      (cumQuery 7 later).abandoned_cum = 0) ∧
    ∃ a, later.agents.get? 2 = some a ∧ a.state = .OFFLINE := by
  obtain ⟨hnone, hoffline⟩ := scenario_undisturbed .default idleLogout answeredCall
    (by decide +kernel)
  obtain ⟨a, ha, hs⟩ := Option.map_eq_some_iff.mp
    (show ((run (Scenario.step .default) Scenario.init idleLogout).sys.db.agents.get? 2).map
      (·.state) = some .OFFLINE by decide +kernel)
  exact ⟨⟨by decide +kernel, hnone 7⟩, hoffline 2 a ha hs⟩

/-- An agent that is selected before it is reserved is logged out while it dials. -/
example :
    let acts : List Scenario.Act :=
      [.hire 0 7 "agent-0", .loop (.seed 0 7 "+15550001-0" 0 3), .select 0 7 1 [1],
        .loop (.reserveAndCreate 0 0 [] [] (some "mock_a") "w1" 7),
        .place 0 1 false false "MOCK_A-1", .settle 0 0 1, .logout 0 0, .turn false,
        .advance 1 true "e-1" 0 true, .resume (secs 1) "mock_a" "MOCK_A-1" false,
        .resume (secs 1) "mock_a" "MOCK_A-1" false, .resume (secs 1) "mock_a" "MOCK_A-1" false,
        .resume (secs 1) "mock_a" "MOCK_A-1" false, .advance 1 true "e-2" 1 true,
        .resume (secs 1) "mock_a" "MOCK_A-1" false, .resume (secs 1) "mock_a" "MOCK_A-1" false,
        .resume (secs 1) "mock_a" "MOCK_A-1" false, .loop (.fetch (secs 2) 0 200),
        .loop (.read (secs 2) 0), .loop (.read (secs 2) 0), .loop (.commit 0)]
    let db := (run (Scenario.step .default) Scenario.init acts).sys.db
    (cumQuery 7 db).abandoned_cum = 1 := by
  decide +kernel

end SmartDialer
