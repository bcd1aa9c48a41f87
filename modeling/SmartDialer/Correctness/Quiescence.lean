import SmartDialer.Correctness.UnknownCalls

namespace SmartDialer

open Relational

/-!
# Quiet scenarios

The loop of a scenario drains while nobody else writes to the calls, so that an event which reports
the end of a call is applied only when the call has ended.  Nothing that was emitted is lost on the
way.  When the lifecycles have returned and their events have been applied, no call is left open.

* `scenario_ends` — the call of an applied end has ended.
* `Scenario.State.Posted` — what was delivered is in the ledger.
* `Scenario.State.Quiet` — nothing goes on any more; `scenario_quiet` says what the calls are then.
-/

/-! ### The drain of a scenario -/

/-- Only the drain with the number zero is ever open. -/
def Sys.Lone (s : Sys) : Prop := ∀ w d, s.drains.get? w = some d → w = 0

/-- A drain is opened by `fetch`, and by nothing else. -/
theorem lone_step (cfg : Settings) {s : Sys} (h : s.Lone) {a : Act}
    (ha : ∀ now w limit, a = .fetch now w limit → w = 0) : (step cfg s a).Lone := by
  intro w d hw
  rcases step_drain cfg hw with hold | ⟨now, limit, _, hfetch, _⟩ | ⟨_, _, _, _, _, _, _, hd, _⟩
  · exact h w d hold
  · exact ha now w limit hfetch
  · exact h w _ hd

namespace Scenario.State

section

variable {s : State}

/-- The loop has one drain only. -/
theorem zero_of_mem_writes {a : Act} {now : Time} {w limit : ℕ}
    (hb : SmartDialer.Act.fetch now w limit ∈ s.writes a) : w = 0 := by
  cases issues_of_mem_writes hb with
  | loop hruns =>
    cases w with
    | zero => rfl
    | succ => cases hp : s.phase <;> rw [hp] at hruns <;> cases hruns

/-- Nobody else writes to the calls while the loop drains. -/
theorem Ordered.drainsAlone (h : s.Ordered) (hl : s.sys.Lone) (cfg : Settings) (a : Act) :
    Along (SmartDialer.step cfg) DrainsAlone s.sys (s.writes a) := by
  -- if a drain is open, the loop is in its phase, and no allocation is in flight
  have hphase : ∀ {w d}, s.sys.drains.get? w = some d → s.phase = .drain := by
    intro w d hd
    by_contra hp
    exact absurd hd (Table.rows_eq_nil_iff.mp (h.drains hp) w d)
  have hempty : ∀ {w d}, s.sys.drains.get? w = some d → s.sys.attempts.rows = [] := fun hd =>
    h.attempts (by rw [hphase hd]; decide)
  cases a with
  | loop b =>
    rw [writes]
    split
    · rename_i hruns
      refine ⟨fun w d hd => ?_, trivial⟩
      rw [hphase hd] at hruns
      obtain rfl := hl w d hd
      cases b with
      | fetch now w limit => cases w <;> first | rfl | cases hruns
      | commit w => cases w <;> first | rfl | cases hruns
      | reserveAndCreate | accepted | rejected | pullback | reap => cases hruns
      | _ => trivial
    · trivial
  | settle now clock_now call_id =>
    rw [writes]
    split
    · exact ⟨fun _ _ hd => hempty hd, trivial⟩
    · exact ⟨fun _ _ hd => hempty hd, trivial⟩
    · trivial
  | hire => exact ⟨fun _ _ _ => trivial, fun _ _ _ => trivial, trivial⟩
  | place clock_now call_id timeout hard_fail pcid =>
    rw [writes]
    split
    · exact ⟨fun _ _ _ => trivial, trivial⟩
    · trivial
  | logout now injector =>
    refine Along.mono (fun _ b hb => ?_) (along_of_forall
      (P := fun b => ∃ i, b = SmartDialer.Act.logout now i) s.sys fun b hb => ?_)
    · obtain ⟨i, rfl⟩ := hb
      exact fun _ _ _ => trivial
    · obtain ⟨i, _, rfl⟩ := List.mem_map.mp hb
      exact ⟨i, rfl⟩
  | resume now provider pcid reorder =>
    rw [writes]
    split
    · exact ⟨fun _ _ _ => trivial, trivial⟩
    · trivial
  | turn | outage | select | advance => trivial

end

/-- The ends of calls in a scenario. -/
structure Concluded (cfg : Settings) (s : State) : Prop where
  ordered : s.Ordered
  accounted : s.sys.Accounted
  lone : s.sys.Lone
  concluded : s.sys.Concluded cfg

/-- No event has come, and no drain is open. -/
theorem concluded_init (cfg : Settings) : init.Concluded cfg :=
  ⟨ordered_init, accounted_init, fun _ _ hd => (by cases hd), SmartDialer.concluded_init cfg⟩

/-- **Step.** -/
theorem concluded_step (cfg : Settings) {s : State} (h : s.Concluded cfg) (a : Act) :
    (step cfg s a).Concluded cfg := by
  have hall := invariant_along (I := fun sys : Sys => sys.Accounted ∧ sys.Lone ∧ sys.Concluded cfg)
    (fun sys b hs hb => ⟨accounted_step cfg hs.1 b, lone_step cfg hs.2.1 hb.2,
      SmartDialer.concluded_step cfg hs.1 hs.2.2 hb.1⟩)
    ⟨h.accounted, h.lone, h.concluded⟩
    ((h.ordered.drainsAlone h.lone cfg a).and (along_of_forall
      (P := fun b => ∀ now w limit, b = SmartDialer.Act.fetch now w limit → w = 0) s.sys
      fun b hb now w limit heq => zero_of_mem_writes (heq ▸ hb)))
  exact ⟨ordered_step cfg h.ordered a, hall.1, hall.2.1, hall.2.2⟩

end Scenario.State

/-- **Ends.** In every scenario, whatever is drawn and injected, a call has ended once the ledger
    names it for an event that reports an end, even if the event was refused. -/
theorem scenario_ends (cfg : Settings) (acts : List Scenario.Act) :
    let s := (run (Scenario.step cfg) Scenario.init acts).sys
    ∀ i e k incoming, s.db.provider_events.get? i = some e → e.call_id = some k →
      e.incoming = some incoming → incoming.isTerminal = true →
      ∃ c, s.db.calls.get? k = some c ∧ e.IsOf c ∧ c.state.isTerminal = true := by
  intro s i e k incoming he hk hin ht
  have h := invariant_run (I := Scenario.State.Concluded cfg)
    (fun _ a h => Scenario.State.concluded_step cfg h a) (Scenario.State.concluded_init cfg) acts
  obtain ⟨c, hc, hterm⟩ := h.concluded.rows i e he k incoming hk hin ht
  obtain ⟨_, c', hc', hof, _⟩ := (h.accounted.accounted.marked i e he).named hk
  obtain rfl := Option.some.inj (hc.symm.trans hc')
  exact ⟨c, hc, hof, hterm⟩

/-! ### What has been delivered -/

/-- The ledger has a row of the event. -/
def View.Records (v : View) (provider event_id : String) : Prop :=
  ∃ i e, v.provider_events.get? i = some e ∧ e.provider = provider ∧ e.provider_event_id = event_id

/-- A recorded event stays recorded. -/
theorem View.KeepsEvents.records {v v' : View} (h : v.KeepsEvents v') {provider event_id : String}
    (hr : v.Records provider event_id) : v'.Records provider event_id := by
  obtain ⟨i, e, he, hp, hid⟩ := hr
  obtain ⟨e', he', hsame⟩ := h i e he
  obtain ⟨hp', hid', _⟩ := EventRow.mk.inj hsame
  exact ⟨i, e', he', hp'.trans hp, hid'.trans hid⟩

/-- A delivered event has a row, be it an old one. -/
theorem records_ingest (cfg : Settings) (s : Sys) (now : Time) (provider event_id : String)
    (call_ref : Option String) (etype : String) (ts : Time) (payload : String) :
    (step cfg s (.ingest now provider event_id call_ref etype ts payload)).db.view.Records provider
      event_id := by
  obtain ⟨o, db', hrun, hv⟩ := EventRepo.ingest_run now provider event_id call_ref etype ts payload
    s.db
  rw [step, Sys.exec_db, (Txn.commit_of_run hrun).1]
  rcases hv with ⟨_, _, hv⟩ | ⟨_, ⟨i, e, he, hp, hid⟩, rfl⟩
  · rw [hv]
    refine ⟨s.db.provider_events.nextId, EventRepo.ingestedRow now provider event_id call_ref etype
      ts payload, ?_, rfl, rfl⟩
    exact (Table.get?_push ..).trans (if_pos rfl)
  · exact ⟨i, e, he, hp, hid⟩

namespace Scenario.State

/-- Everything that was delivered is in the ledger, under an id of its own. -/
structure Posted (s : State) : Prop where
  ids : ∀ provider x y, x ∈ (s.mocks provider).buffer.emissions →
    y ∈ (s.mocks provider).buffer.emissions → x.2.event_id = y.2.event_id → x = y
  ledger : ∀ provider pcid ev, (pcid, ev) ∈ (s.mocks provider).buffer.delivered →
    s.sys.db.view.Records provider ev.event_id

/-- Nothing has been delivered. -/
theorem posted_init : init.Posted :=
  ⟨fun _ _ _ hx => (by cases hx), fun _ _ _ hev => by cases hev⟩

section

variable {s : State}

/-- The buffer of a mock emits under a fresh id, delivers what it sends, or does neither. -/
theorem outside_buffer (a : Act) (provider : String) :
    let m := (s.mocks provider).buffer
    let m' := ((s.outside a).mocks provider).buffer
    (m'.emissions = m.emissions ∨ ∃ x, m'.emissions = m.emissions ++ [x] ∧
      ∀ y ∈ m.emissions, y.2.event_id ≠ x.2.event_id) ∧
    (m'.delivered = m.delivered ∨ ∃ now pcid reorder ev, a = .resume now provider pcid reorder ∧
      s.sending provider pcid = some ev ∧ m'.delivered = m.delivered ++ [(pcid, ev)]) := by
  intro m m'
  cases a with
  | hire | loop | settle | logout => exact ⟨Or.inl rfl, Or.inl rfl⟩
  | turn reaps =>
    obtain ⟨phase, hs, _⟩ := s.turn_cases reaps
    have hm : m' = m := by
      show ((s.turn reaps).mocks provider).buffer = _
      rw [hs]
    rw [hm]
    exact ⟨Or.inl rfl, Or.inl rfl⟩
  | place clock_now call_id timeout hard_fail pcid =>
    have hm : m' = m := by
      show ((s.place clock_now call_id timeout hard_fail pcid).mocks provider).buffer = _
      rcases s.place_cases clock_now call_id timeout hard_fail pcid with hs |
        ⟨_, _, _, _, hs | hs⟩ <;> rw [hs]
    rw [hm]
    exact ⟨Or.inl rfl, Or.inl rfl⟩
  | outage clock_now dur other =>
    have hm : m' = m := by
      show Mock.buffer (Function.update s.mocks other _ provider) = _
      by_cases hp : provider = other
      · subst hp
        rw [Function.update_self]
        rfl
      · rw [Function.update_of_ne hp]
    rw [hm]
    exact ⟨Or.inl rfl, Or.inl rfl⟩
  | select injector campaign_id count ids =>
    have hm : m' = m := by
      show ((s.outside _).mocks provider).buffer = _
      rcases s.select_cases injector campaign_id count ids with hs | ⟨_, hs⟩ <;> rw [hs]
    rw [hm]
    exact ⟨Or.inl rfl, Or.inl rfl⟩
  -- the two buffer actions of a lifecycle: it emits an event, or flushes what is held
  | advance task answered event_id clock_now dup =>
    rcases s.advance_cases task answered event_id clock_now dup with hs |
      ⟨l, raw, stage, a, _, _, _, ha, hs⟩
    · have hm : m' = m := congrArg (fun s : State => (s.mocks provider).buffer) hs
      rw [hm]
      exact ⟨Or.inl rfl, Or.inl rfl⟩
    · have hm : m' = if provider = l.provider then (s.mocks l.provider).buffer.step a else m :=
        (congrArg (fun s : State => (s.mocks provider).buffer) hs).trans (onBuffer_buffer ..)
      rw [hm]
      split
      · rename_i hp
        subst hp
        rcases ha with ⟨e, _, rfl, hfresh⟩ | ⟨_, rfl⟩
        · rw [MockProvider.step]
          split
          · exact ⟨Or.inr ⟨(l.pcid, e), rfl, hfresh⟩, Or.inl rfl⟩
          · exact ⟨Or.inl rfl, Or.inl rfl⟩
        · rw [MockProvider.step]
          split <;> exact ⟨Or.inl rfl, Or.inl rfl⟩
      · exact ⟨Or.inl rfl, Or.inl rfl⟩
  -- the one action that delivers
  | resume now other pcid reorder =>
    have hm : m' = if provider = other then (s.mocks other).buffer.step (.resume pcid reorder)
        else m := onBuffer_buffer ..
    rw [hm]
    split
    · rename_i hp
      subst hp
      rw [MockProvider.step, MockProvider.emissions_resume]
      refine ⟨Or.inl rfl, ?_⟩
      unfold MockProvider.resume
      split
      · rename_i batch ev sending flushed ht
        refine Or.inr ⟨now, pcid, reorder, ev, rfl, ?_, rfl⟩
        rw [State.sending, ht]
        rfl
      · split <;> exact Or.inl rfl
      · exact Or.inl rfl
    · exact ⟨Or.inl rfl, Or.inl rfl⟩

/-- Whatever its parties do, the ledger of the scenario keeps its events. -/
theorem Genuine.keepsEvents (cfg : Settings) (h : s.Genuine) (acts : List SmartDialer.Act) :
    s.sys.db.view.KeepsEvents (run (SmartDialer.step cfg) s.sys acts).db.view :=
  related_run (I := Sys.Live) (R := fun x y : Sys => x.db.view.KeepsEvents y.db.view)
    (fun _ => (View.SameEvents.of_eq rfl).keeps)
    (fun _ _ _ hxy hyz i e he => by
      obtain ⟨e', he', hsame⟩ := hxy i e he
      obtain ⟨e'', he'', hsame'⟩ := hyz i e' he'
      exact ⟨e'', he'', hsame'.trans hsame⟩)
    (fun _ a hs => live_step cfg hs a) (fun x a hs => (step_ledger cfg x a).keepsEvents hs)
    h.accounted.kept.live acts

/-- **Step.** -/
theorem posted_step (cfg : Settings) (hg : s.Genuine) (h : s.Posted) (a : Act) :
    (step cfg s a).Posted where
  ids provider x y hx hy hid := by
    -- an emission is new only under an event id that no earlier one has
    rcases (outside_buffer a provider).1 with heq | ⟨z, heq, hfresh⟩
    · exact h.ids provider x y (heq ▸ hx) (heq ▸ hy) hid
    · change x ∈ ((s.outside a).mocks provider).buffer.emissions at hx
      change y ∈ ((s.outside a).mocks provider).buffer.emissions at hy
      rw [heq, List.mem_append, List.mem_singleton] at hx hy
      rcases hx with hx | rfl
      · rcases hy with hy | rfl
        · exact h.ids provider x y hx hy hid
        · exact absurd hid (hfresh x hx)
      · rcases hy with hy | rfl
        · exact absurd hid.symm (hfresh y hy)
        · rfl
  ledger provider pcid ev hev := by
    rcases (outside_buffer a provider).2 with heq | ⟨now, q, reorder, ev', rfl, hsending, heq⟩
    · exact (hg.keepsEvents cfg _).records (h.ledger provider pcid ev (heq ▸ hev))
    · change (pcid, ev) ∈ ((s.outside (.resume now provider q reorder)).mocks
        provider).buffer.delivered at hev
      rw [heq, List.mem_append, List.mem_singleton] at hev
      rcases hev with hold | hnew
      · exact (hg.keepsEvents cfg _).records (h.ledger provider pcid ev hold)
      · obtain ⟨rfl, rfl⟩ := Prod.mk.inj hnew
        -- a delivery is recorded by the INSERT of the same action
        show (run (SmartDialer.step cfg) s.sys (s.writes _)).db.view.Records _ _
        rw [writes, hsending]
        exact records_ingest cfg ..

end

end Scenario.State

/-! ### Quiet states -/

/-- A lifecycle that is over has returned. -/
theorem Stage.eq_returned {stage : Stage} (h : stage.isOver = true) :
    ∃ answered, stage = .returned answered := by
  cases stage with
  | returned answered => exact ⟨answered, rfl⟩
  | placed | ringing | unanswered | talking | completed => cases h

/-- The last event of a lifecycle that has returned. -/
theorem Stage.last_script (answered : Bool) : ∃ raw ∈ (Stage.returned answered).script,
    CallState.ofString? (mapProviderEvent (mapProviderEvent raw)) =
      some (if answered then .COMPLETED else .FAILED) := by
  cases answered with
  | true => exact ⟨"completed", by decide, by decide⟩
  | false => exact ⟨"no-answer", by decide, by decide⟩

namespace Scenario.State

/-- Every lifecycle has returned, and every event has been applied. -/
structure Quiet (s : State) : Prop where
  returned : ∀ t l, s.lifecycles.get? t = some l → l.stage.isOver = true ∧
    ((s.mocks l.provider).buffer.tasks l.pcid).Idle
  applied : ∀ i e, s.sys.db.provider_events.get? i = some e → e.applied = true

/-- Lifecycles and ledger rows are finitely many. -/
instance (s : State) : Decidable s.Quiet :=
  decidable_of_iff (_ ∧ _) ⟨fun h => ⟨h.1, h.2⟩, fun h => ⟨h.returned, h.applied⟩⟩

/-- Everything that is known of a scenario. -/
structure Known (cfg : Settings) (s : State) : Prop extends s.Settled where
  posted : s.Posted
  concluded : s.Concluded cfg

/-- All of it holds before `setup_campaign`. -/
theorem known_init (cfg : Settings) : init.Known cfg where
  toSettled := settled_init
  posted := posted_init
  concluded := concluded_init cfg

/-- **Step.** Each part is kept by what the others say. -/
theorem known_step (cfg : Settings) {s : State} (h : s.Known cfg) (a : Act) :
    (step cfg s a).Known cfg where
  toSettled := settled_step cfg h.toSettled a
  posted := posted_step cfg h.genuine h.posted a
  concluded := concluded_step cfg h.concluded a

/-- **Run.** All of it holds in every state of every scenario. -/
theorem known_run (cfg : Settings) (acts : List Act) : (run (step cfg) init acts).Known cfg :=
  invariant_run (I := Known cfg) (fun _ a h => known_step cfg h a) (known_init cfg) acts

section

variable {cfg : Settings} {s : State}

/-- When a mock is done with a call, the ledger has every event that its lifecycle has emitted. -/
theorem Known.ledger (h : s.Known cfg) (hquiet : s.Quiet) {t : ℕ} {l : Lifecycle}
    (hl : s.lifecycles.get? t = some l) {raw : String} (hraw : raw ∈ l.stage.script) :
    ∃ i e, s.sys.db.provider_events.get? i = some e ∧ e.provider = l.provider ∧
      e.provider_call_id = some l.pcid ∧ e.event_type = mapProviderEvent raw := by
  obtain ⟨hover, hidle⟩ := hquiet.returned t l hl
  obtain ⟨hscript, hflushed⟩ := h.genuine.scripted.script t l hl
  -- the event has been emitted, delivered and recorded
  obtain ⟨em, hem, rfl⟩ : ∃ em : Emission,
      (l.pcid, em) ∈ (s.mocks l.provider).buffer.emissions ∧ em.raw_event_type = raw := by
    rw [← hscript] at hraw
    obtain ⟨em, hem, rfl⟩ := List.mem_map.mp hraw
    exact ⟨em, MockProvider.mem_under.mp hem, rfl⟩
  have hdelivered := (h.genuine.scripted.delivering l.provider l.pcid).delivered
    (hflushed.trans hover) hem
  rw [hidle.2, List.append_nil] at hdelivered
  obtain ⟨i, e, he, hp, hid⟩ := h.posted.ledger l.provider l.pcid em.event
    (MockProvider.mem_under.mp hdelivered)
  obtain ⟨pcid, em', href, hem', hid', htype⟩ := h.genuine.heard.ledger i e he
  -- and no other event has its id
  obtain ⟨rfl, rfl⟩ := Prod.mk.inj (h.posted.ids l.provider (pcid, em') (l.pcid, em)
    (hp ▸ hem') hem (hid'.symm.trans hid))
  exact ⟨i, e, he, hp, href, htype⟩

/-- A call whose lifecycle has returned has ended. -/
theorem Known.ended (h : s.Known cfg) (hquiet : s.Quiet) {t : ℕ} {l : Lifecycle}
    (hl : s.lifecycles.get? t = some l) {k : ℕ} {c : CallRow}
    (hc : s.sys.db.calls.get? k = some c) (hp : l.provider = c.provider)
    (hq : c.provider_call_id = some l.pcid) : c.state.isTerminal = true := by
  obtain ⟨answered, hstage⟩ := Stage.eq_returned (hquiet.returned t l hl).1
  obtain ⟨raw, hraw, hlast⟩ := Stage.last_script answered
  obtain ⟨i, e, he, hep, href, htype⟩ := h.ledger hquiet hl (hstage ▸ hraw)
  have hof : e.IsOf c := ⟨by rw [href]; rfl, hp.symm.trans hep.symm, hq.trans href.symm⟩
  have hin : e.incoming = some (if answered then .COMPLETED else .FAILED) := by
    rw [EventRow.incoming, htype]
    exact hlast
  have hends : ∀ {j c'}, e.call_id = some j → s.sys.db.calls.get? j = some c' → e.IsOf c' →
      c.state.isTerminal = true := by
    intro j c' hj hc' hof'
    -- no other call has the reference
    obtain rfl : j = k := s.sys.db.refUnique j c' k c hc' hc
      (by rw [CallRow.refIndex, hof'.2.2, href]; simp)
      (by rw [CallRow.refIndex, CallRow.refIndex, hof'.2.2, href, hq, hof'.2.1, hep, hp])
    obtain ⟨c'', hc'', hterm⟩ := h.concluded.concluded.rows i e he j _ hj hin
      (by cases answered <;> rfl)
    rwa [Option.some.inj (hc.symm.trans hc'')]
  cases h.genuine.accounted.accounted.marked i e he with
  | waiting ha =>
    rw [hquiet.applied i e he] at ha
    cases ha
  | givenUp _ _ hx =>
    -- an unknown call would not have the reference
    obtain ⟨pcid, hpcid, hunmet⟩ := h.unknown.rows i e he hx
    exact absurd (hof.2.2.trans hpcid) (hunmet.2.calls k c hc hof.2.1)
  | refused _ hk hc' hof' => exact hends hk hc' hof'
  | effective _ _ hk hc' hof' => exact hends hk hc' hof'

/-- In a quiet state a call still waits to be dialed or has ended. -/
theorem Known.waits_or_ended (h : s.Known cfg) (hquiet : s.Quiet) {k : ℕ} {c : CallRow}
    (hc : s.sys.db.calls.get? k = some c) :
    c.state = .RESERVED ∧ c.provider_call_id = none ∨ c.state.isTerminal = true := by
  cases hq : c.provider_call_id with
  | none =>
    exact ((h.genuine.accounted.kept.live.healthy.settled k c hc).undialed hq).imp_left
      fun hs => ⟨hs, rfl⟩
  | some pcid =>
    obtain ⟨t, l, hl, hp, rfl⟩ := h.genuine.heard.dialed k c pcid hc hq
    exact Or.inr (h.ended hquiet hl hc hp hq)

end

end Scenario.State

/-- **Quiet states.** When in a scenario every lifecycle has returned and every event has been
    applied, each call still waits to be dialed or has ended, and unless the dialer itself has ended
    it, it has ended as its lifecycle did. -/
theorem scenario_quiet (cfg : Settings) (acts : List Scenario.Act)
    (hquiet : (run (Scenario.step cfg) Scenario.init acts).Quiet) :
    let s := run (Scenario.step cfg) Scenario.init acts
    ∀ k c, s.sys.db.calls.get? k = some c →
      c.state = .RESERVED ∧ c.provider_call_id = none ∨
      c.state.isTerminal = true ∧ (c.failure_reason = none →
        ∃ t l answered, s.lifecycles.get? t = some l ∧ l.provider = c.provider ∧
          c.provider_call_id = some l.pcid ∧ l.stage = .returned answered ∧
          if answered then c.state = .COMPLETED ∨ c.state = .ABANDONED else c.state = .FAILED) := by
  intro s k c hc
  have h : s.Known cfg := Scenario.State.known_run cfg acts
  refine (h.waits_or_ended hquiet hc).imp_right fun hterm => ⟨hterm, fun hreason => ?_⟩
  cases hq : c.provider_call_id with
  | none =>
    -- no event refers to a call that was never dialed
    have hnever : ∀ r, ¬ s.sys.db.view.Reported k r := by
      rintro r ⟨i, e, he, _, hk, _⟩
      obtain ⟨_, c', hc', hof, _⟩ := (h.genuine.accounted.accounted.marked i e he).named hk
      obtain rfl := Option.some.inj (hc.symm.trans hc')
      have hnamed := hof.1
      rw [← hof.2.2, hq] at hnamed
      cases hnamed
    cases (h.genuine.accounted.accounted.sourced k c hc).ended hterm with
    | rejected _ hr | expired _ hr | pulledBack _ hr => rw [hreason] at hr; cases hr
    | reported _ hp | unbridged _ _ _ hp => exact absurd hp (hnever _)
  | some pcid =>
    obtain ⟨t, l, hl, hp, rfl⟩ := h.genuine.heard.dialed k c pcid hc hq
    obtain ⟨answered, hstage⟩ := Stage.eq_returned (hquiet.returned t l hl).1
    refine ⟨t, l, answered, hl, hp, rfl, hstage, ?_⟩
    have hgenuine := h.genuine.call hc hl hp hq
    rw [hstage] at hgenuine
    cases hs : c.state with
    | COMPLETED =>
      rcases hgenuine.completed hs with heq | heq
      · cases heq
      · cases heq
        exact Or.inl rfl
    | ABANDONED =>
      obtain rfl := Option.some.inj (hgenuine.abandoned hs).1
      exact Or.inr rfl
    | FAILED =>
      obtain rfl := Option.some.inj (hgenuine.failed hs hreason)
      rfl
    | CANCELLED =>
      have hcancelled := (hgenuine.cancelled hs).1
      rw [hreason] at hcancelled
      cases hcancelled
    | QUEUED | RESERVED | INITIATED | RINGING | ANSWERED | CONNECTED =>
      rw [hs] at hterm
      cases hterm

/-- Every event of this call comes out of order or twice. -/
def completedCall : List Scenario.Act :=
  [.hire 0 7 "agent-0", .loop (.seed 0 7 "+15550001-0" 0 3),
    .loop (.reserveAndCreate 0 0 [] [] (some "mock_a") "w1" 7),
    .place 0 1 false false "MOCK_A-1", .settle 0 0 1, .turn false,
    .advance 1 true "e-1" 0 false, .resume (secs 1) "mock_a" "MOCK_A-1" false,
    .advance 1 true "e-2" 1 false, .resume (secs 1) "mock_a" "MOCK_A-1" true,
    .resume (secs 1) "mock_a" "MOCK_A-1" false, .resume (secs 1) "mock_a" "MOCK_A-1" false,
    .advance 1 true "e-3" 2 true, .resume (secs 2) "mock_a" "MOCK_A-1" false,
    .resume (secs 2) "mock_a" "MOCK_A-1" false, .resume (secs 2) "mock_a" "MOCK_A-1" false,
    .resume (secs 2) "mock_a" "MOCK_A-1" false, .advance 1 true "" 3 false,
    .loop (.fetch (secs 3) 0 200), .loop (.read (secs 3) 0), .loop (.read (secs 3) 0),
    .loop (.read (secs 3) 0), .loop (.commit 0), .turn false]

/-- A scenario that comes to a quiet state: its call was answered, and is completed. -/
theorem scenario_quiet_completedCall :
    let s := run (Scenario.step .default) Scenario.init completedCall
    s.Quiet ∧ ∃ (c : CallRow) (l : Lifecycle), s.sys.db.calls.get? 1 = some c ∧
      c.state = .COMPLETED ∧ c.provider_call_id = some l.pcid ∧ l.stage = .returned true := by
  have hquiet : (run (Scenario.step .default) Scenario.init completedCall).Quiet := by
    decide +kernel
  refine ⟨hquiet, ?_⟩
  obtain ⟨c, hc, hstate⟩ := Option.map_eq_some_iff.mp
    (show ((run (Scenario.step .default) Scenario.init completedCall).sys.db.calls.get? 1).map
      (fun c => (c.state, c.failure_reason)) = some (.COMPLETED, none) by decide +kernel)
  obtain ⟨hs, hreason⟩ := Prod.mk.inj hstate
  -- the theorem itself; what remains is to read the answer off the COMPLETED row
  rcases scenario_quiet .default completedCall hquiet 1 c hc with ⟨hreserved, _⟩ | ⟨_, hends⟩
  · rw [hs] at hreserved
    cases hreserved
  · obtain ⟨t, l, answered, _, _, hq, hstage, hcase⟩ := hends hreason
    refine ⟨c, l, hc, hs, hq, ?_⟩
    cases answered with
    | true => exact hstage
    | false =>
      change c.state = .FAILED at hcase
      rw [hs] at hcase
      cases hcase

end SmartDialer
