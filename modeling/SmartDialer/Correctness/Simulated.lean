import SmartDialer.Correctness.Lifecycles
import SmartDialer.Correctness.Records
import SmartDialer.Correctness.References

namespace SmartDialer

open Relational

/-!
# What a simulation tells of its calls

In a scenario the world is known: each lifecycle has drawn whether its borrower answers.  The
workers learn of it only through events that may be duplicated, exchanged and late, while calls are
pulled back, reaped and abandoned.  What they write down is true all the same.

* `Sys.Heard` — the ledger holds events of the lifecycles, and a dialed call has one.
* `Scenario.State.Genuine` — the invariant of a scenario.
* `CallRow.Genuine` — what a call tells of its lifecycle; `simulated_calls_genuine` for every run.
-/

/-! ### What the workers hear -/

/-- The lifecycles, as far as the workers can tell: which of them have started, and what has been
    emitted. -/
structure Telephony where
  started : String → String → Prop
  emitted : String → String → Emission → Prop

/-- The ledger holds events of the lifecycles, and a dialed call has one. -/
structure Sys.Heard (T : Telephony) (s : Sys) : Prop where
  ledger : ∀ i e, s.db.provider_events.get? i = some e → ∃ pcid em,
    e.provider_call_id = some pcid ∧ T.emitted e.provider pcid em ∧
      e.provider_event_id = em.event_id ∧ e.event_type = em.event.etype
  dialed : ∀ k c pcid, s.db.calls.get? k = some c → c.provider_call_id = some pcid →
    T.started c.provider pcid

/-- The providers deliver what has been emitted, and accept what has been started. -/
def Sys.Tells (T : Telephony) (s : Sys) : Act → Prop
  | .ingest _ provider event_id call_ref etype _ _ => ∃ pcid em, call_ref = some pcid ∧
      T.emitted provider pcid em ∧ event_id = em.event_id ∧ etype = em.event.etype
  | .accepted _ _ k pcid => ∀ c, s.db.calls.get? k = some c → T.started c.provider pcid
  | _ => True

/-- What the lifecycles add later makes nothing wrong that was heard before. -/
theorem Sys.Heard.mono {T T' : Telephony} {s : Sys} (h : s.Heard T)
    (hs : ∀ provider pcid, T.started provider pcid → T'.started provider pcid)
    (he : ∀ provider pcid em, T.emitted provider pcid em → T'.emitted provider pcid em) :
    s.Heard T' where
  ledger i e hi := by
    obtain ⟨pcid, em, href, hem, hrest⟩ := h.ledger i e hi
    exact ⟨pcid, em, href, he _ _ _ hem, hrest⟩
  dialed k c pcid hc hp := hs _ _ (h.dialed k c pcid hc hp)

/-- **Step.** -/
theorem heard_step (cfg : Settings) {T : Telephony} {s : Sys} (h : s.Heard T) (hs : s.Accounted)
    {a : Act} (ha : s.Tells T a) : (step cfg s a).Heard T where
  ledger i e' he' := by
    -- the ledger has the same events, or one that has just been delivered
    rcases step_events cfg hs.kept a with hsame | ⟨now, provider, event_id, call_ref, etype, ts,
      payload, rfl, hpush⟩
    · obtain ⟨e, he, hunmarked⟩ := hsame.before he'
      obtain ⟨pcid, em, href, hem, hid, htype⟩ := h.ledger i e he
      obtain ⟨hp, hi, hr, _, ht, _⟩ := EventRow.mk.inj hunmarked
      refine ⟨pcid, em, hr.trans href, ?_, hi.trans hid, ht.trans htype⟩
      rw [show e'.provider = e.provider from hp]
      exact hem
    · rw [hpush] at he'
      rcases Table.cases_of_get?_push he' with ⟨_, rfl⟩ | hold
      · exact ha
      · exact h.ledger i e' hold
  dialed k c' pcid hc' hp := by
    -- a reference is new only where the provider has just accepted the call
    obtain ⟨c, hc, hcase⟩ := step_refs cfg hs a hc' hp
    rw [step_provider cfg hs.kept.live a hc hc']
    rcases hcase with hold | ⟨now, clock_now, rfl⟩
    · exact h.dialed k c pcid hc hold
    · exact ha c hc

/-! ### Scenarios -/

namespace Scenario.State

/-- A call has been taken by a provider. -/
def Started (s : State) (provider pcid : String) : Prop :=
  ∃ t l, s.lifecycles.get? t = some l ∧ l.provider = provider ∧ l.pcid = pcid

/-- What the mocks have done so far. -/
def telephony (s : State) : Telephony where
  started := s.Started
  emitted provider pcid em := (pcid, em) ∈ (s.mocks provider).buffer.emissions

/-- The workers and the world agree. -/
structure Genuine (s : State) : Prop where
  scripted : s.Scripted
  accounted : s.sys.Accounted
  routed : s.sys.Routed
  heard : s.sys.Heard s.telephony
  answered : ∀ k pcid, s.answers k = some (some pcid) →
    ∃ c, s.sys.db.calls.get? k = some c ∧ s.Started c.provider pcid

/-- Nothing has been placed, and nothing was heard. -/
theorem genuine_init : init.Genuine where
  scripted := scripted_init
  accounted := accounted_init
  routed := routed_init
  heard := ⟨fun _ _ h => (by cases h), fun _ _ _ h => by cases h⟩
  answered _ _ h := by cases h

section

variable {s : State}

/-- A mock forgets nothing that it has emitted. -/
theorem mem_emissions_onBuffer {provider other : String} {x : String × Emission}
    (a : MockProvider.Act) (h : x ∈ (s.mocks other).buffer.emissions) :
    x ∈ ((s.onBuffer provider a).mocks other).buffer.emissions := by
  -- only `_emit` adds to the emissions, at their end
  have hstep : ∀ m : MockProvider, x ∈ m.emissions → x ∈ (m.step a).emissions := by
    intro m hm
    cases a with
    | resume q reorder =>
      rw [MockProvider.step, MockProvider.emissions_resume]
      exact hm
    | flush q =>
      rw [MockProvider.step]
      split <;> exact hm
    | emit q e =>
      rw [MockProvider.step]
      split
      · exact List.mem_append_left _ hm
      · exact hm
  rw [onBuffer_buffer]
  split
  · rename_i heq
    subst heq
    exact hstep _ h
  · exact h

/-- What has been emitted stays emitted, and what has been started stays started. -/
theorem outside_mono (a : Act) :
    (∀ provider pcid, s.Started provider pcid → (s.outside a).Started provider pcid) ∧
      ∀ provider pcid em, (pcid, em) ∈ (s.mocks provider).buffer.emissions →
        (pcid, em) ∈ ((s.outside a).mocks provider).buffer.emissions := by
  cases a with
  | hire | loop | settle | logout => exact ⟨fun _ _ h => h, fun _ _ _ h => h⟩
  | turn reaps =>
    obtain ⟨phase, hs, _⟩ := s.turn_cases reaps
    rw [outside, hs]
    exact ⟨fun _ _ h => h, fun _ _ _ h => h⟩
  | place clock_now call_id timeout hard_fail pcid =>
    rw [outside]
    rcases s.place_cases clock_now call_id timeout hard_fail pcid with hs |
      ⟨att, _, _, _, hs | hs⟩ <;> rw [hs]
    · exact ⟨fun _ _ h => h, fun _ _ _ h => h⟩
    · exact ⟨fun _ _ h => h, fun _ _ _ h => h⟩
    · refine ⟨?_, fun _ _ _ h => h⟩
      rintro provider q ⟨t, l, hget, hp⟩
      refine ⟨t, l, ?_, hp⟩
      -- an accepted call starts a lifecycle beside the others
      show (Table.push _ _).get? t = some l
      rw [Table.get?_push, if_neg (Table.ne_nextId hget), hget]
  | outage clock_now dur provider =>
    refine ⟨fun _ _ h => h, fun other pcid em h => ?_⟩
    show _ ∈ MockProvider.emissions (Mock.buffer (Function.update s.mocks provider _ other))
    by_cases hp : other = provider
    · subst hp
      rwa [Function.update_self]
    · rwa [Function.update_of_ne hp]
  | select injector campaign_id count ids =>
    rcases s.select_cases injector campaign_id count ids with hs | ⟨_, hs⟩ <;> rw [hs] <;>
      exact ⟨fun _ _ h => h, fun _ _ _ h => h⟩
  | advance task answered event_id clock_now dup =>
    rw [outside]
    rcases s.advance_cases task answered event_id clock_now dup with hs |
      ⟨l, raw, stage, a, _, _, _, _, hs⟩ <;> rw [hs]
    · exact ⟨fun _ _ h => h, fun _ _ _ h => h⟩
    · refine ⟨?_, fun _ _ _ h => mem_emissions_onBuffer a h⟩
      rintro provider pcid ⟨t, l, hget, hp, hq⟩
      -- a lifecycle that goes on keeps its provider and its id
      obtain ⟨l', hget', hsame⟩ := Table.exists_get?_modify
        (p := fun i _ => i == task) (f := fun l : Lifecycle => { l with stage := stage })
        (g := fun l => (l.provider, l.pcid)) (fun _ => rfl) t l hget
      obtain ⟨hp', hq'⟩ := Prod.mk.inj hsame
      exact ⟨t, l', hget', hp'.trans hp, hq'.trans hq⟩
  | resume now provider pcid reorder =>
    exact ⟨fun _ _ h => h, fun _ _ _ h => mem_emissions_onBuffer _ h⟩

/-- A provider has answered before, or it has just been called and has started a lifecycle. -/
theorem outside_answers (a : Act) {k : ℕ} {pcid : String}
    (h : (s.outside a).answers k = some (some pcid)) : s.answers k = some (some pcid) ∨
      ∃ att, s.sys.attempts.get? k = some att ∧ ¬ s.Started att.reservation.provider pcid ∧
        (s.outside a).Started att.reservation.provider pcid := by
  cases a with
  | place clock_now call_id timeout hard_fail q =>
    rw [outside] at h ⊢
    rcases s.place_cases clock_now call_id timeout hard_fail q with hs |
      ⟨att, hatt, _, hfresh, hs | hs⟩ <;> rw [hs] at h ⊢
    · exact Or.inl h
    · change Function.update s.answers call_id _ k = _ at h
      by_cases hk : k = call_id
      · rw [hk, Function.update_self] at h
        cases h
      · rw [Function.update_of_ne hk] at h
        exact Or.inl h
    · change Function.update s.answers call_id _ k = _ at h
      by_cases hk : k = call_id
      · rw [hk, Function.update_self, Option.some.injEq, Option.some.injEq] at h
        -- the answer and the lifecycle are made together, under an id that was free
        refine Or.inr ⟨att, hk ▸ hatt, ?_, s.lifecycles.nextId, ⟨_, q, .placed⟩, ?_, rfl, h⟩
        · rintro ⟨t, l, hget, hp, hq⟩
          exact hfresh t l hget (by rw [hp, hq, h])
        · show (Table.push _ _).get? _ = _
          rw [Table.get?_push, if_pos rfl]
      · rw [Function.update_of_ne hk] at h
        exact Or.inl h
  | advance task answered event_id clock_now dup =>
    rw [outside] at h
    rcases s.advance_cases task answered event_id clock_now dup with hs |
      ⟨_, _, _, _, _, _, _, _, hs⟩ <;> rw [hs] at h <;> exact Or.inl h
  | select injector campaign_id count ids =>
    rcases s.select_cases injector campaign_id count ids with hs | ⟨_, hs⟩ <;> rw [hs] at h <;>
      exact Or.inl h
  | turn reaps =>
    obtain ⟨phase, hs, _⟩ := s.turn_cases reaps
    rw [outside, hs] at h
    exact Or.inl h
  | hire | loop | settle | outage | logout | resume => exact Or.inl h

/-- What a scenario does to the database is what its parties tell. -/
theorem Genuine.tells (cfg : Settings) (h : s.Genuine) (a : Act) :
    Along (SmartDialer.step cfg) (Sys.Tells s.telephony) s.sys (s.writes a) := by
  cases a with
  | hire => exact ⟨trivial, trivial, trivial⟩
  | loop a =>
    rw [writes]
    split
    · rename_i hruns
      refine ⟨?_, trivial⟩
      cases a with
      -- the loop neither delivers events nor answers its own requests
      | ingest | accepted => cases hp : s.phase <;> rw [hp] at hruns <;> cases hruns
      | _ => exact trivial
    · trivial
  | place clock_now call_id timeout hard_fail pcid =>
    rw [writes]
    split
    · exact ⟨trivial, trivial⟩
    · trivial
  | settle now clock_now call_id =>
    rw [writes]
    split
    · rename_i pcid hanswer
      refine ⟨fun c hc => ?_, trivial⟩
      obtain ⟨c', hc', hstarted⟩ := h.answered call_id pcid hanswer
      rw [hc, Option.some.injEq] at hc'
      rwa [hc']
    · exact ⟨trivial, trivial⟩
    · trivial
  | logout now injector =>
    refine Along.mono (fun _ _ hl => ?_) (along_of_forall
      (P := fun a => ∃ i, a = SmartDialer.Act.logout now i) s.sys fun a ha => ?_)
    · obtain ⟨i, rfl⟩ := hl
      trivial
    · obtain ⟨i, _, rfl⟩ := List.mem_map.mp ha
      exact ⟨i, rfl⟩
  | turn | outage | select | advance => trivial
  | resume now provider pcid reorder =>
    rw [writes]
    split
    · rename_i ev hsending
      refine ⟨?_, trivial⟩
      -- what is sent was emitted: the buffer makes up no event
      have hmem : ev ∈ ((s.mocks provider).buffer.tasks pcid).sending := List.mem_of_head? hsending
      obtain ⟨em, hem, rfl⟩ := (h.scripted.delivering provider pcid).emitted
        (List.mem_append_right _ hmem)
      exact ⟨pcid, em, rfl, hem, rfl, rfl⟩
    · trivial

/-- Whatever its parties do, a call of the scenario stays, and with its provider. -/
theorem Genuine.keeps_provider (cfg : Settings) (h : s.Genuine) (a : Act) {k : ℕ} {c : CallRow}
    (hc : s.sys.db.calls.get? k = some c) :
    ∃ c', (step cfg s a).sys.db.calls.get? k = some c' ∧ c'.provider = c.provider :=
  related_run (I := Sys.Live) (R := fun x y : Sys => ∀ k c, x.db.calls.get? k = some c →
      ∃ c', y.db.calls.get? k = some c' ∧ c'.provider = c.provider)
    (fun _ _ c hc => ⟨c, hc, rfl⟩)
    (fun _ _ _ hxy hyz k c hc => by
      obtain ⟨c', hc', hp⟩ := hxy k c hc
      obtain ⟨c'', hc'', hp'⟩ := hyz k c' hc'
      exact ⟨c'', hc'', hp'.trans hp⟩)
    (fun _ a hs => live_step cfg hs a) (fun _ a hs k c hc => step_keeps_provider cfg hs a hc)
    h.accounted.kept.live (s.writes a) k c hc

/-- **Step.** -/
theorem genuine_step (cfg : Settings) (h : s.Genuine) (a : Act) : (step cfg s a).Genuine := by
  obtain ⟨hstarted, hemitted⟩ := outside_mono (s := s) a
  -- the requests of the action are told from the world before it, which has only gained since
  have hall := invariant_along (I := fun sys : Sys => sys.Accounted ∧ sys.Routed ∧
      sys.Heard s.telephony)
    (fun sys a hs ha => ⟨accounted_step cfg hs.1 a, routed_step cfg hs.1.kept.live hs.2.1 a,
      heard_step cfg hs.2.2 hs.1 ha⟩)
    ⟨h.accounted, h.routed, h.heard⟩ (h.tells cfg a)
  refine ⟨scripted_step cfg h.scripted a, hall.1, hall.2.1, hall.2.2.mono hstarted hemitted, ?_⟩
  intro k pcid hanswer
  rcases outside_answers a hanswer with hold | ⟨att, hatt, _, hs⟩
  · obtain ⟨c, hc, hs⟩ := h.answered k pcid hold
    obtain ⟨c', hc', hp⟩ := h.keeps_provider cfg a hc
    exact ⟨c', hc', hp ▸ hstarted _ _ hs⟩
  · obtain ⟨c, hc, hp⟩ := h.routed k att hatt
    obtain ⟨c', hc', hp'⟩ := h.keeps_provider cfg a hc
    exact ⟨c', hc', (hp'.trans hp).symm ▸ hs⟩

end

/-- **Run.** Workers and world agree in every state of every scenario. -/
theorem genuine_run (cfg : Settings) (acts : List Act) : (run (step cfg) init acts).Genuine :=
  invariant_run (I := Genuine) (fun _ a h => genuine_step cfg h a) genuine_init acts

end Scenario.State

/-! ### Calls -/

/-- What a call tells of a lifecycle at this stage.  It rang, was answered or completed only if the
    phone did.  It failed only if the phone did, unless the dialer itself has failed it and says so
    (`"PROVIDER_REJECTED"`, `"LEASE_EXPIRED_NO_EVENTS"`), which it also does to calls that are
    answered in the meantime.  It was abandoned only if the phone was answered, and it was cancelled
    only by a pullback at a time when the database knew of no answer. -/
structure CallRow.Genuine (c : CallRow) (stage : Stage) : Prop where
  rang : c.ringing_at.isSome = true → stage ≠ .placed
  answered : c.answered_at.isSome = true → stage.answered = some true
  completed : c.state = .COMPLETED → stage = .completed ∨ stage = .returned true
  /-- With a reason the dialer itself has failed the call, whatever the phone does. -/
  failed : c.state = .FAILED → c.failure_reason = none → stage.answered = some false
  abandoned : c.state = .ABANDONED → stage.answered = some true ∧ c.connected_at = none
  /-- Nothing is said of the phone here: an answer may be on its way to the ledger. -/
  cancelled : c.state = .CANCELLED → c.failure_reason = some "SAFETY_PULLBACK" ∧
    c.answered_at = none

/-- What the events of a script report. -/
private theorem incoming_of_script {stage : Stage} {raw : String} (h : raw ∈ stage.script)
    {e : EventRow} (he : e.event_type = mapProviderEvent raw) :
    e.incoming = some .RINGING ∧ stage ≠ .placed ∨
      e.incoming = some .ANSWERED ∧ stage.answered = some true ∨
      e.incoming = some .FAILED ∧ stage.answered = some false ∨
      e.incoming = some .COMPLETED ∧ (stage = .completed ∨ stage = .returned true) := by
  have hstage : stage ≠ .placed := by rintro rfl; cases h
  unfold EventRow.incoming
  rw [he]
  rcases Stage.of_script h with rfl | ⟨rfl, ha⟩ | ⟨rfl, ha⟩ | ⟨rfl, hc⟩
  · exact Or.inl ⟨by decide, hstage⟩
  · exact Or.inr (Or.inl ⟨by decide, ha⟩)
  · exact Or.inr (Or.inr (Or.inl ⟨by decide, ha⟩))
  · exact Or.inr (Or.inr (Or.inr ⟨by decide, hc⟩))

/-- What is reported of a call is in the script of its lifecycle. -/
theorem Scenario.State.Genuine.reported {s : Scenario.State} (h : s.Genuine) {k : ℕ} {c : CallRow}
    (hc : s.sys.db.calls.get? k = some c) {l : Lifecycle} {t : ℕ}
    (hl : s.lifecycles.get? t = some l) (hp : l.provider = c.provider)
    (hq : c.provider_call_id = some l.pcid) {r : CallState} (hr : s.sys.db.view.Reported k r) :
    r = .RINGING ∧ l.stage ≠ .placed ∨ r = .ANSWERED ∧ l.stage.answered = some true ∨
      r = .FAILED ∧ l.stage.answered = some false ∨
      r = .COMPLETED ∧ (l.stage = .completed ∨ l.stage = .returned true) := by
  obtain ⟨i, e, he, heff, hk, hin⟩ := hr
  -- the event refers to the call, and so it comes from this lifecycle
  obtain ⟨_, c', hc', hof, _⟩ := (h.accounted.accounted.marked i e he).named hk
  obtain rfl := Option.some.inj (hc.symm.trans hc')
  obtain ⟨pcid, em, href, hem, _, htype⟩ := h.heard.ledger i e he
  have hpcid : pcid = l.pcid := by
    rw [← hof.2.2, hq, Option.some.injEq] at href
    exact href.symm
  have hscript : em.raw_event_type ∈ l.stage.script := by
    rw [← (h.scripted.script t l hl).1, ← hpcid, hp, hof.2.1]
    exact MockProvider.mem_raws hem
  have hcases := incoming_of_script hscript htype
  rw [hin] at hcases
  simpa only [Option.some.injEq] using hcases

/-- A call with its lifecycle. -/
theorem Scenario.State.Genuine.call {s : Scenario.State} (h : s.Genuine) {k : ℕ} {c : CallRow}
    (hc : s.sys.db.calls.get? k = some c) {l : Lifecycle} {t : ℕ}
    (hl : s.lifecycles.get? t = some l) (hp : l.provider = c.provider)
    (hq : c.provider_call_id = some l.pcid) : c.Genuine l.stage := by
  have hsrc := h.accounted.accounted.sourced k c hc
  have hrep := fun {r} => h.reported hc hl hp hq (r := r)
  -- no event reports that a call is cancelled or abandoned
  have hnever : ∀ r, s.sys.db.view.Reported k r → r ≠ .CANCELLED ∧ r ≠ .ABANDONED := by
    intro r hr
    rcases hrep hr with ⟨rfl, _⟩ | ⟨rfl, _⟩ | ⟨rfl, _⟩ | ⟨rfl, _⟩ <;> decide
  have hanswered : s.sys.db.view.Reported k .ANSWERED → l.stage.answered = some true := by
    intro hr
    rcases hrep hr with ⟨heq, _⟩ | ⟨_, hst⟩ | ⟨heq, _⟩ | ⟨heq, _⟩
    · cases heq
    · exact hst
    · cases heq
    · cases heq
  refine ⟨fun hr => ?_, fun ha => hanswered (hsrc.answered ha).2, fun hs => ?_,
    fun hs hreason => ?_, fun hs => ?_, fun hs => ?_⟩
  · rcases hrep (hsrc.rang hr).2 with ⟨_, hst⟩ | ⟨heq, _⟩ | ⟨heq, _⟩ | ⟨heq, _⟩
    · exact hst
    · cases heq
    · cases heq
    · cases heq
  · cases hsrc.ended (by rw [hs]; rfl) with
    | reported hr hP =>
      rw [hs] at hP
      rcases hrep hP with ⟨heq, _⟩ | ⟨heq, _⟩ | ⟨heq, _⟩ | ⟨_, hst⟩
      · cases heq
      · cases heq
      · cases heq
      · exact hst
    | rejected hs' | expired hs' | pulledBack hs' | unbridged hs' => rw [hs] at hs'; cases hs'
  · cases hsrc.ended (by rw [hs]; rfl) with
    | reported hr hP =>
      rw [hs] at hP
      rcases hrep hP with ⟨heq, _⟩ | ⟨heq, _⟩ | ⟨_, hst⟩ | ⟨heq, _⟩
      · cases heq
      · cases heq
      · exact hst
      · cases heq
    | rejected _ hr | expired _ hr => rw [hreason] at hr; cases hr
    | pulledBack hs' | unbridged hs' => rw [hs] at hs'; cases hs'
  · cases hsrc.ended (by rw [hs]; rfl) with
    | unbridged _ _ hn hP => exact ⟨hanswered hP, hn⟩
    | reported hr hP => exact absurd hs (hnever _ hP).2
    | rejected hs' | expired hs' | pulledBack hs' => rw [hs] at hs'; cases hs'
  · cases hsrc.ended (by rw [hs]; rfl) with
    | pulledBack _ hr hn => exact ⟨hr, hn⟩
    | reported hr hP => exact absurd hs (hnever _ hP).1
    | rejected hs' | expired hs' | unbridged hs' => rw [hs] at hs'; cases hs'

/-- **Simulated calls.** In every state that a scenario reaches, however its parties take turns and
    whatever is drawn, a call that a provider has accepted is the only one with its lifecycle, and
    it tells the truth about it, but for the failures that the dialer gives a reason of its own. -/
theorem simulated_calls_genuine (cfg : Settings) (acts : List Scenario.Act) :
    let s := run (Scenario.step cfg) Scenario.init acts
    ∀ k c pcid, s.sys.db.calls.get? k = some c → c.provider_call_id = some pcid →
      ∃ t l, s.lifecycles.get? t = some l ∧ l.provider = c.provider ∧ l.pcid = pcid ∧
        c.Genuine l.stage ∧
        ∀ k' c', s.sys.db.calls.get? k' = some c' → c'.provider = l.provider →
          c'.provider_call_id = some l.pcid → k' = k := by
  intro s k c pcid hc hq
  have h : s.Genuine := Scenario.State.genuine_run cfg acts
  obtain ⟨t, l, hl, hp, rfl⟩ := h.heard.dialed k c pcid hc hq
  refine ⟨t, l, hl, hp, rfl, h.call hc hl hp hq, fun k' c' hc' hp' hq' => ?_⟩
  exact s.sys.db.refUnique k' c' k c hc' hc (by rw [CallRow.refIndex, hq']; simp)
    (by rw [CallRow.refIndex, CallRow.refIndex, hq, hq', hp', hp])

end SmartDialer
