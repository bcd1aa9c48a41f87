import SmartDialer.Correctness.Conclusions
import SmartDialer.Correctness.Scenarios
import SmartDialer.Correctness.Simulated

namespace SmartDialer

open Relational

/-!
# Events of unknown calls

A drain that finds no call with the reference of an event leaves the event for a later drain, and
after a while gives it up.  In a scenario that is never too early: the loop drains when no
allocation is in flight, so a reference without a call is one that the dialer has dropped, and no
call gets it later.

* `Sys.Unmet` — no call has the reference, and no allocation is going to record it.
* `Sys.Unknown` — what the ledger and the drains hold as unknown has such a reference.
* `scenario_unknown_calls` — the result for scenarios.
-/

/-! ### References that no call gets -/

/-- An allocation was in flight before, or its call is new. -/
theorem step_attempts_or_new (cfg : Settings) {s : Sys} {a : Act} {k : ℕ} {att' : Attempt}
    (hatt' : (step cfg s a).attempts.get? k = some att') :
    (∃ att, s.attempts.get? k = some att ∧ att'.reservation = att.reservation ∧
      (att'.placed = true → att.placed = true ∨ a = .placeCall k)) ∨
      s.db.calls.get? k = none ∧ att'.placed = false := by
  by_cases ha : a.allocates = false
  · exact Or.inl (step_attempts cfg ha hatt')
  cases a with
  | reserveAndCreate now clock_now lockedAgents lockedBorrowers pick worker campaign_id =>
    rw [step, Sys.allocate] at hatt'
    rcases Txn.commit_cases (SmartDialer.reserveAndCreate now lockedAgents lockedBorrowers pick
      worker campaign_id (reserveUntil clock_now cfg)) s.db with ⟨o, hrun, hres⟩ | ⟨_, hres⟩
    · rw [hres] at hatt'
      have hcases := reserveAndCreate_cases hrun
      cases o with
      | none => exact Or.inl ⟨att', hatt', rfl, Or.inl⟩
      | some r =>
        rcases Table.cases_of_get?_insertAt hatt' with hold | ⟨rfl, rfl, _⟩
        · exact Or.inl ⟨att', hold, rfl, Or.inl⟩
        · right
          -- a transaction that hands out a reservation has inserted the call's row itself
          generalize Db.view _ = v at hcases
          cases hcases
          exact ⟨Table.get?_nextId _, rfl⟩
    · rw [hres] at hatt'
      exact Or.inl ⟨att', hatt', rfl, Or.inl⟩
  | _ => exact absurd rfl ha

/-- No call has the reference, and no allocation in flight is going to record it, if these are the
    answers of the providers. -/
structure Sys.Unmet (answers : ℕ → Option (Option String)) (provider pcid : String) (s : Sys) :
    Prop where
  calls : ∀ k c, s.db.calls.get? k = some c → c.provider = provider →
    c.provider_call_id ≠ some pcid
  attempts : ∀ k att, s.attempts.get? k = some att → att.reservation.provider = provider →
    answers k ≠ some (some pcid)

/-- The providers have answered for calls that exist. -/
def Sys.Answered (answers : ℕ → Option (Option String)) (s : Sys) : Prop :=
  ∀ k pcid, answers k = some (some pcid) → ∃ c, s.db.calls.get? k = some c

/-- What is recorded of an acceptance is what the provider has answered. -/
def Act.Records (answers : ℕ → Option (Option String)) : Act → Prop
  | .accepted _ _ call_id pcid => answers call_id = some (some pcid)
  | _ => True

/-- **Step.** An answer stays tied to the call of its allocation. -/
theorem answered_step (cfg : Settings) {s : Sys} {answers : ℕ → Option (Option String)}
    (hl : s.Live) (h : s.Answered answers) (a : Act) : (step cfg s a).Answered answers := by
  intro k pcid hanswer
  obtain ⟨c, hc⟩ := h k pcid hanswer
  obtain ⟨c', hc', _⟩ := step_keeps_provider cfg hl a hc
  exact ⟨c', hc'⟩

/-- **Step.** -/
theorem unmet_step (cfg : Settings) {s : Sys} {answers : ℕ → Option (Option String)}
    {provider pcid : String} (hacc : s.Accounted) (hr : s.Routed) (hans : s.Answered answers)
    (h : s.Unmet answers provider pcid) {a : Act} (ha : a.Records answers) :
    (step cfg s a).Unmet answers provider pcid where
  calls k c' hc' hp href := by
    obtain ⟨c, hc, hcase⟩ := step_refs cfg hacc a hc' href
    have hprovider := step_provider cfg hacc.kept.live a hc hc'
    rcases hcase with hold | ⟨now, clock_now, rfl⟩
    · exact h.calls k c hc (hprovider.symm.trans hp) hold
    · -- only an allocation in flight records its acceptance
      rcases s.settle_cases k fun a =>
          recordInitiated now a.reservation pcid a.worker (dialUntil clock_now cfg) with
        ⟨att, hatt, _⟩ | hs
      · obtain ⟨d, hd, hrouted⟩ := hr k att hatt
        obtain rfl := Option.some.inj (hc.symm.trans hd)
        exact h.attempts k att hatt (hrouted.symm.trans (hprovider.symm.trans hp)) ha
      · rw [step, hs] at hc'
        exact h.calls k c' hc' hp href
  attempts k att' hatt' hp := by
    rcases step_attempts_or_new cfg hatt' with ⟨att, hatt, hres, _⟩ | ⟨hnew, _⟩
    · exact h.attempts k att hatt (hres ▸ hp)
    · intro hanswer
      obtain ⟨c, hc⟩ := hans k pcid hanswer
      rw [hnew] at hc
      cases hc

/-! ### Events of unknown calls -/

/-- The reference of the event is one of these. -/
def EventRow.RefersTo (U : String → String → Prop) (e : EventRow) : Prop :=
  ∃ pcid, e.provider_call_id = some pcid ∧ U e.provider pcid

/-- Marks do not change what an event refers to. -/
theorem EventRow.RefersTo.of_unmarked {U : String → String → Prop} {e e' : EventRow}
    (h : e.RefersTo U) (hsame : e'.unmarked = e.unmarked) : e'.RefersTo U := by
  obtain ⟨hprovider, _, href, _⟩ := EventRow.mk.inj hsame
  obtain ⟨pcid, hp, hU⟩ := h
  refine ⟨pcid, href.trans hp, ?_⟩
  rw [show e'.provider = e.provider from hprovider]
  exact hU

/-- What is held as unknown has one of these references. -/
structure Sys.Unknown (U : String → String → Prop) (s : Sys) : Prop where
  rows : ∀ i e, s.db.provider_events.get? i = some e → e.anomaly = some .UNKNOWN_CALL →
    e.RefersTo U
  plans : ∀ w d p, s.drains.get? w = some d → p ∈ d.plan → p.read = .unknown →
    p.event.2.RefersTo U

/-- Nothing is held as unknown. -/
theorem unknown_init (U : String → String → Prop) : Sys.init.Unknown U :=
  ⟨fun _ _ h => (by cases h), fun _ _ _ h => by cases h⟩

/-- What is held as unknown stays accounted for when more references are allowed. -/
theorem Sys.Unknown.mono {U V : String → String → Prop} {s : Sys} (h : s.Unknown U)
    (hUV : ∀ provider pcid, U provider pcid → V provider pcid) : s.Unknown V where
  rows i e he hx := (h.rows i e he hx).imp fun _ hU => ⟨hU.1, hUV _ _ hU.2⟩
  plans w d p hw hp hx := (h.plans w d p hw hp hx).imp fun _ hU => ⟨hU.1, hUV _ _ hU.2⟩

/-- If the next event of a drain is about no call, its reference is one of these. -/
def Sys.Misses (U : String → String → Prop) (s : Sys) : Act → Prop
  | .read _ w => ∀ now ev todo plan, s.drains.get? w = some ⟨now, ev :: todo, plan⟩ →
      (∀ k c, s.db.calls.get? k = some c → ¬ ev.2.IsOf c) → ev.2.RefersTo U
  | _ => True

/-- A drain finds an event unknown if no call has its reference. -/
theorem read_unknown {cfg : Settings} {now : Time} {plan : List Planned} {db : Db} {ev : EventRow}
    (hh : db.view.Healthy) (hp : ∀ p ∈ plan, p.Valid db.view)
    (h : (applyOneRead ev).result ((applyPlan cfg now plan).commit db) = some .unknown) {k : ℕ}
    {c : CallRow} (hc : db.calls.get? k = some c) : ¬ ev.IsOf c := by
  rintro ⟨hnamed, hprovider, href⟩
  obtain ⟨moved, db₁, hrun⟩ := applyPlan_total cfg now hh hp
  have hrel := related_applyPlan (R := View.Wrote) (fun v => .refl v) (fun _ _ _ => .trans)
    (fun _ _ _ _ hh hv ha => ha.wrote hh hv) hh hp hrun
  obtain ⟨hwrote, _, hevolves⟩ := hrel
  rw [(Txn.commit_of_run hrun).1] at h
  -- the call has the reference after the plan as well, and so the read finds it
  obtain ⟨c', hc', hwrites⟩ := hwrote.kept k c hc
  obtain ⟨c'', hc'', hevo⟩ := hevolves k c hc
  obtain rfl := Option.some.inj (hc'.symm.trans hc'')
  have href' : c'.provider_call_id = ev.provider_call_id :=
    (hevo.ref (by rw [href]; exact hnamed)).trans href
  obtain ⟨pcid, hpcid⟩ := Option.isSome_iff_exists.mp hnamed
  have hfound := CallRepo.getByProviderRef_found hc' (href'.trans hpcid)
  unfold applyOneRead Txn.result at h
  rw [hpcid, ← hprovider, ← hwrites.provider, Txn.run_bind_of_ok hfound] at h
  cases hof : CallState.ofString? (mapProviderEvent ev.event_type) with
  | none => simp only [hof] at h; cases h
  | some incoming =>
    simp only [hof] at h
    cases hcan : (canApply c'.state incoming).1 <;> simp only [hcan] at h <;> cases h

/-- **Step.** -/
theorem unknown_step (cfg : Settings) {U : String → String → Prop} {s : Sys} (hacc : s.Accounted)
    (h : s.Unknown U) {a : Act} (ha : s.Misses U a) : (step cfg s a).Unknown U := by
  -- a plan grows by one read at a time, and what that read found is the hypothesis
  have hplans : ∀ w d' p, (step cfg s a).drains.get? w = some d' → p ∈ d'.plan →
      p.read = .unknown → p.event.2.RefersTo U := by
    intro w d' p hw hp hread
    rcases step_drain cfg hw with hold | ⟨_, _, _, _, rfl, _⟩ |
      ⟨clock_now, now, ev, todo, plan, r, rfl, hd, hr, rfl⟩
    · exact h.plans w d' p hold hp hread
    · cases hp
    · rcases List.mem_append.mp hp with hp | hp
      · exact h.plans w _ p hd hp hread
      · obtain rfl := List.mem_singleton.mp hp
        change r = .unknown at hread
        subst hread
        exact ha now ev todo plan hd fun k c hc =>
          read_unknown hacc.kept.live.healthy (hacc.kept.live.planned w _ hd) hr hc
  refine ⟨fun i e' he' hx => ?_, hplans⟩
  -- only a commit tags rows; every other step keeps them or records a new, untagged one
  by_cases hno : ∀ w, a ≠ .commit w
  · rcases (step_acted cfg hacc.kept hno).events with he | ⟨_, _, _, _, _, _, _, _, he⟩
    · rw [Db.view_provider_events, Db.view_provider_events] at he
      exact h.rows i e' (he ▸ he') hx
    · rw [Db.view_provider_events, Db.view_provider_events] at he
      rw [he] at he'
      rcases Table.cases_of_get?_push he' with ⟨_, rfl⟩ | hold
      · cases hx
      · exact h.rows i e' hold hx
  · push Not at hno
    obtain ⟨w, rfl⟩ := hno
    rcases s.commit_cases cfg w with ⟨now, plan, hw, _, hs⟩ | hs
    · rw [step, hs] at he'
      rcases Txn.commit_cases (commitDrain cfg ⟨now, [], plan⟩) s.db with ⟨moved, hrun, _⟩ | ⟨hc, _⟩
      · obtain ⟨db₁, hplan, hview⟩ := commitDrain_run hrun
        have hready := hacc.ready hw
        obtain ⟨e, he, hmarks⟩ := commitDrain_marks (fun p hp _ _ => (hready p hp).cites.known)
          hplan hview he'
        -- the tag is the row's own from before, or comes from a read of this plan
        rcases hmarks.unknown hx with hold | ⟨p, hp, hi, hread⟩
        · exact (h.rows i e he hold).of_unmarked hmarks.unmarked
        · obtain ⟨e₀, he₀, _, hsame⟩ := (hready p hp).row
          rw [hi, Db.view_provider_events, he, Option.some.injEq] at he₀
          exact (h.plans w _ p hw hp hread).of_unmarked (hmarks.unmarked.trans (he₀ ▸ hsame))
      · simp only [hc] at he'
        exact h.rows i e' he' hx
    · rw [step, hs] at he'
      exact h.rows i e' he' hx

/-! ### Scenarios -/

namespace Scenario.State

/-- A lifecycle has started under the reference, but no call gets it. -/
def Unmet (s : State) (provider pcid : String) : Prop :=
  s.Started provider pcid ∧ s.sys.Unmet s.answers provider pcid

section

variable {s : State}

/-- An acceptance is recorded as the provider has answered. -/
theorem records_of_mem_writes {a : Act} {b : SmartDialer.Act} (hb : b ∈ s.writes a) :
    b.Records s.answers := by
  cases issues_of_mem_writes hb with
  | accepted hanswer now clock_now => exact hanswer
  | loop hruns =>
    cases b with
    | accepted => cases hp : s.phase <;> rw [hp] at hruns <;> cases hruns
    | _ => trivial
  | create | login | placed | rejected | logout | deliver => trivial

/-- **Step, references.** -/
theorem Genuine.unmet (cfg : Settings) (h : s.Genuine) {provider pcid : String}
    (hu : s.Unmet provider pcid) (a : Act) : (step cfg s a).Unmet provider pcid := by
  have hall := invariant_along (I := fun sys : Sys => sys.Accounted ∧ sys.Routed ∧
      sys.Heard s.telephony ∧ sys.Answered s.answers ∧ sys.Unmet s.answers provider pcid)
    (fun sys b hs hb => ⟨accounted_step cfg hs.1 b, routed_step cfg hs.1.kept.live hs.2.1 b,
      heard_step cfg hs.2.2.1 hs.1 hb.1, answered_step cfg hs.1.kept.live hs.2.2.2.1 b,
      unmet_step cfg hs.1 hs.2.1 hs.2.2.2.1 hs.2.2.2.2 hb.2⟩)
    ⟨h.accounted, h.routed, h.heard, fun k q hq => (h.answered k q hq).imp fun _ hc => hc.1, hu.2⟩
    ((h.tells cfg a).and (along_of_forall s.sys fun _ hb => records_of_mem_writes hb))
  obtain ⟨_, hrouted, _, _, hunmet⟩ := hall
  refine ⟨(outside_mono a).1 _ _ hu.1, hunmet.calls, fun k att' hatt' hp hanswer => ?_⟩
  rcases outside_answers a hanswer with hold | ⟨att, hatt, hfresh, _⟩
  · exact hunmet.attempts k att' hatt' hp hold
  · -- a reference that is drawn is fresh
    obtain ⟨c, hc, hcp⟩ := h.routed k att hatt
    obtain ⟨c', hc', hsame⟩ := h.keeps_provider cfg a hc
    obtain ⟨d, hd, hdp⟩ := hrouted k att' hatt'
    obtain rfl := Option.some.inj (hc'.symm.trans hd)
    exact hfresh (hcp.symm.trans (hsame.symm.trans (hdp.trans hp)) ▸ hu.1)

/-- An event that a drain finds unknown belongs to no call at all: nobody is still to be called, and
    what was answered is recorded. -/
theorem Genuine.misses (h : s.Genuine) (ho : s.Ordered) {clock_now : Time} {w : ℕ}
    (hp : s.phase = .drain) : s.sys.Misses s.Unmet (.read clock_now w) := by
  intro now ev todo plan hd hnone
  obtain ⟨e, he, hsame⟩ := h.accounted.citing.held w _ hd ev (by simp [Drain.events])
  obtain ⟨pcid, em, href, hem, _⟩ := h.heard.ledger ev.1 e he
  -- the row was emitted by some lifecycle, whose reference no call holds yet
  obtain ⟨t, l, hl, hlp, hlq, _⟩ := h.scripted.of_raws (MockProvider.mem_raws hem)
  have hrefers : e.RefersTo s.Unmet := by
    refine ⟨pcid, href, ⟨t, l, hl, hlp, hlq⟩, fun k c hc hprovider hcall => ?_,
      fun k att hatt => ?_⟩
    · obtain ⟨hp', _, hr', _⟩ := EventRow.mk.inj hsame
      refine hnone k c hc ⟨?_, hprovider.trans hp', hcall.trans (href.symm.trans hr')⟩
      rw [← show e.provider_call_id = ev.2.provider_call_id from hr', href]
      rfl
    · -- in the drain phase no allocation is still to be answered
      have hempty := ho.attempts (by rw [hp]; decide)
      exact absurd hatt (Table.rows_eq_nil_iff.mp hempty k att)
  exact hrefers.of_unmarked hsame.symm

/-- **Step, marks.** -/
theorem Genuine.unknown_step (cfg : Settings) (h : s.Genuine) (ho : s.Ordered)
    (hu : s.sys.Unknown s.Unmet) (a : Act) :
    (step cfg s a).sys.Unknown (step cfg s a).Unmet := by
  have hmisses : Along (SmartDialer.step cfg) (Sys.Misses s.Unmet) s.sys (s.writes a) := by
    -- only a read needs an argument, and the loop reads in its drain phase only
    by_cases hread : ∃ clock_now w, a = .loop (.read clock_now w)
    · obtain ⟨clock_now, w, rfl⟩ := hread
      rw [writes]
      split
      · rename_i hruns
        refine ⟨h.misses ho ?_, trivial⟩
        cases hp : s.phase <;> rw [hp] at hruns <;> first | rfl | cases hruns
      · trivial
    · refine Along.mono (fun sys b hb => ?_) (along_of_forall
        (P := fun b => ∀ clock_now w, b ≠ .read clock_now w) s.sys fun b hb clock_now w heq => ?_)
      · cases b with
        | read clock_now w => exact absurd rfl (hb clock_now w)
        | _ => trivial
      · subst heq
        cases issues_of_mem_writes hb with
        | loop _ => exact hread ⟨clock_now, w, rfl⟩
  exact (invariant_along (I := fun sys : Sys => sys.Accounted ∧ sys.Unknown s.Unmet)
    (fun sys b hs hb => ⟨accounted_step cfg hs.1 b, SmartDialer.unknown_step cfg hs.1 hs.2 hb⟩)
    ⟨h.accounted, hu⟩ hmisses).2.mono fun _ _ hU => h.unmet cfg hU a

end

/-- All that is known of the marks in a scenario. -/
structure Settled (s : State) : Prop where
  genuine : s.Genuine
  ordered : s.Ordered
  unknown : s.sys.Unknown s.Unmet

/-- All of it holds before `setup_campaign`. -/
theorem settled_init : init.Settled := ⟨genuine_init, ordered_init, unknown_init _⟩

/-- **Step.** Each part is kept by what the others say. -/
theorem settled_step (cfg : Settings) {s : State} (h : s.Settled) (a : Act) :
    (step cfg s a).Settled :=
  ⟨genuine_step cfg h.genuine a, ordered_step cfg h.ordered a,
    h.genuine.unknown_step cfg h.ordered h.unknown a⟩

/-- A reference that no call gets is never got. -/
theorem Genuine.unmet_run (cfg : Settings) {s : State} (h : s.Genuine) {provider pcid : String}
    (hu : s.Unmet provider pcid) (acts : List Act) :
    (run (step cfg) s acts).Unmet provider pcid :=
  (invariant_run (I := fun s : State => s.Genuine ∧ s.Unmet provider pcid)
    (fun _ a h => ⟨genuine_step cfg h.1 a, h.1.unmet cfg h.2 a⟩) ⟨h, hu⟩ acts).2

end Scenario.State

/-- **Unknown calls.** In every scenario, whatever is drawn and injected, an event that the ledger
    marks as one of an unknown call has a reference, and no call has it then or at any later time.
    So what is given up could not have been applied. -/
theorem scenario_unknown_calls (cfg : Settings) (acts more : List Scenario.Act) :
    let s := (run (Scenario.step cfg) Scenario.init acts).sys
    let later := (run (Scenario.step cfg) Scenario.init (acts ++ more)).sys
    ∀ i e, s.db.provider_events.get? i = some e → e.anomaly = some .UNKNOWN_CALL →
      e.provider_call_id ≠ none ∧
      ∀ k c, later.db.calls.get? k = some c →
        ¬ (c.provider = e.provider ∧ c.provider_call_id = e.provider_call_id) := by
  intro s later i e he hx
  have h := invariant_run (I := Scenario.State.Settled)
    (fun _ a h => Scenario.State.settled_step cfg h a) Scenario.State.settled_init acts
  obtain ⟨pcid, href, hunmet⟩ := h.unknown.rows i e he hx
  rw [href]
  refine ⟨Option.some_ne_none _, fun k c hc hsame => ?_⟩
  -- a reference unmet now stays unmet in every continuation
  have hlater := (h.genuine.unmet_run cfg hunmet more).2.calls
  rw [← run_append] at hlater
  exact hlater k c hc hsame.1 hsame.2

end SmartDialer
