import SmartDialer.Correctness.Provenance

namespace SmartDialer

open Relational

/-!
# What is put on record

The reference of a call is recorded once, when its provider has accepted it, and an event is
recorded once, when it is delivered.  Whatever else happens, every call keeps the reference that it
has or has not, and the ledger its events.

* `step_refs` — a call has the reference that it had, or its acceptance has just been recorded.
* `step_events` — the ledger has the events that it had, or one more that has just been delivered.
* `step_attempts`, `step_drains` — what the workers hold.
* `Sys.Routed` — an allocation calls the provider that its call names.
-/

/-! ### References -/

/-- Every call has the reference that it had. -/
def View.SameRefs (v v' : View) : Prop :=
  ∀ k c', v'.calls.get? k = some c' → ∀ pcid, c'.provider_call_id = some pcid →
    ∃ c, v.calls.get? k = some c ∧ c.provider_call_id = some pcid

namespace View.SameRefs

/-- Unwritten calls have the references that they had. -/
theorem of_eq {v v' : View} (h : v'.calls = v.calls) : v.SameRefs v' :=
  fun _ c' hc' _ hp => ⟨c', h ▸ hc', hp⟩

/-- References are the same across any number of writes. -/
theorem trans {v₁ v₂ v₃ : View} (h₁ : v₁.SameRefs v₂) (h₂ : v₂.SameRefs v₃) : v₁.SameRefs v₃ := by
  intro k c'' hc'' pcid hp
  obtain ⟨c', hc', hp'⟩ := h₂ k c'' hc'' pcid hp
  exact h₁ k c' hc' pcid hp'

/-- A write that leaves the reference of a row alone. -/
theorem modify {v v' : View} {p : ℕ → CallRow → Bool} {f : CallRow → CallRow}
    (h : v'.calls = v.calls.modify p f)
    (hf : ∀ c, (f c).provider_call_id = c.provider_call_id) : v.SameRefs v' := by
  intro k c' hc' pcid hp
  rw [h] at hc'
  obtain ⟨c, hc, heq⟩ := Table.exists_of_get?_modify hc'
  refine ⟨c, hc, ?_⟩
  split at heq <;> rw [heq] at hp
  · exact (hf c).symm.trans hp
  · exact hp

/-- A write that leaves the reference of its row leaves all of them. -/
theorem alter {v v' : View} {k : ℕ} {c : CallRow} {f : CallRow → CallRow}
    (hc : v.calls.get? k = some c) (h : v'.calls = v.calls.alter k f)
    (hf : (f c).provider_call_id = c.provider_call_id) : v.SameRefs v' := by
  intro j c' hc' pcid hp
  rw [h] at hc'
  rcases Table.cases_of_get?_alter hc hc' with ⟨rfl, rfl⟩ | ⟨_, hold⟩
  · exact ⟨c, hc, hf.symm.trans hp⟩
  · exact ⟨c', hold, hp⟩

end View.SameRefs

/-- A call that an event refers to keeps its reference when the event is applied. -/
theorem Applied.sameRefs {now clock_now wrapup : Time} {p : Planned} {db : Db}
    {o : Option CallState} {v : View} (hp : p.Ready db.view)
    (h : Applied now p.event clock_now wrapup db p.read o v) : db.view.SameRefs v := by
  -- the event was matched by the call's own reference, so COALESCE writes what is there
  have hadvanced : ∀ {c : CallRow}, p.event.2.IsOf c → ∀ s,
      (CallRepo.advancedRow now s p.event.2.provider_call_id none none c).provider_call_id
        = c.provider_call_id := fun hof s => by
    show (_ : Option String).or _ = _
    rw [← hof.2.2, Option.or_self]
  generalize hread : p.read = read at h
  cases h with
  | unknown | raised | refused | lost => exact .of_eq rfl
  | @moved k incoming c _ hc _ =>
    have hof := hp.cites.cites_of_read hread hc
    refine .alter hc (f := CallRepo.advancedRow now incoming p.event.2.provider_call_id none none)
      ?_ (hadvanced hof incoming)
    rw [View.setEvent_calls, View.sideEffects_calls, View.setCall_calls]
  -- two statements on one row, of which the second passes no reference
  | @bridged k c answered next hc _ ha _ =>
    have hof := hp.cites.cites_of_read hread hc
    subst ha
    refine .alter hc (f := fun c => CallRepo.advancedRow now next none none none
      (CallRepo.advancedRow now .ANSWERED p.event.2.provider_call_id none none c)) ?_ ?_
    · rw [View.setEvent_calls, View.sideEffects_calls, View.setCall_calls, View.setCall_calls,
        Table.alter_alter]
    · show (CallRow.provider_call_id _).or none = _
      rw [Option.or_none, hadvanced hof]

/-- **References.** -/
theorem step_refs (cfg : Settings) {s : Sys} (h : s.Accounted) (a : Act) {k : ℕ} {c' : CallRow}
    {pcid : String} (hc' : (step cfg s a).db.calls.get? k = some c')
    (hp : c'.provider_call_id = some pcid) :
    ∃ c, s.db.calls.get? k = some c ∧ (c.provider_call_id = some pcid ∨
      ∃ now clock_now, a = .accepted now clock_now k pcid) := by
  have hsame : s.db.view.SameRefs (step cfg s a).db.view → ∃ c, s.db.calls.get? k = some c ∧
      (c.provider_call_id = some pcid ∨ ∃ now clock_now, a = .accepted now clock_now k pcid) := by
    intro hrefs
    obtain ⟨c, hc, hp⟩ := hrefs k c' hc' pcid hp
    exact ⟨c, hc, Or.inl hp⟩
  by_cases ha : ∀ w, a ≠ .commit w
  · have hcalls := (step_acted cfg h.kept ha).calls
    generalize hv : (step cfg s a).db.view.calls = calls at hcalls
    cases hcalls with
    | nothing => exact hsame (.of_eq hv)
    | created =>
      rw [Db.view_calls] at hv
      rw [hv] at hc'
      rcases Table.cases_of_get?_push hc' with ⟨_, rfl⟩ | hold
      · cases hp
      · exact ⟨c', hold, Or.inl hp⟩
    | @dialed j c now clock_now pcid' lease_until ha hc hs =>
      rw [Db.view_calls] at hv
      rw [hv] at hc'
      rcases Table.cases_of_get?_alter hc hc' with ⟨rfl, rfl⟩ | ⟨_, hold⟩
      · -- a reserved call has no reference yet
        have hnone : c.provider_call_id = none := by
          rw [← Option.not_isSome_iff_eq_none]
          exact fun hr => (h.kept.live.healthy.settled k c hc).dialed hr hs
        change c.provider_call_id.or (some pcid') = some pcid at hp
        rw [hnone, Option.none_or, Option.some.injEq] at hp
        exact ⟨c, hc, Or.inr ⟨now, clock_now, hp ▸ ha⟩⟩
      · exact ⟨c', hold, Or.inl hp⟩
    | rejected hc _ hn => exact hsame (.alter hc hv (by simp [CallRepo.advancedRow]))
    | pulledBack => exact hsame (.modify hv fun _ => rfl)
    | reaped => exact hsame (.modify hv fun _ => rfl)
  · push Not at ha
    obtain ⟨w, rfl⟩ := ha
    refine hsame ?_
    rcases s.commit_cases cfg w with ⟨now, plan, hw, _, hs⟩ | hs
    · rw [step, hs]
      show s.db.view.SameRefs (Db.view (Txn.commit _ _))
      rcases Txn.commit_cases (commitDrain cfg ⟨now, [], plan⟩) s.db with ⟨moved, hrun, _⟩ | ⟨hc, _⟩
      · obtain ⟨db₁, hplan, hview⟩ := commitDrain_run hrun
        have hnd : (plan.map (·.event.1)).Nodup := by
          simpa [Drain.locked] using h.ledger.nodup w _ hw
        have hrefs := (applyPlan_ready (R := View.SameRefs) (fun _ => .of_eq rfl)
          (fun _ _ _ => View.SameRefs.trans) (fun _ _ _ _ hp ha => ha.sameRefs hp) hnd h.accounted
          h.kept.live.healthy (h.ready hw) (h.citing.founded w _ hw) hplan).1
        refine hrefs.trans (.of_eq ?_)
        rw [hview]
      · rw [hc]
        exact .of_eq rfl
    · rw [step, hs]
      exact .of_eq rfl

/-! ### Events -/

/-- **Events.** -/
theorem step_events (cfg : Settings) {s : Sys} (h : s.Kept) (a : Act) :
    s.db.view.SameEvents (step cfg s a).db.view ∨
      ∃ now provider event_id call_ref etype ts payload,
        a = .ingest now provider event_id call_ref etype ts payload ∧
          (step cfg s a).db.provider_events = s.db.provider_events.push
            (EventRepo.ingestedRow now provider event_id call_ref etype ts payload) := by
  by_cases ha : ∀ w, a ≠ .commit w
  · rcases (step_acted cfg h ha).events with he | hnew
    · exact Or.inl (.of_eq he)
    · exact Or.inr hnew
  · push Not at ha
    obtain ⟨w, rfl⟩ := ha
    -- a commit only marks rows: what they report was fixed when they were inserted
    left
    rcases s.commit_cases cfg w with ⟨now, plan, hw, _, hs⟩ | hs
    · rw [step, hs]
      show s.db.view.SameEvents (Db.view (Txn.commit _ _))
      rcases Txn.commit_cases (commitDrain cfg ⟨now, [], plan⟩) s.db with ⟨moved, hrun, _⟩ | ⟨hc, _⟩
      · obtain ⟨db₁, hplan, hview⟩ := commitDrain_run hrun
        exact commitDrain_sameEvents h.live.healthy (h.live.planned w _ hw) hplan hview
      · rw [hc]
        exact .of_eq rfl
    · rw [step, hs]
      exact .of_eq rfl

/-! ### What the workers hold -/

/-- Does the action start an allocation? -/
def Act.allocates : Act → Bool
  | .reserveAndCreate .. => true
  | _ => false

/-- Does it open a drain? -/
def Act.fetches : Act → Bool
  | .fetch .. => true
  | _ => false

section

variable (cfg : Settings) {s : Sys} {a : Act}

/-- Allocations may be called and may end, and nothing else changes about them. -/
theorem step_attempts (ha : a.allocates = false) {k : ℕ} {att' : Attempt}
    (hatt' : (step cfg s a).attempts.get? k = some att') :
    ∃ att, s.attempts.get? k = some att ∧ att'.reservation = att.reservation ∧
      (att'.placed = true → att.placed = true ∨ a = .placeCall k) := by
  have hsame : s.attempts.get? k = some att' →
      ∃ att, s.attempts.get? k = some att ∧ att'.reservation = att.reservation ∧
        (att'.placed = true → att.placed = true ∨ a = .placeCall k) :=
    fun hatt => ⟨att', hatt, rfl, Or.inl⟩
  cases a with
  | reserveAndCreate => cases ha
  -- the one step that sets `placed`, and of its own attempt only
  | placeCall call_id =>
    rw [step, Sys.placeCall] at hatt'
    split at hatt'
    · split at hatt'
      · exact hsame hatt'
      · obtain ⟨att, hatt, heq⟩ := Table.exists_of_get?_modify hatt'
        refine ⟨att, hatt, ?_⟩
        split at heq
        · rename_i hk
          rw [beq_iff_eq.mp hk, heq]
          exact ⟨rfl, fun _ => Or.inr rfl⟩
        · rw [heq]
          exact ⟨rfl, Or.inl⟩
    · exact hsame hatt'
  | rejected now call_id =>
    rcases s.settle_cases call_id fun a => recordRejected now a.reservation with
      ⟨_, _, _, _, hattempts⟩ | hs
    · rw [step, hattempts] at hatt'
      exact hsame (Table.get?_of_get?_erase hatt').2
    · rw [step, hs] at hatt'
      exact hsame hatt'
  | accepted now clock_now call_id pcid =>
    rcases s.settle_cases call_id fun a =>
        recordInitiated now a.reservation pcid a.worker (dialUntil clock_now cfg) with
      ⟨_, _, _, _, hattempts⟩ | hs
    · rw [step, hattempts] at hatt'
      exact hsame (Table.get?_of_get?_erase hatt').2
    · rw [step, hs] at hatt'
      exact hsame hatt'
  | abandon call_id => exact hsame (Table.get?_of_get?_erase hatt').2
  | fetch now w limit =>
    obtain ⟨_, hs, _⟩ := s.fetch_cases now w limit
    rw [step, hs] at hatt'
    exact hsame hatt'
  | read clock_now w =>
    rw [step] at hatt'
    rcases s.read_cases cfg clock_now w with ⟨_, _, _, _, _, _, _, hs⟩ | hs <;> rw [hs] at hatt' <;>
      exact hsame hatt'
  | commit w =>
    rw [step] at hatt'
    rcases s.commit_cases cfg w with ⟨_, _, _, _, hs⟩ | hs <;> rw [hs] at hatt' <;>
      exact hsame hatt'
  | createAgent | login | logout | pause | seed | pullback | reap | ingest | rollback =>
    exact hsame hatt'

/-- Nothing but a fetch opens a drain. -/
theorem step_drains (ha : a.fetches = false) {w : ℕ} {d' : Drain}
    (hd' : (step cfg s a).drains.get? w = some d') : ∃ d, s.drains.get? w = some d := by
  rcases step_drain cfg hd' with hold | ⟨_, _, _, rfl, _⟩ | ⟨_, _, _, _, _, _, _, hd, _⟩
  · exact ⟨d', hold⟩
  · cases ha
  · exact ⟨_, hd⟩

end

/-! ### Providers -/

/-- A call stays, and with its provider. -/
theorem step_keeps_provider (cfg : Settings) {s : Sys} (hl : s.Live) (a : Act) {k : ℕ} {c : CallRow}
    (hc : s.db.calls.get? k = some c) :
    ∃ c', (step cfg s a).db.calls.get? k = some c' ∧ c'.provider = c.provider := by
  obtain ⟨c', hc', _⟩ := (step_progress cfg hl a hl.healthy).2 k c hc
  exact ⟨c', hc', step_provider cfg hl a hc hc'⟩

/-- An allocation in flight calls the provider that its call names. -/
def Sys.Routed (s : Sys) : Prop :=
  ∀ k att, s.attempts.get? k = some att →
    ∃ c, s.db.calls.get? k = some c ∧ c.provider = att.reservation.provider

/-- No allocation is in flight. -/
theorem routed_init : Sys.init.Routed := fun _ _ h => by cases h

/-- **Step.** An allocation and its call are created together, and neither changes its provider. -/
theorem routed_step (cfg : Settings) {s : Sys} (hl : s.Live) (h : s.Routed) (a : Act) :
    (step cfg s a).Routed := by
  intro k att' hatt'
  -- the call of an allocation stays and keeps its provider
  have hkeeps : ∀ att, s.attempts.get? k = some att → att'.reservation = att.reservation →
      ∃ c, (step cfg s a).db.calls.get? k = some c ∧ c.provider = att'.reservation.provider := by
    intro att hatt hres
    obtain ⟨c, hc, hprovider⟩ := h k att hatt
    obtain ⟨c', hc', hsame⟩ := step_keeps_provider cfg hl a hc
    exact ⟨c', hc', by rw [hsame, hprovider, hres]⟩
  by_cases ha : a.allocates = false
  · obtain ⟨att, hatt, hres, _⟩ := step_attempts cfg ha hatt'
    exact hkeeps att hatt hres
  cases a with
  | reserveAndCreate now clock_now lockedAgents lockedBorrowers pick worker campaign_id =>
    rw [step, Sys.allocate] at hatt'
    rcases Txn.commit_cases (SmartDialer.reserveAndCreate now lockedAgents lockedBorrowers pick
      worker campaign_id (reserveUntil clock_now cfg)) s.db with ⟨o, hrun, hres⟩ | ⟨_, hres⟩
    · rw [hres] at hatt'
      have hcases := reserveAndCreate_cases hrun
      cases o with
      | none => exact hkeeps att' hatt' rfl
      | some r =>
        rcases Table.cases_of_get?_insertAt hatt' with hatt | ⟨rfl, rfl, _⟩
        · exact hkeeps att' hatt rfl
        · rw [step, Sys.allocate_db, ← Db.view_calls]
          generalize Db.view _ = v at hcases
          cases hcases with
          | created =>
            refine ⟨_, Table.get?_push .. |>.trans (if_pos rfl), ?_⟩
            rfl
    · rw [hres] at hatt'
      exact hkeeps att' hatt' rfl
  | _ => exact absurd rfl ha

end SmartDialer
