import SmartDialer.System

namespace SmartDialer

open Relational

/-!
# What the writes of a drain do

An event that is applied either makes one transition of one call or touches nothing but its own
ledger row, and the mark on that row tells which (`Applied.effect`, `Applied.mark`).  A drain locks
different rows, so the marks of its events do not get in each other's way: after the whole plan the
rows that are marked as effective are exactly those that a transition was made for (`Replayed`).
-/

/-- Applied without an anomaly. -/
def EventRow.isEffective (e : EventRow) : Bool := e.applied && e.anomaly.isNone

/-- The same provider event. -/
def EventRow.SameEvent (e e' : EventRow) : Prop :=
  e.provider = e'.provider ∧ e.provider_event_id = e'.provider_event_id

/-- Being the same event is transitive. -/
theorem EventRow.SameEvent.trans {e₁ e₂ e₃ : EventRow} (h₁ : e₁.SameEvent e₂)
    (h₂ : e₂.SameEvent e₃) : e₁.SameEvent e₃ := ⟨h₁.1.trans h₂.1, h₁.2.trans h₂.2⟩

/-- A refusal names its anomaly. -/
def ReadResult.Explained (read : ReadResult) : Prop :=
  ∀ call_id anomaly, read = .refused call_id anomaly → anomaly ≠ none

/-- The check names an anomaly whenever it refuses. -/
theorem explained_of_read {ev : EventRow} {r : ReadResult} {db : Db}
    (h : (applyOneRead ev).result db = some r) : r.Explained := by
  obtain ⟨o, hget, _⟩ := CallRepo.getByProviderRef_run ev.provider ev.provider_call_id db
  intro call_id anomaly hread
  subst hread
  unfold applyOneRead Txn.result at h
  rw [Txn.run_bind_of_ok hget] at h
  cases o with
  | none => cases h
  | some call =>
    simp only at h
    cases hof : CallState.ofString? (mapProviderEvent ev.event_type) with
    | none => rw [hof] at h; cases h
    | some incoming =>
      rw [hof] at h
      cases hcan : (canApply call.2.state incoming).1 with
      | true => simp only [hcan] at h; cases h
      | false =>
        simp only [hcan] at h
        cases h
        rw [ne_eq, canApply_anomaly, hcan]
        exact Bool.false_ne_true

/-! ### Transitions -/

namespace View

/-- Agents, borrowers and calls are as before. -/
structure Unmoved (v v' : View) : Prop where
  agents : v'.agents = v.agents
  borrowers : v'.borrowers = v.borrowers
  calls : v'.calls = v.calls
  versions : v'.versions = v.versions

/-- One transition of a call: it writes one image, or `ANSWERED` and what the bridge makes of it,
    and its side effects happen once. -/
def Transition (v : View) (final_state : CallState) (v' : View) : Prop :=
  ∃ (call_id : ℕ) (c : CallRow) (written : List CallRow) (now clock_now wrapup : Time),
    v.calls.get? call_id = some c ∧
    v'.versions = v.versions ++ written.map (fun r => (call_id, r)) ∧
    (written.map (·.state) = [final_state] ∨ written.map (·.state) = [.ANSWERED, final_state]) ∧
    (∀ i, v'.calls.get? i = if i = call_id then written.getLast? else v.calls.get? i) ∧
    v'.agents = (v.sideEffects now c final_state clock_now wrapup).agents ∧
    v'.borrowers = (v.sideEffects now c final_state clock_now wrapup).borrowers

/-- The transitions of a log, one after the other, and nothing else. -/
inductive MovedBy : View → List (ℕ × CallState) → View → Prop
  | done (v : View) : MovedBy v [] v
  | unmoved {v v₁ v' : View} {log : List (ℕ × CallState)} (h : v.Unmoved v₁)
      (rest : MovedBy v₁ log v') : MovedBy v log v'
  | transition {v v₁ v' : View} {log : List (ℕ × CallState)} {event_id : ℕ}
      {final_state : CallState} (h : v.Transition final_state v₁) (rest : MovedBy v₁ log v') :
      MovedBy v ((event_id, final_state) :: log) v'

/-- Nothing that moves is a log without entries. -/
theorem Unmoved.movedBy {v v' : View} (h : v.Unmoved v') : v.MovedBy [] v' := .unmoved h (.done v')

/-- Without a transition agents, borrowers and calls stay as they are. -/
theorem MovedBy.unmoved_of_nil {v v' : View} (h : MovedBy v [] v') : v.Unmoved v' := by
  generalize hlog : ([] : List (ℕ × CallState)) = log at h
  induction h with
  | done => exact ⟨rfl, rfl, rfl, rfl⟩
  | unmoved h _ ih =>
    have hrest := ih hlog
    exact ⟨hrest.agents.trans h.agents, hrest.borrowers.trans h.borrowers,
      hrest.calls.trans h.calls, hrest.versions.trans h.versions⟩
  | transition => cases hlog

/-- The log goes on where the writes go on. -/
theorem MovedBy.append {v v₁ v' : View} {log log' : List (ℕ × CallState)} (h : MovedBy v log v₁)
    (h' : MovedBy v₁ log' v') : MovedBy v (log ++ log') v' := by
  induction h with
  | done => exact h'
  | unmoved h _ ih => exact .unmoved h (ih h')
  | transition h _ ih => exact .transition h (ih h')

end View

/-- The side effects of a transition depend on the agents and the borrowers alone. -/
private theorem sideEffects_congr (v v' : View) (ha : v'.agents = v.agents)
    (hb : v'.borrowers = v.borrowers) (now : Time) (c : CallRow) (final_state : CallState)
    (clock_now wrapup : Time) :
    (v'.sideEffects now c final_state clock_now wrapup).agents
        = (v.sideEffects now c final_state clock_now wrapup).agents ∧
      (v'.sideEffects now c final_state clock_now wrapup).borrowers
        = (v.sideEffects now c final_state clock_now wrapup).borrowers := by
  -- a call without an agent has nobody to set
  have hagents : ∀ f, (v'.setAgentOf c.agent_id f).agents = (v.setAgentOf c.agent_id f).agents := by
    intro f
    cases c.agent_id with
    | none => exact ha
    | some agent_id => rw [View.setAgentOf_some, View.setAgentOf_some, View.setAgent_agents,
        View.setAgent_agents, ha]
  unfold View.sideEffects
  cases agentOnCallState final_state with
  | none =>
    simp only
    split <;> simp [ha, hb]
  | some agent_state =>
    simp only
    split <;> simp [hagents, hb]

/-! ### One event -/

section

variable {now clock_now wrapup : Time} {db : Db} {o : Option CallState} {v : View}

/-- **Effect.** Applying an event makes the transition that it reports, or moves nothing. -/
theorem Applied.effect {ev : ℕ × EventRow} {read : ReadResult}
    (h : Applied now ev clock_now wrapup db read o v) :
    (o = none ∧ db.view.Unmoved v) ∨ ∃ final_state, o = some final_state ∧
      db.view.Transition final_state v := by
  cases h with
  | unknown | refused | lost => exact Or.inl ⟨rfl, rfl, rfl, rfl, rfl⟩
  | raised => exact Or.inl ⟨rfl, rfl, rfl, rfl, rfl⟩
  | @moved call_id incoming c _ hc _ =>
    have heff := sideEffects_congr db.view (db.view.setCall call_id c
      (CallRepo.advancedRow now incoming ev.2.provider_call_id none none)) rfl rfl now c incoming
        clock_now wrapup
    refine Or.inr ⟨incoming, rfl, call_id, c,
      [CallRepo.advancedRow now incoming ev.2.provider_call_id none none c], now, clock_now, wrapup,
      hc, ?_, Or.inl rfl, fun i => ?_, heff.1, heff.2⟩
    · rw [View.setEvent_versions, View.sideEffects_versions]
      rfl
    · rw [View.setEvent_calls, View.sideEffects_calls, View.setCall_calls, Table.get?_alter]
      split
      · rw [Db.view_calls, hc]
        rfl
      · rfl
  -- ANSWERED and CONNECTED in one transaction: two images, but one effective event
  | @bridged call_id c answered next hc _ ha _ =>
    have heff := sideEffects_congr db.view ((db.view.setCall call_id c
      (CallRepo.advancedRow now .ANSWERED ev.2.provider_call_id none none)).setCall call_id answered
        (CallRepo.advancedRow now next none none none)) rfl rfl now c next clock_now wrapup
    refine Or.inr ⟨next, rfl, call_id, c,
      [answered, CallRepo.advancedRow now next none none none answered], now, clock_now, wrapup,
      hc, ?_, Or.inr (by rw [ha]; rfl), fun i => ?_, heff.1, heff.2⟩
    · rw [View.setEvent_versions, View.sideEffects_versions, View.setCall_versions,
        View.setCall_versions, ha, List.append_assoc]
      rfl
    · rw [View.setEvent_calls, View.sideEffects_calls, View.setCall_calls, View.setCall_calls,
        Table.alter_alter, Table.get?_alter]
      split
      · rw [Db.view_calls, hc, ha]
        rfl
      · rfl

/-- **Mark.** The row of the event is marked as effective exactly when a transition was made. -/
theorem Applied.mark {ev : ℕ × EventRow} {read : ReadResult}
    (h : Applied now ev clock_now wrapup db read o v) :
    ∃ f, v.provider_events = db.provider_events.alter ev.1 f ∧ (∀ e, (f e).SameEvent e) ∧
      (read.Explained → ∀ e, e.applied = false → (f e).isEffective = o.isSome) := by
  cases h with
  | unknown => exact ⟨_, rfl, fun _ => ⟨rfl, rfl⟩, fun _ _ _ => rfl⟩
  | raised =>
    -- the row is not written at all
    refine ⟨id, ?_, fun _ => ⟨rfl, rfl⟩, fun _ e he => ?_⟩
    · rw [Table.alter_id]
      rfl
    · simp only [id, EventRow.isEffective, he, Bool.false_and, Option.isSome_none]
  | @refused call_id anomaly =>
    refine ⟨_, rfl, fun _ => ⟨rfl, rfl⟩, fun hex e _ => ?_⟩
    have hne := hex call_id anomaly rfl
    simp only [EventRow.isEffective, EventRepo.markedRow, Bool.true_and, Option.isSome_none]
    cases anomaly with
    | none => exact absurd rfl hne
    | some _ => rfl
  | lost => exact ⟨_, rfl, fun _ => ⟨rfl, rfl⟩, fun _ _ _ => rfl⟩
  | @moved call_id =>
    refine ⟨EventRepo.markedRow true none (some call_id), ?_, fun _ => ⟨rfl, rfl⟩, fun _ _ _ => rfl⟩
    rw [View.setEvent_provider_events, View.sideEffects_provider_events]
    rfl
  | @bridged call_id =>
    refine ⟨EventRepo.markedRow true none (some call_id), ?_, fun _ => ⟨rfl, rfl⟩, fun _ _ _ => rfl⟩
    rw [View.setEvent_provider_events, View.sideEffects_provider_events]
    rfl

end

/-! ### A plan -/

/-- How often a log names a ledger row. -/
def logCount (log : List (ℕ × CallState)) (event_id : ℕ) : ℕ := log.countP fun e => e.1 == event_id

/-- What the writes of a plan do: the transitions of its log and nothing else, and on the ledger the
    marks that tell them. -/
structure Replayed (plan : List Planned) (v : View) (log : List (ℕ × CallState)) (v' : View) :
    Prop where
  moved : v.MovedBy log v'
  others : ∀ i, i ∉ plan.map (·.event.1) →
    v'.provider_events.get? i = v.provider_events.get? i ∧ logCount log i = 0
  same : ∀ i e', v'.provider_events.get? i = some e' →
    ∃ e, v.provider_events.get? i = some e ∧ e'.SameEvent e
  marked : ∀ i ∈ plan.map (·.event.1), ∃ e', v'.provider_events.get? i = some e' ∧
    logCount log i = if e'.isEffective then 1 else 0

/-- **Plans.** Unapplied events with different rows, replayed one after the other. -/
theorem applyPlan_replayed {cfg : Settings} {now : Time} {plan : List Planned} {db db' : Db}
    {log : List (ℕ × CallState)} (hnd : (plan.map (·.event.1)).Nodup)
    (hrows : ∀ i ∈ plan.map (·.event.1), ∃ e, db.provider_events.get? i = some e ∧
      e.applied = false)
    (hp : ∀ p ∈ plan, p.read.Explained) (h : (applyPlan cfg now plan).run db = .ok (log, db')) :
    Replayed plan db.view log db'.view := by
  induction plan generalizing db log with
  | nil =>
    obtain ⟨rfl, rfl⟩ := Txn.run_pure_ok.mp h
    exact ⟨.done _, fun _ _ => ⟨rfl, rfl⟩, fun i e he => ⟨e, he, rfl, rfl⟩, fun i hi => by cases hi⟩
  | cons p plan ih =>
    obtain ⟨o, db₁, rest, h₁, h₂, rfl⟩ := applyPlan_cons h
    have happ := applyOneWrite_cases h₁
    obtain ⟨f, hev, hsame, hmark⟩ := happ.mark
    rw [List.map_cons, List.nodup_cons] at hnd
    have hget : ∀ i, db₁.provider_events.get? i = if i = p.event.1
        then (db.provider_events.get? p.event.1).map f else db.provider_events.get? i := by
      intro i
      rw [← Db.view_provider_events db₁, hev, Table.get?_alter]
    -- the rest of the plan finds its rows as they were
    have hrest : Replayed plan db₁.view rest db'.view := by
      refine ih hnd.2 (fun i hi => ?_) (fun q hq => hp q (by simp [hq])) h₂
      rw [hget, if_neg fun heq => hnd.1 (by rw [← heq]; exact hi)]
      exact hrows i (by rw [List.map_cons]; exact List.mem_cons_of_mem _ hi)
    have hcount : ∀ i,
        logCount ((o.map fun final_state => (p.event.1, final_state)).toList ++ rest) i
        = (if i = p.event.1 then (if o.isSome then 1 else 0) else 0) + logCount rest i := by
      intro i
      unfold logCount
      rw [List.countP_append]
      congr 1
      cases o with
      | none => split <;> rfl
      | some final_state =>
        by_cases hi : i = p.event.1
        · subst hi; simp
        · have hi' : ¬ p.event.1 = i := fun heq => hi heq.symm
          simp [hi, hi']
    constructor
    · rcases happ.effect with ⟨rfl, hun⟩ | ⟨final_state, rfl, htr⟩
      · exact .unmoved hun hrest.moved
      · exact .transition htr hrest.moved
    · intro i hi
      rw [List.map_cons, List.mem_cons, not_or] at hi
      obtain ⟨hrow, hzero⟩ := hrest.others i hi.2
      rw [hcount, if_neg hi.1, hzero]
      rw [hrow, Db.view_provider_events, hget, if_neg hi.1]
      exact ⟨rfl, rfl⟩
    · intro i e' he'
      obtain ⟨e₁, he₁, hs₁⟩ := hrest.same i e' he'
      rw [Db.view_provider_events, hget] at he₁
      split at he₁
      · rename_i hi
        obtain ⟨e, he, rfl⟩ := Option.map_eq_some_iff.mp he₁
        exact ⟨e, by rw [hi]; exact he, hs₁.trans (hsame e)⟩
      · exact ⟨e₁, he₁, hs₁⟩
    · intro i hi
      rw [hcount]
      by_cases hip : i = p.event.1
      · -- the event itself: the rest leaves its row alone
        subst hip
        obtain ⟨hrow, hzero⟩ := hrest.others _ hnd.1
        obtain ⟨e, he, happlied⟩ := hrows p.event.1 (by simp)
        refine ⟨f e, ?_, ?_⟩
        · rw [hrow, Db.view_provider_events, hget, if_pos rfl, he]
          rfl
        · rw [if_pos rfl, hzero, hmark (hp p (by simp)) e happlied, Nat.add_zero]
      · rw [if_neg hip, Nat.zero_add]
        rw [List.map_cons, List.mem_cons] at hi
        exact hrest.marked i (hi.resolve_left hip)

end SmartDialer
