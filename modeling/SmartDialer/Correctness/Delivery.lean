import SmartDialer.Worker.EventApplier

namespace SmartDialer

open Relational

/-!
# Delivered events

A provider delivers the events of a call one by one, possibly more than once and in any order.
Each delivery is a transaction of its own: the event is ingested and, if it is new, applied.

* `deliver_known` — an event that was recorded before has no effect.
* `deliver_fresh` — a new event is recorded and applied, which cannot fail; `deliver_new` says what
  is read for a known call.
-/

/-- An event as it is delivered, and the clocks of the transaction that takes it in. -/
structure Delivery where
  event_id : String
  event_type : String
  provider_ts : Time
  payload : String
  now : Time
  clock_now : Time
  deriving DecidableEq, Repr

/-- The call state that an event reports. -/
def Delivery.incoming (d : Delivery) : Option CallState :=
  CallState.ofString? (mapProviderEvent d.event_type)

/-- The ledger row of a delivered event. -/
def Delivery.row (d : Delivery) (provider ref : String) : EventRow :=
  EventRepo.ingestedRow d.now provider d.event_id (some ref) d.event_type d.provider_ts d.payload

/-- Ingest an event of the call with the given reference; if it is new, apply its ledger row. -/
def ingestAndApply (wrapup : Time) (provider ref : String) (d : Delivery) :
    Tx (Option CallState) := do
  match ← EventRepo.ingest d.now provider d.event_id (some ref) d.event_type d.provider_ts
      d.payload with
  | none => return none
  | some row_id =>
    let db ← get
    match db.provider_events.get? row_id with
    | none => return none
    | some ev => applyOne d.now (row_id, ev) d.clock_now wrapup

/-- The database after a delivery. -/
def deliver (wrapup : Time) (provider ref : String) (db : Db) (d : Delivery) : Db :=
  (ingestAndApply wrapup provider ref d).commit db

/-- The ledger has a row for an event. -/
def Db.Recorded (db : Db) (provider event_id : String) : Prop :=
  ∃ i e, db.provider_events.get? i = some e ∧ e.provider = provider ∧
    e.provider_event_id = event_id

/-- The ledger can be searched for the event. -/
instance (db : Db) (provider event_id : String) : Decidable (db.Recorded provider event_id) :=
  decidable_of_iff (db.provider_events.select (fun _ e =>
      e.provider == provider && e.provider_event_id == event_id) ≠ []) <| by
    rw [ne_eq, Table.select_eq_nil_iff]
    simp [Db.Recorded]

section

variable {ref : String} {db : Db} {d : Delivery}

/-- An event that was recorded before has no effect. -/
theorem deliver_known {wrapup : Time} {provider : String}
    (h : db.Recorded provider d.event_id) : deliver wrapup provider ref db d = db := by
  obtain ⟨o, db₁, h₁, hv₁⟩ := EventRepo.ingest_run d.now provider d.event_id (some ref) d.event_type
    d.provider_ts d.payload db
  rcases hv₁ with ⟨_, hnew, _⟩ | ⟨rfl, _, rfl⟩
  · obtain ⟨i, e, he, hsame⟩ := h
    exact absurd hsame (hnew i e he)
  · have hrun : (ingestAndApply wrapup provider ref d).run db₁ = .ok (none, db₁) := by
      rw [ingestAndApply, Txn.run_bind_of_ok h₁]
      rfl
    exact (Txn.commit_of_run hrun).1

/-- What `apply_one` reads for an event of a known call. -/
theorem applyOneRead_found (ev : EventRow) {call_id : ℕ} {c : CallRow} {incoming : CallState}
    (hc : db.calls.get? call_id = some c) (hp : ev.provider = c.provider)
    (href : ev.provider_call_id = some ref) (hcref : c.provider_call_id = some ref)
    (hin : CallState.ofString? (mapProviderEvent ev.event_type) = some incoming) :
    (applyOneRead ev).run db = .ok (if (canApply c.state incoming).1 then .passed call_id incoming
      else .refused call_id (canApply c.state incoming).2, db) := by
  have hget := CallRepo.getByProviderRef_found hc hcref
  rw [← hp, ← href] at hget
  rw [applyOneRead, Txn.run_bind_of_ok hget]
  simp only [hin]
  rfl

/-- The call that a reading is about. -/
def ReadResult.call_id : ReadResult → Option ℕ
  | .unknown | .raised => none
  | .refused call_id _ | .passed call_id _ => some call_id

/-- What `apply_one` reads is about no call or about one with the reference of the event. -/
theorem applyOneRead_names (ev : EventRow) (db : Db) :
    ∃ read, (applyOneRead ev).run db = .ok (read, db) ∧ ∀ k, read.call_id = some k →
      ∃ c, db.calls.get? k = some c ∧ c.provider = ev.provider ∧
        c.provider_call_id = ev.provider_call_id ∧ ev.provider_call_id.isSome = true := by
  obtain ⟨o, hget, hspec⟩ := CallRepo.getByProviderRef_run ev.provider ev.provider_call_id db
  unfold applyOneRead
  rw [Txn.run_bind_of_ok hget]
  cases o with
  -- no call has the reference, or the event's state is no member of the enum: no call is named
  | none => exact ⟨.unknown, rfl, fun k hk => by cases hk⟩
  | some call =>
    simp only
    cases hof : CallState.ofString? (mapProviderEvent ev.event_type) with
    | none => exact ⟨.raised, rfl, fun k hk => by cases hk⟩
    | some incoming =>
      refine ⟨_, rfl, fun k hk => ⟨call.2, ?_, (hspec call rfl).2⟩⟩
      have hk : call.1 = k := by
        split at hk <;> exact Option.some.inj hk
      exact hk ▸ (hspec call rfl).1

/-- Only the call that was read can change. -/
theorem Applied.get?_ne {now clock_now wrapup : Time} {ev : ℕ × EventRow} {read : ReadResult}
    {o : Option CallState} {v : View} (h : Applied now ev clock_now wrapup db read o v) {k : ℕ}
    (hk : read.call_id ≠ some k) : v.calls.get? k = db.calls.get? k := by
  have hset : ∀ (w : View) (i : ℕ) (r : CallRow) (f : CallRow → CallRow), some i ≠ some k →
      (w.setCall i r f).calls.get? k = w.calls.get? k := by
    intro w i r f hik
    rw [View.setCall_calls, Table.get?_alter, if_neg fun hki => hik (congrArg some hki.symm)]
  cases h with
  | unknown => rfl
  | raised => rfl
  | refused => rfl
  | lost => rfl
  | moved =>
    rw [View.setEvent_calls, View.sideEffects_calls, hset _ _ _ _ hk]
    rfl
  | bridged =>
    rw [View.setEvent_calls, View.sideEffects_calls, hset _ _ _ _ hk, hset _ _ _ _ hk]
    rfl

/-- No call is added or dropped. -/
theorem Applied.keys {now clock_now wrapup : Time} {ev : ℕ × EventRow} {read : ReadResult}
    {o : Option CallState} {v : View} (h : Applied now ev clock_now wrapup db read o v) :
    v.calls.rows.map Prod.fst = db.calls.rows.map Prod.fst := by
  cases h with
  | unknown => rfl
  | raised => rfl
  | refused => rfl
  | lost => rfl
  | moved =>
    rw [View.setEvent_calls, View.sideEffects_calls]
    exact Table.keys_modify _ _ _
  | bridged =>
    rw [View.setEvent_calls, View.sideEffects_calls]
    exact (Table.keys_modify _ _ _).trans (Table.keys_modify _ _ _)

/-- A new event is recorded under the next key and applied, which cannot fail. -/
theorem deliver_fresh (wrapup : Time) (ref : String) {provider : String}
    (hnew : ¬ db.Recorded provider d.event_id) :
    ∃ db₁ read o, db₁.view = { db.view with
        provider_events := db.provider_events.push (d.row provider ref) } ∧
      (applyOneRead (d.row provider ref)).run db₁ = .ok (read, db₁) ∧
      Applied d.now (db.provider_events.nextId, d.row provider ref) d.clock_now wrapup db₁ read o
        (deliver wrapup provider ref db d).view := by
  obtain ⟨o, db₁, h₁, hv₁⟩ := EventRepo.ingest_run d.now provider d.event_id (some ref)
    d.event_type d.provider_ts d.payload db
  rcases hv₁ with ⟨rfl, _, hview⟩ | ⟨_, hknown, _⟩
  · -- the row that was just inserted is the one that is selected and applied
    have hrow : db₁.provider_events.get? db.provider_events.nextId = some (d.row provider ref) := by
      rw [← Db.view_provider_events, hview, Table.get?_push, if_pos rfl]
      rfl
    obtain ⟨read, hread, hnames⟩ := applyOneRead_names (d.row provider ref) db₁
    obtain ⟨o, db₂, h₂, happ⟩ := applyOneWrite_run d.now
      (db.provider_events.nextId, d.row provider ref) read d.clock_now wrapup db₁ (by
        intro i s hpassed
        apply CallRepo.advance_total d.now i s (some ref) none none db₁
        intro r hr
        obtain ⟨c, hc, _, href, _⟩ := hnames i (congrArg ReadResult.call_id hpassed)
        rw [hr, Option.some.injEq] at hc
        exact Or.inr (by rw [hc, href]; rfl))
    refine ⟨db₁, read, o, hview, hread, ?_⟩
    have hrun : (ingestAndApply wrapup provider ref d).run db = .ok (o, db₂) := by
      have hgetdb : (get : Tx Db).run db₁ = .ok (db₁, db₁) := rfl
      rw [ingestAndApply, Txn.run_bind_of_ok h₁]
      simp only
      rw [Txn.run_bind_of_ok hgetdb]
      simp only [hrow]
      rw [applyOne, Txn.run_bind_of_ok hread, h₂]
    rw [deliver, (Txn.commit_of_run hrun).1]
    exact happ
  · exact absurd hknown hnew

/-- A new event of a known call is recorded under the next key, checked and applied. -/
theorem deliver_new (wrapup : Time) {call_id : ℕ} {c : CallRow} {incoming : CallState}
    (hnew : ¬ db.Recorded c.provider d.event_id)
    (hc : db.calls.get? call_id = some c) (href : c.provider_call_id = some ref)
    (hin : d.incoming = some incoming) :
    ∃ db₁ o, db₁.view = { db.view with
        provider_events := db.provider_events.push (d.row c.provider ref) } ∧
      Applied d.now (db.provider_events.nextId, d.row c.provider ref) d.clock_now wrapup db₁
        (if (canApply c.state incoming).1 then .passed call_id incoming
          else .refused call_id (canApply c.state incoming).2) o
        (deliver wrapup c.provider ref db d).view := by
  obtain ⟨db₁, read, o, hview, hread, happ⟩ := deliver_fresh wrapup ref hnew
  have hc₁ : db₁.calls.get? call_id = some c := by
    rw [← Db.view_calls, hview]
    exact hc
  rw [applyOneRead_found (d.row c.provider ref) hc₁ rfl rfl href hin] at hread
  cases hread
  exact ⟨db₁, o, hview, happ⟩

end

end SmartDialer
