import SmartDialer.Correctness.DrainRun

namespace SmartDialer

open Relational

/-!
# The head of the event queue

What one drain makes of the events that it has fetched, whatever their types are.

* `applyOne_handles` — an event of an unknown call is tagged; an event of a known call is marked as
  applied, unless its type is no call state: then `apply_one` raises before any mark.
* `applyAll_handles` — the same for every event of a drain; one event does not change which call
  another one refers to.
* `drain_handles_iff` — exactly the events that raise are left as they were, by this drain and by
  every later one.
-/

/-- The event carries the provider reference of the call. -/
def EventRow.IsOf (e : EventRow) (c : CallRow) : Prop :=
  e.provider_call_id.isSome = true ∧ c.provider = e.provider ∧
    c.provider_call_id = e.provider_call_id

/-- The call state that an event reports, if its type names one. -/
def EventRow.incoming (e : EventRow) : Option CallState :=
  CallState.ofString? (mapProviderEvent e.event_type)

/-- The call of the event has a row with its reference. -/
def Db.Known (db : Db) (e : EventRow) : Prop := ∃ k c, db.calls.get? k = some c ∧ e.IsOf c

/-- An event is dealt with by the drain that leads from `db` to `db'`: with a known call it is
    applied, and without an anomaly only if the call has been moved to the state it reports; with an
    unknown call it is tagged. -/
structure Handled (db db' : Db) (ev : ℕ × EventRow) : Prop where
  known : ∀ k c, db.calls.get? k = some c → ev.2.IsOf c →
    ∃ e', db'.provider_events.get? ev.1 = some e' ∧ e'.applied = true ∧
      (e'.anomaly = none →
        ∃ r, (k, r) ∈ db'.versions.drop db.versions.length ∧ some r.state = ev.2.incoming)
  unknown : ¬ db.Known ev.2 →
    ∃ e', db'.provider_events.get? ev.1 = some e' ∧ e'.anomaly = some .UNKNOWN_CALL

/-- The event has left the queue at the end of every later drain that runs a minute after it was
    received, whatever else happens to the database in between. -/
def Retired (db' : Db) (ev : ℕ × EventRow) : Prop :=
  ∀ (db₂ : Db) (now₂ : Time) (locked₂ : List ℕ) (clock_now₂ wrapup₂ : Time) (limit₂ : ℕ),
    db₂.provider_events.get? ev.1 = db'.provider_events.get? ev.1 →
    ev.2.received_at < now₂ - secs 60 →
    ∃ e', ((drain now₂ locked₂ clock_now₂ wrapup₂ limit₂).commit db₂).provider_events.get? ev.1
      = some e' ∧ e'.applied = true

/-! ### References -/

/-- The calls carry the same references. -/
def Db.SameRefs (db db' : Db) : Prop :=
  ∀ k, (db'.calls.get? k).map CallRow.refIndex = (db.calls.get? k).map CallRow.refIndex

/-- References are the same where nothing was written. -/
theorem Db.SameRefs.refl (db : Db) : db.SameRefs db := fun _ => rfl

/-- Having the same references is symmetric. -/
theorem Db.SameRefs.symm {db db' : Db} (h : db.SameRefs db') : db'.SameRefs db :=
  fun k => (h k).symm

/-- References are the same across any number of writes. -/
theorem Db.SameRefs.trans {db₁ db₂ db₃ : Db} (h₁ : db₁.SameRefs db₂) (h₂ : db₂.SameRefs db₃) :
    db₁.SameRefs db₃ := fun k => (h₂ k).trans (h₁ k)

/-- An event refers to a call by the indexed value of the call. -/
theorem EventRow.isOf_iff {e : EventRow} {c : CallRow} :
    e.IsOf c ↔ ∃ ref, e.provider_call_id = some ref ∧ c.refIndex = some (e.provider, ref) := by
  unfold IsOf CallRow.refIndex
  constructor
  · rintro ⟨hsome, hprovider, href⟩
    obtain ⟨ref, he⟩ := Option.isSome_iff_exists.mp hsome
    exact ⟨ref, he, by rw [href, he, hprovider]; rfl⟩
  · rintro ⟨ref, he, href⟩
    obtain ⟨pcid, hc, hpair⟩ := Option.map_eq_some_iff.mp href
    obtain ⟨hprovider, rfl⟩ := Prod.mk.inj hpair
    exact ⟨by rw [he]; rfl, hprovider, by rw [hc, he]⟩

/-- The call of an event stays the call of the event. -/
theorem Db.SameRefs.isOf {db db' : Db} (h : db.SameRefs db') {e : EventRow} {k : ℕ} {c : CallRow}
    (hc : db.calls.get? k = some c) (hof : e.IsOf c) :
    ∃ c', db'.calls.get? k = some c' ∧ e.IsOf c' := by
  have hk := h k
  rw [hc, Option.map_some] at hk
  obtain ⟨c', hc', href⟩ := Option.map_eq_some_iff.mp hk
  refine ⟨c', hc', ?_⟩
  rw [EventRow.isOf_iff] at hof ⊢
  rw [href]
  exact hof

/-- Whether the call of an event is known depends on the references alone. -/
theorem Db.SameRefs.known_iff {db db' : Db} (h : db.SameRefs db') (e : EventRow) :
    db'.Known e ↔ db.Known e := by
  constructor
  · rintro ⟨k, c', hc', hof⟩
    obtain ⟨c, hc, hof'⟩ := h.symm.isOf hc' hof
    exact ⟨k, c, hc, hof'⟩
  · rintro ⟨k, c, hc, hof⟩
    obtain ⟨c', hc', hof'⟩ := h.isOf hc hof
    exact ⟨k, c', hc', hof'⟩

/-- The index allows an event one call only. -/
theorem EventRow.IsOf.unique {db : Db} {e : EventRow} {k k' : ℕ} {c c' : CallRow}
    (hc : db.calls.get? k = some c) (hof : e.IsOf c) (hc' : db.calls.get? k' = some c')
    (hof' : e.IsOf c') : k' = k := by
  obtain ⟨ref, he, href⟩ := EventRow.isOf_iff.mp hof
  obtain ⟨ref', he', href'⟩ := EventRow.isOf_iff.mp hof'
  rw [he, Option.some.injEq] at he'
  subst he'
  exact db.refUnique k' c' k c hc' hc (by simp [href']) (by rw [href', href])

/-- Looking up the call of an event finds it. -/
theorem CallRepo.getByProviderRef_isOf {db : Db} {e : EventRow} {k : ℕ} {c : CallRow}
    (hc : db.calls.get? k = some c) (hof : e.IsOf c) :
    (CallRepo.getByProviderRef e.provider e.provider_call_id).run db = .ok (some (k, c), db) := by
  obtain ⟨hsome, hprovider, href⟩ := hof
  obtain ⟨ref, he⟩ := Option.isSome_iff_exists.mp hsome
  rw [← hprovider, he]
  exact CallRepo.getByProviderRef_found hc (by rw [href, he])

/-- Looking up the call of an unknown event finds none. -/
theorem CallRepo.getByProviderRef_unknown {db : Db} {e : EventRow} (h : ¬ db.Known e) :
    (CallRepo.getByProviderRef e.provider e.provider_call_id).run db = .ok (none, db) := by
  obtain ⟨o, hrun, hspec⟩ := CallRepo.getByProviderRef_run e.provider e.provider_call_id db
  cases o with
  | none => exact hrun
  | some call =>
    obtain ⟨hc, hprovider, href, hsome⟩ := hspec call rfl
    exact absurd ⟨call.1, call.2, hc, hsome, hprovider, href⟩ h

/-! ### One event -/

/-- What `apply_one` makes of the ledger row of an event, and the row images it writes. -/
inductive Outcome (db : Db) (ev : ℕ × EventRow) (images : List (ℕ × CallRow)) :
    (EventRow → EventRow) → Prop
  /-- The call is unknown, and the event is tagged. -/
  | unknown (h : ¬ db.Known ev.2) :
      Outcome db ev images (EventRepo.markedRow false (some .UNKNOWN_CALL) none)
  /-- The conversion raises, and the event is left as it is. -/
  | raised (h : db.Known ev.2) (hin : ev.2.incoming = none) : Outcome db ev images id
  /-- The event is marked as applied; without an anomaly the call has been moved. -/
  | marked {k : ℕ} {c : CallRow} {incoming : CallState} {anomaly : Option Anomaly}
      (hc : db.calls.get? k = some c) (hof : ev.2.IsOf c) (hin : ev.2.incoming = some incoming)
      (hmoved : anomaly = none → ∃ r, (k, r) ∈ images ∧ r.state = incoming) :
      Outcome db ev images (EventRepo.markedRow true anomaly (some k))

/-- A second half that was read from the call of the event. -/
private theorem Applied.outcome {now clock_now wrapup : Time} {ev : ℕ × EventRow} {db : Db}
    {o : Option CallState} {v : View} {k : ℕ} {c : CallRow} {incoming : CallState}
    (hc : db.calls.get? k = some c) (hof : ev.2.IsOf c) (hin : ev.2.incoming = some incoming)
    {read : ReadResult}
    (hread : read = .passed k incoming ∨ ∃ anomaly, anomaly ≠ none ∧ read = .refused k anomaly)
    (h : Applied now ev clock_now wrapup db read o v) :
    (∀ i, (v.calls.get? i).map CallRow.refIndex = (db.calls.get? i).map CallRow.refIndex) ∧
      ∃ images, v.versions = db.versions ++ images ∧
        ∃ f, v.provider_events = db.provider_events.alter ev.1 f ∧ Outcome db ev images f := by
  -- COALESCE keeps the reference that the row and the event share
  have hkeep : ∀ lease reason, ∀ state,
      (CallRepo.advancedRow now state ev.2.provider_call_id lease reason c).refIndex
        = c.refIndex := by
    intro lease reason state
    have hor : c.provider_call_id.or ev.2.provider_call_id = c.provider_call_id := by
      rw [hof.2.2]; exact Option.or_self
    simp only [CallRow.refIndex, CallRepo.advancedRow, hor]
  cases h with
  -- such a read is excluded: the row was found and its state is a member of the enum
  | unknown | raised => rcases hread with h | ⟨_, _, h⟩ <;> cases h
  | @refused call_id anomaly =>
    rcases hread with h | ⟨anomaly', hne, h⟩
    · cases h
    · cases h
      refine ⟨fun _ => rfl, [], (List.append_nil _).symm, _, rfl, .marked hc hof hin fun h => ?_⟩
      exact absurd h hne
  | lost =>
    rcases hread with h | ⟨_, _, h⟩
    · cases h
      exact ⟨fun _ => rfl, [], (List.append_nil _).symm, _, rfl,
        .marked hc hof hin fun h => by cases h⟩
    · cases h
  | @moved call_id inc c' hi hc' _ =>
    rcases hread with h | ⟨_, _, h⟩
    · cases h
      rw [hc, Option.some.injEq] at hc'
      subst hc'
      refine ⟨fun i => ?_, [(k, CallRepo.advancedRow now incoming ev.2.provider_call_id none none
        c)], ?_, EventRepo.markedRow true none (some k), ?_, .marked hc hof hin fun _ => ?_⟩
      · rw [View.setEvent_calls, View.sideEffects_calls, View.setCall_calls, Table.get?_alter]
        split
        · rename_i hik
          rw [hik, Db.view_calls, hc, Option.map_some, Option.map_some, Option.map_some, hkeep]
        · rfl
      · rw [View.setEvent_versions, View.sideEffects_versions]
        rfl
      · rw [View.setEvent_provider_events, View.sideEffects_provider_events]
        rfl
      · exact ⟨_, List.mem_singleton.mpr rfl, rfl⟩
    · cases h
  -- ANSWERED takes two writes, so there are two images and the first is the event's own
  | @bridged call_id c' answered next hc' _ ha _ =>
    rcases hread with h | ⟨_, _, h⟩
    · cases h
      rw [hc, Option.some.injEq] at hc'
      subst hc'
      refine ⟨fun i => ?_, [(k, answered),
        (k, CallRepo.advancedRow now next none none none answered)], ?_,
        EventRepo.markedRow true none (some k), ?_, .marked hc hof hin fun _ => ?_⟩
      · rw [View.setEvent_calls, View.sideEffects_calls, View.setCall_calls, View.setCall_calls,
          Table.alter_alter, Table.get?_alter]
        split
        · rename_i hik
          have hnext : (CallRepo.advancedRow now next none none none answered).refIndex
              = c.refIndex := by
            rw [ha, ← hkeep none none .ANSWERED]
            simp [CallRow.refIndex, CallRepo.advancedRow]
          rw [hik, Db.view_calls, hc, Option.map_some, Option.map_some, Option.map_some,
            ← hnext, ha]
        · rfl
      · rw [View.setEvent_versions, View.sideEffects_versions, View.setCall_versions,
          View.setCall_versions, ha, List.append_assoc]
        rfl
      · rw [View.setEvent_provider_events, View.sideEffects_provider_events]
        rfl
      · exact ⟨answered, List.mem_cons_self, by rw [ha]; rfl⟩
    · cases h

/-- **`apply_one`.** It never fails, keeps the references of the calls, and deals with its event
    unless it raises. -/
theorem applyOne_handles (now : Time) (ev : ℕ × EventRow) (clock_now wrapup : Time) (db : Db) :
    ∃ o db', (applyOne now ev clock_now wrapup).run db = .ok (o, db') ∧ db.SameRefs db' ∧
      ∃ images, db'.versions = db.versions ++ images ∧
        ∃ f, db'.provider_events = db.provider_events.alter ev.1 f ∧ Outcome db ev images f := by
  by_cases hknown : db.Known ev.2
  · obtain ⟨k, c, hc, hof⟩ := hknown
    have hget := CallRepo.getByProviderRef_isOf hc hof
    cases hin : ev.2.incoming with
    | none =>
      have hread : (applyOneRead ev.2).run db = .ok (.raised, db) := by
        unfold EventRow.incoming at hin
        rw [applyOneRead, Txn.run_bind_of_ok hget]
        simp only [hin]
        rfl
      refine ⟨none, db, ?_, .refl db, [], (List.append_nil _).symm, id, (Table.alter_id _ _).symm,
        .raised ⟨k, c, hc, hof⟩ hin⟩
      rw [applyOne, Txn.run_bind_of_ok hread]
      rfl
    | some incoming =>
      obtain ⟨read, hread, hcases⟩ : ∃ read, (applyOneRead ev.2).run db = .ok (read, db) ∧
          (read = .passed k incoming ∨ ∃ anomaly, anomaly ≠ none ∧ read = .refused k anomaly) := by
        have hof' := hin
        unfold EventRow.incoming at hof'
        cases hcan : (canApply c.state incoming).1 with
        | true =>
          refine ⟨.passed k incoming, ?_, Or.inl rfl⟩
          rw [applyOneRead, Txn.run_bind_of_ok hget]
          simp only [hof', hcan]
          rfl
        | false =>
          refine ⟨.refused k (canApply c.state incoming).2, ?_, Or.inr ⟨_, ?_, rfl⟩⟩
          · rw [applyOneRead, Txn.run_bind_of_ok hget]
            simp only [hof', hcan]
            rfl
          · rw [ne_eq, canApply_anomaly, hcan]
            exact Bool.false_ne_true
      -- the call has the reference already, so the advance meets no unique index
      obtain ⟨o, db', hwrite, happ⟩ := applyOneWrite_run now ev read clock_now wrapup db
        fun call_id inc hpass => CallRepo.advance_total now call_id inc _ none none db
          fun r hr => Or.inr <| by
            rcases hcases with h | ⟨_, _, h⟩
            · rw [hpass] at h
              cases h
              rw [hc, Option.some.injEq] at hr
              rw [← hr, hof.2.2]
              exact hof.1
            · rw [hpass] at h
              cases h
      obtain ⟨hrefs, himages⟩ := happ.outcome hc hof hin hcases
      refine ⟨o, db', ?_, hrefs, himages⟩
      rw [applyOne, Txn.run_bind_of_ok hread]
      exact hwrite
  · have hread : (applyOneRead ev.2).run db = .ok (.unknown, db) := by
      rw [applyOneRead, Txn.run_bind_of_ok (CallRepo.getByProviderRef_unknown hknown)]
      rfl
    obtain ⟨db', hmark, hv⟩ := EventRepo.mark_run ev.1 false (some .UNKNOWN_CALL) none db
    have hcalls : db'.calls = db.calls := congrArg View.calls hv
    refine ⟨none, db', ?_, fun k => by rw [hcalls], [], ?_, _, congrArg View.provider_events hv,
      .unknown hknown⟩
    · rw [applyOne, Txn.run_bind_of_ok hread]
      exact Txn.run_bind_of_ok hmark
    · rw [List.append_nil]
      exact congrArg View.versions hv

/-! ### All events of a drain -/

/-- The outcome of an event depends on the references of the calls alone, and on more images it is
    the same. -/
theorem Outcome.mono {db db₁ : Db} (h : db.SameRefs db₁) {ev : ℕ × EventRow}
    {images images' : List (ℕ × CallRow)} (hsub : images ⊆ images') {f : EventRow → EventRow}
    (ho : Outcome db₁ ev images f) : Outcome db ev images' f := by
  cases ho with
  | unknown hun => exact .unknown fun hk => hun ((h.known_iff ev.2).mpr hk)
  | raised hk hin => exact .raised ((h.known_iff ev.2).mp hk) hin
  | marked hc hof hin hmoved =>
    obtain ⟨c, hc', hof'⟩ := h.symm.isOf hc hof
    refine .marked hc' hof' hin fun hnone => ?_
    obtain ⟨r, hr, hs⟩ := hmoved hnone
    exact ⟨r, hsub hr, hs⟩

/-- **Loop.** Every event of the loop has its outcome, and no other ledger row is written; by
    induction on the events that are left. -/
theorem applyAll_handles (now clock_now wrapup : Time) {rows : List (ℕ × EventRow)}
    (hnd : (rows.map Prod.fst).Nodup) (db : Db) :
    ∃ db', (applyAll now clock_now wrapup rows).run db = .ok (⟨⟩, db') ∧ db.SameRefs db' ∧
      (∀ i, i ∉ rows.map Prod.fst → db'.provider_events.get? i = db.provider_events.get? i) ∧
      ∃ images, db'.versions = db.versions ++ images ∧
        ∀ ev ∈ rows, ∃ f, db'.provider_events.get? ev.1 = (db.provider_events.get? ev.1).map f ∧
          Outcome db ev images f := by
  induction rows generalizing db with
  | nil =>
    exact ⟨db, rfl, .refl db, fun _ _ => rfl, [], (List.append_nil _).symm, fun _ h => by cases h⟩
  | cons ev rows ih =>
    obtain ⟨o, db₁, h₁, hrefs₁, images₁, hv₁, f, hf, hout⟩ :=
      applyOne_handles now ev clock_now wrapup db
    rw [List.map_cons, List.nodup_cons] at hnd
    obtain ⟨db', h₂, hrefs₂, hothers, images₂, hv₂, hrest⟩ := ih hnd.2 db₁
    have hget : ∀ i, i ≠ ev.1 → db₁.provider_events.get? i = db.provider_events.get? i := by
      intro i hi
      rw [hf, Table.get?_alter, if_neg hi]
    refine ⟨db', ?_, hrefs₁.trans hrefs₂, fun i hi => ?_, images₁ ++ images₂, ?_,
      fun ev' hev' => ?_⟩
    · have hfirst : (applyOne now ev clock_now wrapup >>= fun _ => pure PUnit.unit).run db
          = .ok (⟨⟩, db₁) := Txn.run_bind_of_ok h₁
      unfold applyAll at h₂ ⊢
      rw [List.forM_cons, Txn.run_bind_of_ok hfirst]
      exact h₂
    · rw [List.map_cons, List.mem_cons, not_or] at hi
      rw [hothers i hi.2, hget i hi.1]
    · rw [hv₂, hv₁, List.append_assoc]
    · rcases List.mem_cons.mp hev' with rfl | hmem
      · -- the rest of the loop leaves the row of the first event alone
        refine ⟨f, ?_, hout.mono (.refl db) (List.subset_append_left _ _)⟩
        rw [hothers _ hnd.1, hf, Table.get?_alter, if_pos rfl]
      · obtain ⟨g, hg, hout'⟩ := hrest ev' hmem
        have hne : ev'.1 ≠ ev.1 := by
          intro heq
          exact hnd.1 (heq ▸ List.mem_map_of_mem hmem)
        exact ⟨g, by rw [hg, hget _ hne], hout'.mono hrefs₁ (List.subset_append_right _ _)⟩

/-- What the sweep at the end of a drain makes of a row. -/
def EventRepo.sweptRow (now : Time) (e : EventRow) : EventRow :=
  if EventRepo.isGivenUp now e then EventRepo.givenUpRow e else e

/-- **`drain`.** It never fails; each event that it fetched has its outcome, and then the sweep
    takes the rows that were tagged and are old. -/
theorem drain_outcomes (now : Time) (locked : List ℕ) (clock_now wrapup : Time) (limit : ℕ)
    (db : Db) :
    ∃ rows db', (EventRepo.fetchUnapplied locked limit).run db = .ok (rows, db) ∧
      (drain now locked clock_now wrapup limit).run db = .ok (rows.length, db') ∧
      db.SameRefs db' ∧
      (∀ i, i ∉ rows.map Prod.fst → db'.provider_events.get? i
        = (db.provider_events.get? i).map (EventRepo.sweptRow now)) ∧
      ∃ images, db'.versions = db.versions ++ images ∧
        ∀ ev ∈ rows, db.provider_events.get? ev.1 = some ev.2 ∧ ev.2.applied = false ∧
          ∃ f, db'.provider_events.get? ev.1 = some (EventRepo.sweptRow now (f ev.2)) ∧
            Outcome db ev images f := by
  obtain ⟨rows, hfetch, hnd, hrows⟩ := EventRepo.fetchUnapplied_run locked limit db
  obtain ⟨db₁, hloop, hrefs, hothers, images, himages, hout⟩ :=
    applyAll_handles now clock_now wrapup hnd db
  obtain ⟨given, db', hgive, hv⟩ := EventRepo.giveUpUnknown_run now db₁
  -- the sweep of old unknown events runs last, over what the loop left
  have hswept : ∀ i, db'.provider_events.get? i
      = (db₁.provider_events.get? i).map (EventRepo.sweptRow now) := by
    intro i
    rw [show db'.provider_events = _ from congrArg View.provider_events hv, Table.get?_modify]
    rfl
  have hcalls : db'.calls = db₁.calls := congrArg View.calls hv
  refine ⟨rows, db', hfetch, ?_, fun k => by rw [hcalls]; exact hrefs k, fun i hi => ?_, images, ?_,
    fun ev hev => ?_⟩
  · unfold drain
    unfold applyAll at hloop
    rw [Txn.run_bind_of_ok hfetch, Txn.run_bind_of_ok hloop, Txn.run_bind_of_ok hgive]
    rfl
  · rw [hswept, hothers i hi]
  · rw [show db'.versions = _ from congrArg View.versions hv]
    exact himages
  · obtain ⟨hrow, happlied, _⟩ := hrows ev hev
    obtain ⟨f, hf, ho⟩ := hout ev hev
    refine ⟨hrow, happlied, f, ?_, ho⟩
    rw [hswept, hf, hrow]
    rfl

/-- The sweep takes no row that is applied, and leaves one that it takes applied. -/
theorem EventRepo.sweptRow_applied (now : Time) {e : EventRow} (h : e.applied = true) :
    EventRepo.sweptRow now e = e := by
  unfold sweptRow isGivenUp
  rw [h]
  rfl

/-- Giving up on an event does not change its anomaly. -/
theorem EventRepo.sweptRow_anomaly (now : Time) (e : EventRow) :
    (EventRepo.sweptRow now e).anomaly = e.anomaly := by
  unfold sweptRow
  split <;> rfl

/-- Giving up on an event does not change when it came. -/
theorem EventRepo.sweptRow_received_at (now : Time) (e : EventRow) :
    (EventRepo.sweptRow now e).received_at = e.received_at := by
  unfold sweptRow
  split <;> rfl

/-- The sweep takes no row without the tag. -/
theorem EventRepo.sweptRow_untagged (now : Time) {e : EventRow}
    (htag : e.anomaly ≠ some .UNKNOWN_CALL) : EventRepo.sweptRow now e = e := by
  unfold sweptRow isGivenUp
  simp [htag]

/-- A tagged row that is old enough is given up. -/
theorem EventRepo.sweptRow_tagged {now : Time} {e : EventRow}
    (htag : e.anomaly = some .UNKNOWN_CALL) (hold : e.received_at < now - secs 60) :
    (EventRepo.sweptRow now e).applied = true := by
  unfold sweptRow isGivenUp
  cases happlied : e.applied with
  | true => simpa using happlied
  | false => simp [htag, hold, givenUpRow]

/-! ### Later drains -/

/-- A row that is applied, or tagged and old, is applied after any drain. -/
theorem drain_retires {now : Time} (locked : List ℕ) (clock_now wrapup : Time) (limit : ℕ) {db : Db}
    {i : ℕ} {e : EventRow} (he : db.provider_events.get? i = some e)
    (h : e.applied = true ∨ (e.anomaly = some .UNKNOWN_CALL ∧ e.received_at < now - secs 60)) :
    ∃ e', ((drain now locked clock_now wrapup limit).commit db).provider_events.get? i = some e' ∧
      e'.applied = true := by
  obtain ⟨rows, db', _, hdrain, _, hothers, images, _, hout⟩ :=
    drain_outcomes now locked clock_now wrapup limit db
  rw [(Txn.commit_of_run hdrain).1]
  by_cases hi : i ∈ rows.map Prod.fst
  · obtain ⟨ev, hev, rfl⟩ := List.mem_map.mp hi
    obtain ⟨hrow, happlied, f, hf, ho⟩ := hout ev hev
    rw [he, Option.some.injEq] at hrow
    subst hrow
    refine ⟨_, hf, ?_⟩
    -- a row that the loop did not mark applied has an old UNKNOWN_CALL tag: the sweep takes it
    cases ho with
    | marked => rw [EventRepo.sweptRow_applied now rfl]; rfl
    | unknown | raised =>
      rw [happlied] at h
      obtain ⟨htag, hold⟩ := h.resolve_left Bool.false_ne_true
      exact EventRepo.sweptRow_tagged (by first | rfl | exact htag) hold
  · refine ⟨EventRepo.sweptRow now e, by rw [hothers i hi, he]; rfl, ?_⟩
    rcases h with happlied | ⟨htag, hold⟩
    · rw [EventRepo.sweptRow_applied now happlied]
      exact happlied
    · exact EventRepo.sweptRow_tagged htag hold

/-- An untagged event of a known call whose type is no call state stays in the queue. -/
theorem drain_stuck (now : Time) (locked : List ℕ) (clock_now wrapup : Time) (limit : ℕ) {db : Db}
    {i : ℕ} {e : EventRow} (he : db.provider_events.get? i = some e) (hknown : db.Known e)
    (hin : e.incoming = none) (htag : e.anomaly ≠ some .UNKNOWN_CALL) :
    ((drain now locked clock_now wrapup limit).commit db).provider_events.get? i = some e := by
  obtain ⟨rows, db', _, hdrain, _, hothers, images, _, hout⟩ :=
    drain_outcomes now locked clock_now wrapup limit db
  rw [(Txn.commit_of_run hdrain).1]
  have hswept := EventRepo.sweptRow_untagged now htag
  by_cases hi : i ∈ rows.map Prod.fst
  · obtain ⟨ev, hev, rfl⟩ := List.mem_map.mp hi
    obtain ⟨hrow, happlied, f, hf, ho⟩ := hout ev hev
    rw [he, Option.some.injEq] at hrow
    subst hrow
    cases ho with
    | unknown hun => exact absurd hknown hun
    | marked _ _ hsome => rw [hin] at hsome; cases hsome
    -- the ValueError is swallowed: no mark, no tag, and so nothing for the sweep either
    | raised => rw [hf, id, hswept]
  · rw [hothers i hi, he, Option.map_some, hswept]

/-! ### Which events are dealt with -/

/-- An event with this outcome is dealt with unless `apply_one` raises and the sweep does not take
    it either. -/
private theorem Outcome.handled_iff {now : Time} {db db' : Db} {ev : ℕ × EventRow}
    {images : List (ℕ × CallRow)} {f : EventRow → EventRow} (ho : Outcome db ev images f)
    (happlied : ev.2.applied = false) (himages : db'.versions = db.versions ++ images)
    (hf : db'.provider_events.get? ev.1 = some (EventRepo.sweptRow now (f ev.2))) :
    Handled db db' ev ↔
      (db.Known ev.2 → ev.2.incoming ≠ none ∨ EventRepo.isGivenUp now ev.2 = true) := by
  cases ho with
  | unknown hun =>
    refine ⟨fun _ hk => absurd hk hun, fun _ => ⟨fun k c hc hof => absurd ⟨k, c, hc, hof⟩ hun,
      fun _ => ⟨_, hf, EventRepo.sweptRow_anomaly now _⟩⟩⟩
  | raised hk hin =>
    constructor
    · -- only the sweep can have applied the event
      intro hh _
      obtain ⟨k, c, hc, hof⟩ := hk
      obtain ⟨e', he', hap, _⟩ := hh.known k c hc hof
      rw [hf, Option.some.injEq] at he'
      subst he'
      apply Or.inr
      by_contra hno
      rw [id, EventRepo.sweptRow, if_neg hno, happlied] at hap
      cases hap
    · intro hcond
      have hgiven := (hcond hk).resolve_left fun h => h hin
      refine ⟨fun k c hc hof => ⟨_, hf, ?_⟩, fun hun => absurd hk hun⟩
      -- a row that the sweep takes keeps its tag, so no call had to be moved
      rw [id, EventRepo.sweptRow, if_pos hgiven]
      refine ⟨rfl, fun hnone => ?_⟩
      have htag : ev.2.anomaly = some .UNKNOWN_CALL := by
        simp only [EventRepo.isGivenUp, Bool.and_eq_true, beq_iff_eq] at hgiven
        exact hgiven.1.2
      rw [show (EventRepo.givenUpRow ev.2).anomaly = ev.2.anomaly from rfl, htag] at hnone
      cases hnone
  | @marked k c incoming anomaly hc hof hin hmoved =>
    have hsome : ev.2.incoming ≠ none := by rw [hin]; exact Option.some_ne_none _
    rw [EventRepo.sweptRow_applied now rfl] at hf
    refine ⟨fun _ _ => Or.inl hsome, fun _ => ⟨fun k' c' hc' hof' => ⟨_, hf, rfl, fun hnone => ?_⟩,
      fun hun => absurd ⟨k, c, hc, hof⟩ hun⟩⟩
    obtain ⟨r, hr, hs⟩ := hmoved hnone
    refine ⟨r, ?_, by rw [hin, hs]⟩
    rw [hof.unique hc hc' hof', himages, List.drop_left]
    exact hr

/-- A row that `apply_one` has left in the queue with the tag is gone after any later drain that
    comes late enough. -/
private theorem retired_of_tagged {now : Time} {db' : Db} {ev : ℕ × EventRow}
    {f : EventRow → EventRow}
    (hf : db'.provider_events.get? ev.1 = some (EventRepo.sweptRow now (f ev.2)))
    (htag : (f ev.2).anomaly = some .UNKNOWN_CALL)
    (hreceived : (f ev.2).received_at = ev.2.received_at) : Retired db' ev := by
  intro db₂ now₂ locked₂ clock_now₂ wrapup₂ limit₂ hsame hold
  rw [hf] at hsame
  refine drain_retires locked₂ clock_now₂ wrapup₂ limit₂ hsame (Or.inr ⟨?_, ?_⟩)
  · rw [EventRepo.sweptRow_anomaly, htag]
  · rw [EventRepo.sweptRow_received_at, hreceived]
    exact hold

/-- An event with this outcome leaves the queue by later drains unless `apply_one` raises and the
    event has no tag. -/
private theorem Outcome.retired_iff {now : Time} {db db' : Db} {ev : ℕ × EventRow}
    {images : List (ℕ × CallRow)} {f : EventRow → EventRow} (ho : Outcome db ev images f)
    (happlied : ev.2.applied = false) (hrefs : db.SameRefs db')
    (hf : db'.provider_events.get? ev.1 = some (EventRepo.sweptRow now (f ev.2))) :
    Retired db' ev ↔
      (db.Known ev.2 → ev.2.incoming ≠ none ∨ ev.2.anomaly = some .UNKNOWN_CALL) := by
  cases ho with
  | unknown hun => exact ⟨fun _ hk => absurd hk hun, fun _ => retired_of_tagged hf rfl rfl⟩
  | raised hk hin =>
    refine ⟨fun hret _ => Or.inr ?_,
      fun hcond => retired_of_tagged hf ((hcond hk).resolve_left fun h => h hin) rfl⟩
    -- an untagged event is still there after a drain much later
    by_contra htag
    rw [id, EventRepo.sweptRow_untagged now htag] at hf
    have hold : ev.2.received_at < ev.2.received_at + secs 60 + 1 - secs 60 := by
      rw [Int.add_right_comm, Int.add_sub_cancel]
      exact Int.lt_succ _
    obtain ⟨e', he', hap⟩ := hret db' (ev.2.received_at + secs 60 + 1) [] 0 0 0 rfl hold
    rw [drain_stuck _ _ _ _ _ hf ((hrefs.known_iff ev.2).mpr hk) hin htag,
      Option.some.injEq] at he'
    rw [← he', happlied] at hap
    cases hap
  | marked hc hof hin hmoved =>
    have hsome : ev.2.incoming ≠ none := by rw [hin]; exact Option.some_ne_none _
    rw [EventRepo.sweptRow_applied now rfl] at hf
    refine ⟨fun _ _ => Or.inl hsome,
      fun _ db₂ now₂ locked₂ clock_now₂ wrapup₂ limit₂ hsame _ => ?_⟩
    rw [hf] at hsame
    exact drain_retires locked₂ clock_now₂ wrapup₂ limit₂ hsame (Or.inl rfl)

/-- **The head of the queue.** A drain never fails, and it deals with an event that it has fetched
    exactly when the call of the event is unknown, or its type names a call state, or it was tagged
    before and is given up now.  It can be counted on to leave the queue exactly when its call is
    unknown, its type names a call state, or it was tagged before.  An event whose type names no
    call state raises `ValueError` when its call is known; the drain swallows it and leaves the row
    as it was, to be fetched again ahead of all later ones. -/
theorem drain_handles_iff (now : Time) (locked : List ℕ) (clock_now wrapup : Time) (limit : ℕ)
    (db : Db) :
    ∃ rows db', (EventRepo.fetchUnapplied locked limit).run db = .ok (rows, db) ∧
      (drain now locked clock_now wrapup limit).run db = .ok (rows.length, db') ∧
      ∀ ev ∈ rows,
        (Handled db db' ev ↔
          (db.Known ev.2 → ev.2.incoming ≠ none ∨ EventRepo.isGivenUp now ev.2 = true)) ∧
        (Retired db' ev ↔
          (db.Known ev.2 → ev.2.incoming ≠ none ∨ ev.2.anomaly = some .UNKNOWN_CALL)) := by
  obtain ⟨rows, db', hfetch, hdrain, hrefs, _, images, himages, hout⟩ :=
    drain_outcomes now locked clock_now wrapup limit db
  refine ⟨rows, db', hfetch, hdrain, fun ev hev => ?_⟩
  obtain ⟨_, happlied, f, hf, ho⟩ := hout ev hev
  exact ⟨ho.handled_iff happlied himages hf, ho.retired_iff happlied hrefs hf⟩

/-- A provider reports that the callee has picked up, in a word that names no call state. -/
def inProgress : List Act :=
  [.createAgent 0 7 "ext-1", .login 0 1, .seed 0 7 "+15550001" 100 3,
    .reserveAndCreate 0 0 [] [] (some "mock") "w1" 7, .placeCall 1,
    .accepted (secs 1) (secs 1) 1 "pc-1",
    .ingest (secs 2) "mock" "ev-1" (some "pc-1") "in-progress" (secs 2) ""]

/-- The database in which the event waits. -/
def inProgressDb : Db := (run (step .default) Sys.init inProgress).db

/-- The event is fetched, and its call is known, but it neither is dealt with nor leaves the queue
    later. -/
theorem inProgress_not_handled :
    ∃ ev, (EventRepo.fetchUnapplied [] 200).result inProgressDb = some [ev] ∧
      inProgressDb.Known ev.2 ∧
      ¬ Handled inProgressDb ((drain (secs 3) [] (secs 3) (secs 8) 200).commit inProgressDb) ev ∧
      ¬ Retired ((drain (secs 3) [] (secs 3) (secs 8) 200).commit inProgressDb) ev := by
  have hev : inProgressDb.provider_events.get? 1 = some (EventRepo.ingestedRow (secs 2) "mock"
      "ev-1" (some "pc-1") "in-progress" (secs 2) "") := by decide +kernel
  obtain ⟨c, hc, hof⟩ : ∃ c, inProgressDb.calls.get? 1 = some c ∧ (EventRepo.ingestedRow (secs 2)
      "mock" "ev-1" (some "pc-1") "in-progress" (secs 2) "").IsOf c := by
    have hget : (inProgressDb.calls.get? 1).map (fun c => (c.provider, c.provider_call_id))
        = some ("mock", some "pc-1") := by decide +kernel
    obtain ⟨c, hc, hpair⟩ := Option.map_eq_some_iff.mp hget
    obtain ⟨hprovider, href⟩ := Prod.mk.inj hpair
    exact ⟨c, hc, rfl, hprovider, href⟩
  have hin : (EventRepo.ingestedRow (secs 2) "mock" "ev-1" (some "pc-1") "in-progress" (secs 2)
      "").incoming = none := by decide +kernel
  have hstuck := drain_stuck (secs 3) [] (secs 3) (secs 8) 200 hev ⟨1, c, hc, hof⟩ hin (by decide)
  refine ⟨(1, _), by decide +kernel, ⟨1, c, hc, hof⟩, fun hh => ?_, fun hret => ?_⟩
  · obtain ⟨e', he', hap, _⟩ := hh.known 1 c hc hof
    rw [hstuck, Option.some.injEq] at he'
    rw [← he'] at hap
    cases hap
  · -- an hour later, in the same database
    obtain ⟨e', he', hap⟩ := hret inProgressDb (secs 3600) [] 0 0 200 (by rw [hstuck, hev])
      (by decide)
    rw [drain_stuck _ _ _ _ _ hev ⟨1, c, hc, hof⟩ hin (by decide), Option.some.injEq] at he'
    rw [← he'] at hap
    cases hap

end SmartDialer
