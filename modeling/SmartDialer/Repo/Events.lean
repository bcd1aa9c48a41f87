import SmartDialer.Repo.View

namespace SmartDialer

open Relational

/-!
# `repo/events.py`

The provider event ledger: deduplicated ingestion, the locking fetch of the drain, the mark
that ends an event's life, and the sweep that gives up on events of unknown calls.
-/

namespace EventRepo

/-- The row `INGEST` inserts. -/
def ingestedRow (now : Time) (provider event_id : String) (call_ref : Option String)
    (etype : String) (ts : Time) (payload : String) : EventRow :=
  { provider := provider
    provider_event_id := event_id
    provider_call_id := call_ref
    call_id := none
    event_type := etype
    provider_ts := ts
    received_at := now
    applied := false
    anomaly := none
    payload := payload }

/-- `INGEST`: a row for the event, or nothing when it was already recorded
    (`ON CONFLICT (provider, provider_event_id) DO NOTHING`). -/
def ingest (now : Time) (provider event_id : String) (call_ref : Option String) (etype : String)
    (ts : Time) (payload : String) : Tx (Option ℕ) := fun db =>
  if db.provider_events.select
      (fun _ e => e.provider == provider && e.provider_event_id == event_id) = [] then
    .ok (some db.provider_events.nextId,
      { db with
        provider_events := db.provider_events.push
          (ingestedRow now provider event_id call_ref etype ts payload) })
  else .ok (none, db)

/-- `FETCH_UNAPPLIED`: the oldest unapplied events that no concurrent drain holds. -/
def fetchUnapplied (locked : List ℕ) (limit : ℕ) : Tx (List (ℕ × EventRow)) := do
  let db ← get
  let rows := db.provider_events.select fun i e => !e.applied && !locked.contains i
  return (rows.insertionSort fun x y => x.2.received_at ≤ y.2.received_at).take limit

/-- The row `MARK` writes. -/
def markedRow (applied : Bool) (anomaly : Option Anomaly) (call_id : Option ℕ) (e : EventRow) :
    EventRow :=
  { e with applied := applied, anomaly := anomaly, call_id := e.call_id.or call_id }

/-- `MARK`. -/
def mark (event_id : ℕ) (applied : Bool) (anomaly : Option Anomaly) (call_id : Option ℕ) :
    Tx PUnit := do
  let _ ← updateEvents (fun i _ => i == event_id) (markedRow applied anomaly call_id)

/-- The rows `GIVE_UP_UNKNOWN` selects. -/
def isGivenUp (now : Time) (e : EventRow) : Bool :=
  !e.applied && e.anomaly == some .UNKNOWN_CALL && decide (e.received_at < now - secs 60)

/-- The row `GIVE_UP_UNKNOWN` writes. -/
def givenUpRow (e : EventRow) : EventRow := { e with applied := true }

/-- `GIVE_UP_UNKNOWN`. -/
def giveUpUnknown (now : Time) : Tx (List (ℕ × EventRow)) :=
  updateEvents (fun _ e => isGivenUp now e) givenUpRow

/-! ### Effects -/

/-- Ingestion records an event that is new, and nothing otherwise. -/
theorem ingest_run (now : Time) (provider event_id : String) (call_ref : Option String)
    (etype : String) (ts : Time) (payload : String) (db : Db) :
    ∃ o db', (ingest now provider event_id call_ref etype ts payload).run db = .ok (o, db') ∧
      ((o = some db.provider_events.nextId ∧
          (∀ i e, db.provider_events.get? i = some e →
            ¬ (e.provider = provider ∧ e.provider_event_id = event_id)) ∧
          db'.view = { db.view with
            provider_events := db.provider_events.push
              (ingestedRow now provider event_id call_ref etype ts payload) }) ∨
        (o = none ∧ (∃ i e, db.provider_events.get? i = some e ∧ e.provider = provider ∧
          e.provider_event_id = event_id) ∧ db' = db)) := by
  unfold ingest
  rw [StateT.run]
  split
  · rename_i h
    refine ⟨_, _, rfl, Or.inl ⟨rfl, fun i e he hpe => ?_, rfl⟩⟩
    have := Table.select_eq_nil_iff.mp h i e he
    simp [hpe] at this
  · rename_i h
    obtain ⟨⟨i, e⟩, he⟩ := List.exists_mem_of_ne_nil _ h
    obtain ⟨hr, hp⟩ := Table.mem_select.mp he
    simp only [Bool.and_eq_true, beq_iff_eq] at hp
    exact ⟨_, _, rfl, Or.inr ⟨rfl, ⟨i, e, hr, hp⟩, rfl⟩⟩

/-- What the drain fetches is unapplied and not held by another drain, each row once. -/
theorem fetchUnapplied_run (locked : List ℕ) (limit : ℕ) (db : Db) :
    ∃ rows, (fetchUnapplied locked limit).run db = .ok (rows, db) ∧
      (rows.map Prod.fst).Nodup ∧
      ∀ e ∈ rows, db.provider_events.get? e.1 = some e.2 ∧ e.2.applied = false ∧ e.1 ∉ locked := by
  refine ⟨_, rfl, ?_, fun e he => ?_⟩
  · apply List.Nodup.sublist ((List.take_sublist _ _).map _)
    exact ((List.perm_insertionSort _ _).map _).nodup_iff.mpr (Table.select_nodup _ _)
  · have hsel := (List.mem_insertionSort _).mp (List.mem_of_mem_take he)
    obtain ⟨hr, hp⟩ := Table.mem_select.mp hsel
    simp only [Bool.and_eq_true, Bool.not_eq_true', List.contains_eq_mem,
      decide_eq_false_iff_not] at hp
    exact ⟨hr, hp.1, hp.2⟩

/-- Marking a ledger row does not fail, and its effect on the view is that row. -/
theorem mark_run (event_id : ℕ) (applied : Bool) (anomaly : Option Anomaly) (call_id : Option ℕ)
    (db : Db) : ∃ db', (mark event_id applied anomaly call_id).run db = .ok (⟨⟩, db') ∧
      db'.view = db.view.setEvent event_id (markedRow applied anomaly call_id) := ⟨_, rfl, rfl⟩

/-- Giving up on old events is one statement over the ledger. -/
theorem giveUpUnknown_run (now : Time) (db : Db) :
    ∃ rows db', (giveUpUnknown now).run db = .ok (rows, db') ∧
      db'.view = { db.view with
        provider_events := db.provider_events.modify (fun _ e => isGivenUp now e) givenUpRow } :=
  ⟨_, _, rfl, rfl⟩

end EventRepo

end SmartDialer
