import SmartDialer.Api.Webhooks
import SmartDialer.System

namespace SmartDialer

open Python Relational

/-!
# The webhook's answer

What the handler answers is decided by the body alone, whatever the ledger holds.  An object with an
event id reaches the database, and there the arguments that the handler passes on unconverted have
to be ones that asyncpg takes; a body that is no object does not get that far.

* `webhookEventId_eq_empty`: the id is missing when both of its names are empty.
* `encode_ok_iff`: the arguments that are taken.
* `receiveWebhook_ok_iff`: the bodies that are answered with 200.
* `receiveWebhook_error_db`: the others leave the database as it was.
* `receiveWebhook_step`: in the system, a request is the action `ingest`, or nothing.
* `inserted_iff`: an answered body is recorded exactly when its event is new.
* `webhook_acknowledged_iff`: the bodies that are both answered and recorded as they should be.
-/

section

variable {driver : Driver} {quote : String → String} {provider : String} {body : Option Json}
  {payload : List (String × Json)} {clock_now now : Time} {db : Db}

/-- The id is missing when both of its names are empty. -/
theorem webhookEventId_eq_empty : webhookEventId quote payload = "" ↔
    (get payload "event_id").truthy = false ∧ (get payload "id").truthy = false := by
  constructor
  · intro h
    have hnone : ¬ (((get payload "event_id").or (get payload "id")).or (.str "")).truthy :=
      fun htrue => Json.str_ne_empty htrue h
    simpa using hnone
  · rintro ⟨hevent, hid⟩
    unfold webhookEventId
    rw [Json.or_of_false (by simp [hevent, hid])]
    rfl

/-! ### The arguments of `INGEST` -/

/-- Text arguments are taken exactly when they are text, or null. -/
theorem Driver.Documented.text_isSome (h : driver.Documented) {v : Json} :
    (driver.text v).isSome = v.isText := by
  cases htext : v.isText with
  | false => simp [h.text_other v htext]
  | true =>
    cases v with
    | null => simp [h.text_null]
    | str s => simp [h.text_str]
    | bool | int | float | arr | obj => exact absurd htext Bool.false_ne_true

/-- A timestamp is taken exactly when it is falsy, in which case the clock is used, or a number. -/
theorem Driver.Documented.timestamp_isSome (h : driver.Documented) (clock_now : Time) {ts : Json} :
    (driver.timestamp clock_now ts).isSome ↔ (ts.truthy → ts.isNumber) := by
  unfold Driver.timestamp
  split
  · rename_i htrue
    cases hnumber : ts.isNumber with
    | false => simp [h.float8_other ts htrue hnumber, htrue]
    | true =>
      obtain ⟨t, ht⟩ := h.float8_number ts hnumber
      simp [ht]
  · rename_i hfalse
    exact ⟨fun _ htrue => absurd htrue hfalse, fun _ => rfl⟩

/-- The arguments that are taken. -/
theorem encode_ok_iff (h : driver.Documented) (clock_now : Time) (call_ref ts : Json)
    (text : String) :
    (∃ args, driver.encode clock_now call_ref ts text = .ok args) ↔
      call_ref.isText ∧ (ts.truthy → ts.isNumber) ∧ driver.jsonb text := by
  rw [← h.text_isSome, ← h.timestamp_isSome clock_now]
  unfold Driver.encode
  cases driver.text call_ref with
  | none => simp
  | some ref =>
    cases driver.timestamp clock_now ts with
    | none => simp
    | some t => cases driver.jsonb text <;> simp

/-! ### The answer -/

/-- What the handler does. -/
theorem receiveWebhook_cases (driver : Driver) (quote : String → String) (provider : String)
    (body : Option Json) (clock_now now : Time) (db : Db) :
    let r := receiveWebhook driver quote provider body clock_now now db
    (body = none ∧ r = (.ok ⟨true, some "unparsable body, dropped"⟩, db)) ∨
      (∃ v, body = some v ∧ (∀ payload, v ≠ .obj payload) ∧
        r = (.error (.attributeError v.typeName), db)) ∨
      ∃ payload, body = some (.obj payload) ∧
        (webhookEventId quote payload = "" ∧
            r = (.ok ⟨true, some "missing event_id, dropped"⟩, db) ∨
          webhookEventId quote payload ≠ "" ∧
            ((∃ e, driver.encode clock_now (webhookCallId payload) (get payload "ts")
                  (Json.obj payload).dumps = .error e ∧ r = (.error e, db)) ∨
              ∃ call_ref ts, driver.encode clock_now (webhookCallId payload) (get payload "ts")
                  (Json.obj payload).dumps = .ok (call_ref, ts) ∧
                r = (.ok ⟨true, none⟩, (EventRepo.ingest now provider (webhookEventId quote payload)
                  call_ref (webhookEventType quote payload) ts (Json.obj payload).dumps).commit
                  db))) := by
  intro r
  cases body with
  | none => exact .inl ⟨rfl, rfl⟩
  | some v =>
    right
    cases v with
    -- only an object has the `get` that the handler calls
    | obj payload =>
      refine .inr ⟨payload, rfl, ?_⟩
      by_cases hid : webhookEventId quote payload = ""
      · exact .inl ⟨hid, if_pos hid⟩
      · refine .inr ⟨hid, ?_⟩
        cases hargs : driver.encode clock_now (webhookCallId payload) (get payload "ts")
          (Json.obj payload).dumps with
        -- the driver encodes the arguments before it sends anything: nothing is inserted
        | error e =>
          refine .inl ⟨e, rfl, ?_⟩
          simp only [r, receiveWebhook, if_neg hid, hargs]
        | ok args =>
          refine .inr ⟨args.1, args.2, rfl, ?_⟩
          simp only [r, receiveWebhook, if_neg hid, hargs]
    | null | bool | int | float | str | arr => exact .inl ⟨_, rfl, by simp, rfl⟩

/-- An object whose unconverted fields are of the types of their columns. -/
def Recordable (driver : Driver) (payload : List (String × Json)) : Prop :=
  (webhookCallId payload).isText ∧
    ((get payload "ts").truthy → (get payload "ts").isNumber) ∧
    driver.jsonb (Json.obj payload).dumps

/-- The bodies that are answered with 200. -/
theorem receiveWebhook_ok_iff (h : driver.Documented) (quote : String → String) (provider : String)
    (body : Option Json) (clock_now now : Time) (db : Db) :
    (∃ response, (receiveWebhook driver quote provider body clock_now now db).1 = .ok response) ↔
      body = none ∨ ∃ payload, body = some (.obj payload) ∧
        (webhookEventId quote payload = "" ∨ Recordable driver payload) := by
  obtain ⟨hbody, hr⟩ | ⟨v, hbody, hobj, hr⟩ | ⟨payload, hbody, hcases⟩ :=
    receiveWebhook_cases driver quote provider body clock_now now db
  · rw [hr]
    exact ⟨fun _ => .inl hbody, fun _ => ⟨_, rfl⟩⟩
  · rw [hr, hbody]
    simp [hobj]
  · -- an object: acknowledged when it is dropped or when its arguments can be encoded
    have hok := encode_ok_iff h clock_now (webhookCallId payload) (get payload "ts")
      (Json.obj payload).dumps
    have hcond : (body = none ∨ ∃ payload, body = some (.obj payload) ∧
        (webhookEventId quote payload = "" ∨ Recordable driver payload)) ↔
        webhookEventId quote payload = "" ∨ Recordable driver payload := by
      simp [hbody]
    rw [hcond]
    obtain ⟨hid, hr⟩ | ⟨hid, ⟨e, hargs, hr⟩ | ⟨call_ref, ts, hargs, hr⟩⟩ := hcases
    · rw [hr]
      exact ⟨fun _ => .inl hid, fun _ => ⟨_, rfl⟩⟩
    · have hnot : ¬ Recordable driver payload := by
        intro hrec
        obtain ⟨args, hargs'⟩ := hok.mpr hrec
        rw [hargs] at hargs'
        cases hargs'
      rw [hr]
      simp [hid, hnot]
    · rw [hr]
      exact ⟨fun _ => .inr (hok.mp ⟨_, hargs⟩), fun _ => ⟨_, rfl⟩⟩

/-- The others leave the database as it was. -/
theorem receiveWebhook_error_db {e : WebhookError}
    (h : (receiveWebhook driver quote provider body clock_now now db).1 = .error e) :
    (receiveWebhook driver quote provider body clock_now now db).2 = db := by
  obtain ⟨_, hr⟩ | ⟨_, _, _, hr⟩ | ⟨payload, _, ⟨_, hr⟩ | ⟨_, ⟨_, _, hr⟩ | ⟨_, _, _, hr⟩⟩⟩ :=
    receiveWebhook_cases driver quote provider body clock_now now db
  · rw [hr]
  · rw [hr]
  · rw [hr]
  · rw [hr]
  · rw [hr] at h
    cases h

/-- In the system, a request is the action `ingest`, or nothing. -/
theorem receiveWebhook_step (cfg : Settings) (s : Sys) :
    (receiveWebhook driver quote provider body clock_now now s.db).2 = s.db ∨
      ∃ event_id call_ref event_type ts payload,
        (receiveWebhook driver quote provider body clock_now now s.db).2 =
          (step cfg s (.ingest now provider event_id call_ref event_type ts payload)).db := by
  obtain ⟨_, hr⟩ | ⟨_, _, _, hr⟩ | ⟨payload, _, ⟨_, hr⟩ | ⟨_, ⟨_, _, hr⟩ |
    ⟨call_ref, ts, _, hr⟩⟩⟩ := receiveWebhook_cases driver quote provider body clock_now now s.db
  · exact .inl (by rw [hr])
  · exact .inl (by rw [hr])
  · exact .inl (by rw [hr])
  · exact .inl (by rw [hr])
  · refine .inr ⟨webhookEventId quote payload, call_ref, webhookEventType quote payload, ts,
      (Json.obj payload).dumps, ?_⟩
    rw [hr]
    rfl

/-! ### The ledger -/

/-- A row has come. -/
def Inserted (before after : Db) : Prop :=
  ∃ i e, before.provider_events.get? i = none ∧ after.provider_events.get? i = some e

/-- An object with an id that is not in the ledger. -/
def NewEvent (quote : String → String) (provider : String) (body : Option Json) (db : Db) : Prop :=
  ∃ payload, body = some (.obj payload) ∧ webhookEventId quote payload ≠ "" ∧
    ∀ i e, db.provider_events.get? i = some e →
      ¬ (e.provider = provider ∧ e.provider_event_id = webhookEventId quote payload)

/-- Where the ledger stays as it is, no row has come. -/
theorem not_inserted_self (db : Db) : ¬ Inserted db db := by
  rintro ⟨i, e, hnone, hsome⟩
  rw [hnone] at hsome
  cases hsome

/-- An answered body is recorded exactly when its event is new. -/
theorem inserted_iff {response : WebhookResponse}
    (h : (receiveWebhook driver quote provider body clock_now now db).1 = .ok response) :
    Inserted db (receiveWebhook driver quote provider body clock_now now db).2 ↔
      NewEvent quote provider body db := by
  obtain ⟨hbody, hr⟩ | ⟨_, _, _, hr⟩ | ⟨payload, hbody, ⟨hid, hr⟩ | ⟨hid, ⟨_, _, hr⟩ |
    ⟨call_ref, ts, _, hr⟩⟩⟩ := receiveWebhook_cases driver quote provider body clock_now now db
  · rw [hr]
    refine iff_of_false (not_inserted_self db) ?_
    rintro ⟨_, hsome, _⟩
    rw [hbody] at hsome
    cases hsome
  · rw [hr] at h
    cases h
  · rw [hr]
    refine iff_of_false (not_inserted_self db) ?_
    rintro ⟨payload', hsome, hid', _⟩
    rw [hbody] at hsome
    cases hsome
    exact hid' hid
  · rw [hr] at h
    cases h
  · rw [hr]
    obtain ⟨o, db', hrun, hcases⟩ := EventRepo.ingest_run now provider
      (webhookEventId quote payload) call_ref (webhookEventType quote payload) ts
      (Json.obj payload).dumps db
    rw [(Txn.commit_of_run hrun).1]
    -- ON CONFLICT DO NOTHING: the row is new, or its key stands already
    obtain ⟨_, hnew, hview⟩ | ⟨_, ⟨i, e, hi, hkey⟩, hsame⟩ := hcases
    · refine iff_of_true ⟨db.provider_events.nextId, EventRepo.ingestedRow now provider
        (webhookEventId quote payload) call_ref (webhookEventType quote payload) ts
        (Json.obj payload).dumps, Table.get?_nextId _, ?_⟩ ⟨payload, hbody, hid, hnew⟩
      have htable : db'.provider_events = _ := congrArg View.provider_events hview
      rw [htable]
      simp
    · rw [hsame]
      refine iff_of_false (not_inserted_self db) ?_
      rintro ⟨payload', hsome, _, hnew⟩
      rw [hbody] at hsome
      cases hsome
      exact hnew i e hi hkey

/-- The handler returns, and has recorded the event exactly when it is new. -/
def Acknowledged (driver : Driver) (quote : String → String) (provider : String)
    (body : Option Json) (clock_now now : Time) (db : Db) : Prop :=
  let r := receiveWebhook driver quote provider body clock_now now db
  (∃ response, r.1 = .ok response) ∧ (Inserted db r.2 ↔ NewEvent quote provider body db)

/-- **The webhook's answer.** The handler does its work if and only if the body is
    * not parsed, or
    * an object without an event id, or
    * an object whose call reference is a string or null, whose `ts` is a number or empty, and whose
      text the `JSONB` column takes.

    Any other JSON value has no `get`, and asyncpg raises on an argument of another type rather than
    convert it; the answer is a 500 then. -/
theorem webhook_acknowledged_iff (driver : Driver) (h : driver.Documented)
    (quote : String → String) (provider : String) (body : Option Json) (clock_now now : Time)
    (db : Db) :
    Acknowledged driver quote provider body clock_now now db ↔
      body = none ∨ ∃ payload, body = some (.obj payload) ∧
        (webhookEventId quote payload = "" ∨ Recordable driver payload) := by
  rw [← receiveWebhook_ok_iff h quote provider body clock_now now db]
  constructor
  · exact fun hack => hack.1
  · rintro ⟨response, hok⟩
    exact ⟨⟨response, hok⟩, inserted_iff hok⟩

/-- A driver that takes what the columns are for. -/
def Driver.strict : Driver where
  text := fun
    | .str s => some (some s)
    | .null => some none
    | _ => none
  float8 := fun
    | .bool b => some (secs b.toInt)
    | .int n => some (secs n)
    -- no input here has a float
    | .float _ => some 0
    | _ => none
  jsonb := fun _ => true

/-- The strict driver is one of those that the result is about. -/
theorem Driver.strict_documented : Driver.strict.Documented where
  text_str := fun _ => rfl
  text_null := rfl
  text_other := by
    intro v hv
    cases v with
    | null | str => exact absurd hv (by simp [Json.isText])
    | bool | int | float | arr | obj => rfl
  float8_number := by
    intro v hv
    cases v with
    | bool | int | float => exact ⟨_, rfl⟩
    | null | str | arr | obj => exact absurd hv (by simp [Json.isNumber])
  float8_other := by
    intro v htrue hv
    cases v with
    | bool | int | float => exact absurd hv (by simp [Json.isNumber])
    | null | str | arr | obj => rfl

/-- A usual body. -/
theorem webhook_acknowledged_iff_usual :
    Acknowledged .strict id "mock" (some (.obj [("event_id", .str "e-1"), ("call_id", .str "pc-1"),
      ("status", .str "answered"), ("ts", .int 1700000000)])) 0 0 Db.empty :=
  (webhook_acknowledged_iff .strict Driver.strict_documented id "mock" _ 0 0 Db.empty).mpr
    (.inr ⟨_, rfl, .inr ⟨by decide, fun _ => by decide, rfl⟩⟩)

/-- A body that is no object, and an object whose call reference is a number. -/
theorem webhook_not_acknowledged :
    ¬ Acknowledged .strict id "mock" (some (.arr [])) 0 0 Db.empty ∧
      ¬ Acknowledged .strict id "mock" (some (.obj [("event_id", .str "e-1"),
        ("provider_call_id", .int 42)])) 0 0 Db.empty := by
  constructor
  · rintro ⟨⟨response, h⟩, _⟩
    cases h
  · rintro ⟨⟨response, h⟩, _⟩
    have herror : (receiveWebhook .strict id "mock" (some (.obj [("event_id", .str "e-1"),
        ("provider_call_id", .int 42)])) 0 0 Db.empty).1 = .error (.dataError 3) := by
      decide +kernel
    rw [herror] at h
    cases h

end

end SmartDialer
