import SmartDialer.Lib.PyJson
import SmartDialer.Repo.Events

namespace SmartDialer

open Python

/-!
# `api/webhooks.py`

The route on which providers deliver their events.  asyncpg and the server are parameters: they
decide which arguments of `INGEST` they take.  An exception that leaves the handler is answered with
status 500.
-/

/-- What asyncpg and the server make of the arguments of `INGEST` that the handler does not convert.
    Without a value they raise `DataError`. -/
structure Driver where
  /-- A `TEXT` parameter; `some none` is NULL. -/
  text : Json → Option (Option String)
  /-- The parameter of `to_timestamp`. -/
  float8 : Json → Option Time
  /-- Is the text one that the `JSONB` column takes? -/
  jsonb : String → Bool

/-- The columns take text, and a number for the timestamp, and nothing else; asyncpg does not
    convert.  That they take every text and every number is an assumption: a text with a NUL, or a
    number beyond the range of a timestamp, would be refused too.  Of the `JSONB` column nothing is
    said: it refuses `\u0000`, for instance. -/
structure Driver.Documented (driver : Driver) : Prop where
  text_str : ∀ s, driver.text (.str s) = some (some s)
  text_null : driver.text .null = some none
  text_other : ∀ v : Json, v.isText = false → driver.text v = none
  float8_number : ∀ v : Json, v.isNumber → ∃ t, driver.float8 v = some t
  float8_other : ∀ v : Json, v.truthy → v.isNumber = false → driver.float8 v = none

/-- What leaves the handler with status 500. -/
inductive WebhookError where
  /-- `payload` has no `get`. -/
  | attributeError (typeName : String)
  /-- asyncpg or the server refuses an argument of `INGEST`. -/
  | dataError (argument : ℕ)
  deriving DecidableEq, Repr

/-- The body of a response with status 200. -/
structure WebhookResponse where
  ok : Bool
  note : Option String
  deriving DecidableEq, Repr

section

variable (quote : String → String) (payload : List (String × Json))

/-- `event_id`. -/
def webhookEventId : String :=
  (((get payload "event_id").or (get payload "id")).or (.str "")).toStr quote

/-- `provider_call_id`. -/
def webhookCallId : Json :=
  (((get payload "provider_call_id").or (get payload "call_id")).or (get payload "CallUUID")).or
    (get payload "RequestUUID")

/-- `str(event_type)`. -/
def webhookEventType : String :=
  ((((get payload "event_type").or (get payload "status")).or (get payload "Status")).or
    (.str "")).toStr quote

end

/-- `ts`, `payload.get("ts") or time.time()`, as it is stored. -/
def Driver.timestamp (driver : Driver) (clock_now : Time) (ts : Json) : Option Time :=
  if ts.truthy then driver.float8 ts else some clock_now

/-- The arguments 3, 5 and 6 of `INGEST`. -/
def Driver.encode (driver : Driver) (clock_now : Time) (call_ref ts : Json) (payload : String) :
    Except WebhookError (Option String × Time) :=
  match driver.text call_ref with
  | none => .error (.dataError 3)
  | some call_ref =>
    match driver.timestamp clock_now ts with
    | none => .error (.dataError 5)
    | some ts => if driver.jsonb payload then .ok (call_ref, ts) else .error (.dataError 6)

/-- `receive_webhook`; the body is `none` when `request.json()` raises.  `clock_now` is
    `time.time()`, and `now` is the database's `now()`. -/
def receiveWebhook (driver : Driver) (quote : String → String) (provider : String)
    (body : Option Json) (clock_now now : Time) (db : Db) :
    Except WebhookError WebhookResponse × Db :=
  match body with
  | none => (.ok ⟨true, some "unparsable body, dropped"⟩, db)
  | some (.obj payload) =>
    let event_id := webhookEventId quote payload
    if event_id = "" then (.ok ⟨true, some "missing event_id, dropped"⟩, db)
    else
      let text := (Json.obj payload).dumps
      match driver.encode clock_now (webhookCallId payload) (get payload "ts") text with
      | .error e => (.error e, db)
      | .ok (call_ref, ts) =>
        (.ok ⟨true, none⟩, (EventRepo.ingest now provider event_id call_ref
          (webhookEventType quote payload) ts text).commit db)
  | some v => (.error (.attributeError v.typeName), db)

end SmartDialer
