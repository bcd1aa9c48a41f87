import SmartDialer.Safety.Controller
import SmartDialer.System

namespace SmartDialer

open Relational Numeric

/-!
# `worker/pacing_loop.py`

One pacing loop, next to everything else that goes on.  A tick reads its snapshot, lets the safety
controller decide on the request of an engine, starts the allocations of the batch, waits for their
providers, and then sweeps: it compares the calls that rang when the snapshot was taken with the
headroom of the same snapshot, and cancels the excess of those that ring by now.

* `PacingLoop` — what a loop is wired with; the request of the engine is an input of the tick.
* `Phase` — how far the tick is.  Between two actions of the loop any action of the system may come
  (`world`), the answers of the providers among them.
* `pulledBack` — the calls that the sweeps have cancelled.  It records what
  `cancel_excess_ringing` counts and is not part of the program.
-/

/-- What a pacing loop is wired with.  The statistics of the resolved calls depend on the time of
    the database. -/
structure PacingLoop where
  cfg : Settings
  campaign_id : ℕ
  worker : String
  resolvedStats : Time → ℕ → Db → Stats

/-- `max(0, ceiling - snapshot.agent_bound_inflight)`. -/
def allowedRinging {fl : Rounding} (limits : SafetyLimits fl) (s : Snapshot) : ℤ :=
  max 0 (overdialCeiling limits s - s.agent_bound_inflight)

namespace PacingLoop

/-- How far a tick is. -/
inductive Phase where
  | idle
  /-- Of the approved allocations `left` are still to start; `batch` holds the calls that the
      others have created. -/
  | placing (snapshot : Snapshot) (left : ℕ) (batch : List ℕ)
  /-- The candidates of the sweep that are still to come. -/
  | sweeping (todo : List ℕ)

/-- The sweep over some candidates. -/
def Phase.sweep : List ℕ → Phase
  | [] => .idle
  | todo => .sweeping todo

/-- The system with the loop of one campaign on it, and the safety context that the loop carries
    from tick to tick. -/
structure State (fl : Rounding) where
  sys : Sys
  ctx : SafetyContext fl
  phase : Phase
  /-- The calls that the sweeps have cancelled, oldest first. -/
  pulledBack : List ℕ

/-- The steps of the loop, between which anything else may happen. -/
inductive Act where
  /-- The loop reads its snapshot, and an engine asks for `n` calls. -/
  | tick (now clock_now : Time) (n : ℤ) (provider_health : Option (List (String × ℚ)))
  /-- An allocation of the batch runs its first transaction. -/
  | allocate (now clock_now : Time) (lockedAgents lockedBorrowers : List ℕ) (pick : Option String)
  /-- All allocations of the batch are back. -/
  | sweep
  /-- The sweep reaches its next candidate. -/
  | cancel (now : Time)
  /-- The sweep gives up on its next candidate after too many deadlocks. -/
  | giveUp
  /-- The leader is gone, and the loop of another worker takes over. -/
  | takeOver
  | world (a : SmartDialer.Act)

variable {fl : Rounding} (p : PacingLoop)

/-- The snapshot of a tick, with the health of the providers if there is a registry. -/
def snapshot (now clock_now : Time) (provider_health : Option (List (String × ℚ))) (db : Db) :
    Snapshot :=
  let s := MetricsRepo.snapshot (p.resolvedStats now) p.campaign_id clock_now true db
  match provider_health with
  | some health => s.withHealth health
  | none => s

/-- One step of the loop, or of the system around it. -/
def step (l : State fl) : Act → State fl
  | .tick now clock_now n provider_health =>
    match l.phase with
    | .idle =>
      let snapshot := p.snapshot now clock_now provider_health l.sys.db
      let out := evaluate ⟨p.campaign_id, n⟩ snapshot l.ctx
      { l with ctx := out.2, phase := .placing snapshot out.1.approved.toNat [] }
    | _ => l
  | .allocate now clock_now lockedAgents lockedBorrowers pick =>
    match l.phase with
    | .placing snapshot (left + 1) batch =>
      let x := reserveAndCreate now lockedAgents lockedBorrowers pick p.worker p.campaign_id
        (reserveUntil clock_now p.cfg)
      { l with
        sys := SmartDialer.step p.cfg l.sys (.reserveAndCreate now clock_now lockedAgents
          lockedBorrowers pick p.worker p.campaign_id)
        phase := .placing snapshot left <|
          match x.result l.sys.db with
          | some (some r) => r.call_id :: batch
          | _ => batch }
    | _ => l
  | .sweep =>
    match l.phase with
    | .placing snapshot 0 batch =>
      if ∀ call_id ∈ batch, l.sys.attempts.get? call_id = none then
        let allowed_ringing := allowedRinging l.ctx.limits snapshot
        if snapshot.calls_ringing > allowed_ringing then
          let todo := (excessRinging p.campaign_id allowed_ringing).result l.sys.db
          { l with phase := .sweep (todo.getD []) }
        else { l with phase := .idle }
      else l
    | _ => l
  | .cancel now =>
    match l.phase with
    | .sweeping (call_id :: todo) =>
      { l with
        sys := SmartDialer.step p.cfg l.sys (.pullback now call_id)
        phase := .sweep todo
        pulledBack :=
          if (cancelCandidate now call_id).result l.sys.db = some true then
            l.pulledBack ++ [call_id]
          else l.pulledBack }
    | _ => l
  | .giveUp =>
    match l.phase with
    | .sweeping (_ :: todo) => { l with phase := .sweep todo }
    | _ => l
  | .takeOver => { l with ctx := ⟨l.ctx.limits, 0⟩, phase := .idle }
  | .world a => { l with sys := SmartDialer.step p.cfg l.sys a }

/-! ### Where a run begins -/

/-- The empty system with its campaigns, which nothing in the program writes. -/
def opened (campaigns : Table CampaignRow) : Sys :=
  { Sys.init with db := { Db.empty with campaigns := campaigns } }

/-- The actions that set up a campaign: agents and borrowers come, and there are no calls yet. -/
def isSetup : SmartDialer.Act → Bool
  | .createAgent .. | .login .. | .logout .. | .pause .. | .seed .. => true
  | _ => false

/-- A loop that is about to start, after the campaigns have been set up. -/
def start (limits : SafetyLimits fl) (campaigns : Table CampaignRow)
    (setup : List SmartDialer.Act) : State fl :=
  ⟨run (SmartDialer.step p.cfg) (opened campaigns) setup, ⟨limits, 0⟩, .idle, []⟩

end PacingLoop

end SmartDialer
