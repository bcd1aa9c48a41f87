import SmartDialer.System
import SmartDialer.Lib.Simulation
import SmartDialer.Correctness.CallRows

namespace SmartDialer

open Relational

/-!
# The floor

What allocation is about, without the ledger of events, the drains and the row versions: the
agents, the borrowers, their calls, and the attempts that are still to come back from a provider.
`Floor.Step` lists the moves on it, each with all it requires and all it changes; the statements
that a transaction is made of, and the order of the writes of a drain, are not visible here.

* A call is `allotted` an agent and a borrower; then it is `dialed` or `refused`, or the attempt
  is `forgotten`.  The second transaction may also come too late (`dialedLate`, `refusedLate`).
* A dialed call may ring, is `connected` to its agent, and ends by an event or a pullback
  (`ended`) or because its lease ran out (`orphaned`).
* The remaining moves concern the staff, the borrowers and the sweeps of the reaper.
-/

/-- What the moves read and write. -/
structure Floor where
  agents : Table AgentRow
  borrowers : Table BorrowerRow
  calls : Table CallRow
  attempts : Table Attempt

/-- The floor of a view, with the attempts in flight. -/
def View.floor (v : View) (attempts : Table Attempt) : Floor :=
  ⟨v.agents, v.borrowers, v.calls, attempts⟩

/-- The floor of a state. -/
def Sys.floor (s : Sys) : Floor := s.db.view.floor s.attempts

/-- The names of the moves.  The ones that a result may restrict carry what they concern. -/
inductive Move where
  | hired | staffed (agent_id : ℕ) | seeded | unreserved | unclaimed
  | allotted | placed | forgotten | dialed | dialedLate
  | refused | refusedLate (attempt : Attempt)
  | rang | connected | ended | orphaned (call_id : ℕ)
  | reclaimed | wrapupOver | unlocked (now : Time)
  deriving Repr

/-- The moves that no result of this development restricts. -/
def Move.Routine : Move → Prop
  | .staffed _ | .refusedLate _ | .orphaned _ | .unlocked _ => False
  | _ => True

/-- The moves of the floor. -/
inductive Floor.Step (F : Floor) : Move → Floor → Prop
  /-- A new agent is offline. -/
  | hired {r : AgentRow} (hr : r.state = .OFFLINE) :
      Step F .hired { F with agents := F.agents.push r }
  /-- Somebody logs in or out, or pauses. -/
  | staffed {now : Time} {agent_id : ℕ} {state : AgentState}
      (hs : state = .AVAILABLE ∨ state = .OFFLINE ∨ state = .PAUSED) :
      Step F (.staffed agent_id) { F with
        agents := F.agents.alter agent_id (AgentRepo.forcedRow now state none none none) }
  | seeded {now : Time} {campaign_id : ℕ} {phone : String} {priority : ℤ} {max_attempts : ℕ} :
      Step F .seeded { F with
        borrowers := F.borrowers.push
          (BorrowerRepo.seededRow now campaign_id phone priority max_attempts) }
  /-- An available agent is reserved and released in one transaction. -/
  | unreserved {now lease : Time} {worker : String} {agent_id : ℕ} {a : AgentRow}
      (ha : F.agents.get? agent_id = some a) (hs : a.state = .AVAILABLE) :
      Step F .unreserved { F with
        agents := (F.agents.alter agent_id (AgentRepo.reservedRow now worker lease)).alter agent_id
          (AgentRepo.forcedRow now .AVAILABLE none none none) }
  /-- A pending borrower is claimed and released in one transaction. -/
  | unclaimed {lease : Time} {worker : String} {borrower_id : ℕ} {b : BorrowerRow}
      (hb : F.borrowers.get? borrower_id = some b) (hs : b.state = .PENDING) :
      Step F .unclaimed { F with
        borrowers := (F.borrowers.alter borrower_id (BorrowerRepo.lockedRow worker lease)).alter
          borrower_id BorrowerRepo.unlockedRow }
  /-- A call is created for an available agent and the next attempt on a pending borrower, under
      a key that is free. -/
  | allotted {now lease : Time} {worker provider phone : String}
      {campaign_id agent_id borrower_id : ℕ} {a : AgentRow} {b : BorrowerRow}
      (ha : F.agents.get? agent_id = some a) (has : a.state = .AVAILABLE)
      (hb : F.borrowers.get? borrower_id = some b) (hbs : b.state = .PENDING)
      (hbc : b.campaign_id = campaign_id)
      (hfree : ∀ j c, F.calls.get? j = some c →
        c.idempotency_key ≠ idempotencyKey campaign_id borrower_id (b.attempt_count + 1)) :
      Step F .allotted
        { agents := F.agents.alter agent_id (AgentRepo.reservedRow now worker lease)
          borrowers := F.borrowers.alter borrower_id (BorrowerRepo.lockedRow worker lease)
          calls := F.calls.push (CallRepo.createdRow now campaign_id agent_id borrower_id provider
            (b.attempt_count + 1) (idempotencyKey campaign_id borrower_id (b.attempt_count + 1))
            worker lease)
          attempts := F.attempts.insertAt F.calls.nextId
            ⟨⟨agent_id, borrower_id, phone, provider, F.calls.nextId,
              idempotencyKey campaign_id borrower_id (b.attempt_count + 1)⟩, worker, false⟩ }
  | placed {call_id : ℕ} :
      Step F .placed { F with
        attempts := F.attempts.modify (fun i _ => i == call_id) fun a => { a with placed := true } }
  | forgotten {call_id : ℕ} : Step F .forgotten { F with attempts := F.attempts.erase call_id }
  /-- The provider accepted a reserved call. -/
  | dialed {now lease : Time} {worker pcid : String} {call_id : ℕ} {att : Attempt} {c : CallRow}
      (hatt : F.attempts.get? call_id = some att)
      (hc : F.calls.get? att.reservation.call_id = some c) (hs : c.state = .RESERVED) :
      Step F .dialed { F with
        agents := F.agents.alter att.reservation.agent_id (AgentRepo.forcedRow now .DIALING
          (some worker) (some lease) (some att.reservation.call_id))
        calls := F.calls.alter att.reservation.call_id
          (CallRepo.advancedRow now .INITIATED (some pcid) (some lease) none)
        attempts := F.attempts.erase call_id }
  /-- The provider accepted a call that is reserved no more. -/
  | dialedLate {now lease : Time} {worker : String} {call_id : ℕ} {att : Attempt}
      (hatt : F.attempts.get? call_id = some att)
      (hlate : ∀ c, F.calls.get? att.reservation.call_id = some c → c.state ≠ .RESERVED) :
      Step F .dialedLate { F with
        agents := F.agents.alter att.reservation.agent_id (AgentRepo.forcedRow now .DIALING
          (some worker) (some lease) (some att.reservation.call_id))
        attempts := F.attempts.erase call_id }
  /-- The provider refused a live call. -/
  | refused {now backoff : Time} {call_id : ℕ} {att : Attempt} {c : CallRow} {f : CallRow → CallRow}
      (hatt : F.attempts.get? call_id = some att)
      (hc : F.calls.get? att.reservation.call_id = some c) (hlive : c.state.isTerminal = false)
      (hf : c.Evolves (f c)) (hend : (f c).state.isTerminal = true) :
      Step F .refused { F with
        agents := F.agents.alter att.reservation.agent_id
          (AgentRepo.forcedRow now .AVAILABLE none none none)
        borrowers := F.borrowers.alter att.reservation.borrower_id
          (BorrowerRepo.rescheduledRow now backoff)
        calls := F.calls.alter att.reservation.call_id f
        attempts := F.attempts.erase call_id }
  /-- The provider refused a call that has ended. -/
  | refusedLate {now backoff : Time} {call_id : ℕ} {att : Attempt}
      (hatt : F.attempts.get? call_id = some att)
      (hlate : ∀ c, F.calls.get? att.reservation.call_id = some c → c.state.isTerminal = true) :
      Step F (.refusedLate att) { F with
        agents := F.agents.alter att.reservation.agent_id
          (AgentRepo.forcedRow now .AVAILABLE none none none)
        borrowers := F.borrowers.alter att.reservation.borrower_id
          (BorrowerRepo.rescheduledRow now backoff)
        attempts := F.attempts.erase call_id }
  | rang {call_id : ℕ} {c : CallRow} {f : CallRow → CallRow} (hc : F.calls.get? call_id = some c)
      (hs : c.state = .INITIATED) (hf : c.Evolves (f c)) (hring : (f c).state = .RINGING) :
      Step F .rang { F with calls := F.calls.alter call_id f }
  /-- An answered call is connected to the agent that is dialing it. -/
  | connected {now : Time} {call_id agent_id : ℕ} {c : CallRow} {f : CallRow → CallRow}
      (hc : F.calls.get? call_id = some c) (hs : c.state.isRinging = true)
      (hagent : c.agent_id = some agent_id) (hf : c.Evolves (f c))
      (hconn : (f c).state = .CONNECTED) :
      Step F .connected { F with
        agents := F.agents.alter agent_id (AgentRepo.forcedRow now .CONNECTED none none none)
        calls := F.calls.alter call_id f }
  /-- A dialed call ends. -/
  | ended {now backoff : Time} {lease : Option Time} {call_id agent_id : ℕ} {c : CallRow}
      {f : CallRow → CallRow} {agent_state : AgentState} {final_state : CallState}
      (hc : F.calls.get? call_id = some c) (hlive : c.state.isTerminal = false)
      (hdial : c.state ≠ .RESERVED) (hagent : c.agent_id = some agent_id) (hf : c.Evolves (f c))
      (hstate : (f c).state = final_state) (hend : final_state.isTerminal = true)
      (hs : agent_state = .AVAILABLE ∨ agent_state = .WRAP_UP) :
      Step F .ended { F with
        agents := F.agents.alter agent_id (AgentRepo.forcedRow now agent_state none lease none)
        borrowers := F.borrowers.alter c.borrower_id
          (BorrowerRepo.endedRow now final_state backoff)
        calls := F.calls.alter call_id f }
  /-- A live call whose lease ran out is failed. -/
  | orphaned {now backoff : Time} {call_id agent_id : ℕ} {c : CallRow} {f : CallRow → CallRow}
      (hc : F.calls.get? call_id = some c) (hlive : c.state.isTerminal = false)
      (hagent : c.agent_id = some agent_id) (hf : c.Evolves (f c))
      (hend : (f c).state.isTerminal = true) :
      Step F (.orphaned call_id) { F with
        agents := F.agents.alter agent_id (AgentRepo.forcedRow now .AVAILABLE none none none)
        borrowers := F.borrowers.alter c.borrower_id (BorrowerRepo.rescheduledRow now backoff)
        calls := F.calls.alter call_id f }
  /-- The leases of agents that ran out are reclaimed; no call yet to be dialed has such a lease. -/
  | reclaimed {now now_ts : Time} (hres : ∀ i c, F.calls.get? i = some c →
        c.state = .QUEUED ∨ c.state = .RESERVED → before c.lease_expires_at now_ts = false) :
      Step F .reclaimed { F with
        agents := F.agents.modify (fun _ a => isReclaimed now_ts a) (reclaimedRow now) }
  | wrapupOver {now now_ts : Time} :
      Step F .wrapupOver { F with
        agents := F.agents.modify (fun _ a => isWrapupOver now_ts a) (wrapupReleasedRow now) }
  /-- Expired locks of borrowers are removed. -/
  | unlocked {now : Time} :
      Step F (.unlocked now) { F with
        borrowers := F.borrowers.modify (fun _ b => BorrowerRepo.isLockExpired now b)
          BorrowerRepo.unlockedRow }

end SmartDialer
