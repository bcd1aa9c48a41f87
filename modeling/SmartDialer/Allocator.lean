import SmartDialer.Repo.Agents
import SmartDialer.Repo.Borrowers
import SmartDialer.Repo.Calls

namespace SmartDialer

open Relational

/-!
# `allocator/allocator.py`

The transactions of one allocation.  The first reserves an agent, claims a borrower and
creates the call row; the provider is then called outside any transaction; the second
records what came of it.  Between the two lies a provider round trip of unbounded length.

A deadlock rolls a transaction back and it is tried again a bounded number of times: a try
that deadlocked has no effect, so each definition here is one try.
-/

/-- The fields of `Settings` that the transactions read; the durations are in seconds. -/
structure Settings where
  agent_reserve_lease_s : ℤ
  call_setup_lease_s : ℤ
  wrapup_s : ℤ
  caller_id : String
  deriving DecidableEq, Repr

/-- The settings in an empty environment. -/
def Settings.default : Settings := ⟨30, 45, 8, "+10000000000"⟩

/-- `reserve_until` of `leases.py`. -/
def reserveUntil (clock_now : Time) (cfg : Settings) : Time :=
  clock_now + secs cfg.agent_reserve_lease_s

/-- `dial_until` of `leases.py`. -/
def dialUntil (clock_now : Time) (cfg : Settings) : Time :=
  clock_now + secs cfg.call_setup_lease_s

/-- What `_reserve_and_create` returns: the parts of the agent, the borrower and the provider
    that the rest of `_allocate_one` uses, the new call and its key. -/
structure Reservation where
  agent_id : ℕ
  borrower_id : ℕ
  phone : String
  provider : String
  call_id : ℕ
  idem : String
  deriving DecidableEq, Repr

/-- `CallRequest` of `providers/base.py`. -/
structure CallRequest where
  call_id : ℕ
  to_number : String
  from_number : String
  idempotency_key : String
  deriving DecidableEq, Repr

/-- `_reserve_and_create`: `none` when there is legitimately nothing to do.  `pick` is what
    `registry.pick()` answers, the locked lists are the rows that `SKIP LOCKED` passes over. -/
def reserveAndCreate (now : Time) (lockedAgents lockedBorrowers : List ℕ) (pick : Option String)
    (worker : String) (campaign_id : ℕ) (lease : Time) : Tx (Option Reservation) := do
  let cands ← AgentRepo.pickCandidates lockedAgents campaign_id 1
  match cands.head? with
  | none => return none
  | some a =>
    if ← AgentRepo.reserve now a.1 a.2 worker lease then
      match ← BorrowerRepo.claimOne now lockedBorrowers campaign_id worker lease with
      | none =>
        let _ ← AgentRepo.release now a.1
        return none
      | some b =>
        match pick with
        | none =>
          let _ ← AgentRepo.release now a.1
          BorrowerRepo.release b.1
          return none
        | some provider =>
          let attempt_no := b.2.attempt_count + 1
          let idem := idempotencyKey campaign_id b.1 attempt_no
          let call_id ←
            CallRepo.create now campaign_id a.1 b.1 provider attempt_no idem worker lease
          return some ⟨a.1, b.1, b.2.phone, provider, call_id, idem⟩
    else return none

/-- The request that `_allocate_one` makes of the provider. -/
def callRequest (cfg : Settings) (r : Reservation) : CallRequest :=
  ⟨r.call_id, r.phone, cfg.caller_id, r.idem⟩

/-- The transaction of `_allocate_one` after a `ProviderError`. -/
def recordRejected (now : Time) (r : Reservation) : Tx PUnit := do
  let _ ← CallRepo.fail now r.call_id "PROVIDER_REJECTED"
  let _ ← AgentRepo.release now r.agent_id
  BorrowerRepo.reschedule now r.borrower_id (secs 60)

/-- The transaction of `_allocate_one` after the provider accepted the call. -/
def recordInitiated (now : Time) (r : Reservation) (pcid worker : String) (dial_lease : Time) :
    Tx PUnit := do
  let _ ← CallRepo.advance now r.call_id .INITIATED (some pcid) (some dial_lease) none
  let _ ← AgentRepo.forceState now r.agent_id .DIALING (some worker) (some dial_lease)
    (some r.call_id)

/-- The first transaction of `cancel_excess_ringing`: the oldest calls beyond `allowed_ringing` that
    nobody has answered yet. -/
def excessRinging (campaign_id : ℕ) (allowed_ringing : ℤ) : Tx (List ℕ) := do
  let current ← CallRepo.countRinging campaign_id
  let excess := max 0 ((current : ℤ) - allowed_ringing)
  if excess = 0 then return [] else CallRepo.listRingingOldest campaign_id excess.toNat

/-- The transaction of `cancel_excess_ringing` for one candidate, which was selected in an
    earlier transaction and may be in any state by now.  True when it was cancelled. -/
def cancelCandidate (now : Time) (call_id : ℕ) : Tx Bool := do
  match ← CallRepo.cancelIfNotAnswered now call_id "SAFETY_PULLBACK" with
  | none => return false
  | some row =>
    match row.2.agent_id with
    | some agent_id =>
      let _ ← AgentRepo.release now agent_id
    | none => pure ⟨⟩
    BorrowerRepo.onCallTerminal now row.2.borrower_id .CANCELLED (secs 30)
    return true

/-! ### Effects -/

/-- The outcomes of `reserveAndCreate`: what it returns and the view it leaves. -/
inductive Allocated (now : Time) (lockedBorrowers : List ℕ) (worker : String) (campaign_id : ℕ)
    (lease : Time) (db : Db) : Option Reservation → View → Prop
  /-- No agent is available. -/
  | noAgent : Allocated now lockedBorrowers worker campaign_id lease db none db.view
  /-- The agent is released again, since no borrower can be claimed. -/
  | noBorrower {agent_id : ℕ} {a : AgentRow} (ha : db.agents.get? agent_id = some a)
      (hs : a.state = .AVAILABLE) :
      Allocated now lockedBorrowers worker campaign_id lease db none
        ((db.view.setAgent agent_id (AgentRepo.reservedRow now worker lease)).setAgent agent_id
          (AgentRepo.forcedRow now .AVAILABLE none none none))
  /-- Agent and borrower are released again, since no provider can be picked. -/
  | noProvider {agent_id borrower_id : ℕ} {a : AgentRow} {b : BorrowerRow}
      (ha : db.agents.get? agent_id = some a) (hs : a.state = .AVAILABLE)
      (hb : db.borrowers.get? borrower_id = some b)
      (hc : BorrowerRepo.claimable campaign_id now b = true) :
      Allocated now lockedBorrowers worker campaign_id lease db none
        ((((db.view.setAgent agent_id (AgentRepo.reservedRow now worker lease)).setBorrower
          borrower_id (BorrowerRepo.lockedRow worker lease)).setAgent agent_id
            (AgentRepo.forcedRow now .AVAILABLE none none none)).setBorrower borrower_id
              BorrowerRepo.unlockedRow)
  /-- A call is created under a free key, for the borrower's next attempt. -/
  | created {agent_id borrower_id : ℕ} {a : AgentRow} {b : BorrowerRow} {provider : String}
      (ha : db.agents.get? agent_id = some a) (hs : a.state = .AVAILABLE)
      (hac : a.campaign_id = campaign_id)
      (hb : db.borrowers.get? borrower_id = some b)
      (hc : BorrowerRepo.claimable campaign_id now b = true) (hl : borrower_id ∉ lockedBorrowers)
      (hfree : ∀ j c, db.calls.get? j = some c →
        c.idempotency_key ≠ idempotencyKey campaign_id borrower_id (b.attempt_count + 1)) :
      Allocated now lockedBorrowers worker campaign_id lease db
        (some ⟨agent_id, borrower_id, b.phone, provider, db.calls.nextId,
          idempotencyKey campaign_id borrower_id (b.attempt_count + 1)⟩)
        (let call := CallRepo.createdRow now campaign_id agent_id borrower_id provider
          (b.attempt_count + 1) (idempotencyKey campaign_id borrower_id (b.attempt_count + 1))
          worker lease
        { (db.view.setAgent agent_id (AgentRepo.reservedRow now worker lease)).setBorrower
            borrower_id (BorrowerRepo.lockedRow worker lease) with
          calls := db.calls.push call
          versions := db.versions ++ [(db.calls.nextId, call)] })

/-- **`_reserve_and_create`.** A committed run has one of the four outcomes. -/
theorem reserveAndCreate_cases {now : Time} {lockedAgents lockedBorrowers : List ℕ}
    {pick : Option String} {worker : String} {campaign_id : ℕ} {lease : Time} {db db' : Db}
    {o : Option Reservation}
    (h : (reserveAndCreate now lockedAgents lockedBorrowers pick worker campaign_id lease).run db
      = .ok (o, db')) :
    Allocated now lockedBorrowers worker campaign_id lease db o db'.view := by
  obtain ⟨cands, db₀, h₀, hrest⟩ := Txn.run_bind_ok.mp h
  obtain ⟨rfl, hcands⟩ := AgentRepo.mem_pickCandidates h₀
  cases hhead : cands.head? with
  | none =>
    rw [hhead] at hrest
    obtain ⟨rfl, rfl⟩ := Txn.run_pure_ok.mp hrest
    exact .noAgent
  | some c =>
    rw [hhead] at hrest
    obtain ⟨agent_id, version⟩ := c
    obtain ⟨a, ha, hac, hs, hver⟩ := hcands _ (List.mem_of_mem_head? hhead)
    simp only at ha hver hrest
    subst hver
    obtain ⟨won, db₁, h₁, hwon⟩ := AgentRepo.reserve_run now agent_id a.version worker lease db₀
    -- version and state were read in this transaction, so the compare-and-swap cannot lose
    rcases hwon with ⟨rfl, _, hv₁⟩ | ⟨_, hlost, _⟩
    swap
    · exact absurd rfl (hlost a ha hs)
    rw [Txn.run_bind_of_ok h₁, if_pos rfl] at hrest
    obtain ⟨ob, db₂, h₂, hclaim⟩ :=
      BorrowerRepo.claimOne_run now lockedBorrowers campaign_id worker lease db₁
    rw [Txn.run_bind_of_ok h₂] at hrest
    have hborrowers : db₁.borrowers = db₀.borrowers := congrArg View.borrowers hv₁
    rcases hclaim with ⟨rfl, hv₂⟩ | ⟨borrower_id, b, rfl, hb, hc, hl, hv₂⟩
    · obtain ⟨_, db₃, h₃, hv₃⟩ :=
        AgentRepo.forceState_run now agent_id .AVAILABLE none none none db₂
      rw [AgentRepo.release, Txn.run_bind_of_ok h₃] at hrest
      obtain ⟨rfl, rfl⟩ := Txn.run_pure_ok.mp hrest
      rw [hv₃, hv₂, hv₁]
      exact .noBorrower ha hs
    · rw [hborrowers] at hb
      cases pick with
      | none =>
        obtain ⟨_, db₃, h₃, hv₃⟩ :=
          AgentRepo.forceState_run now agent_id .AVAILABLE none none none db₂
        obtain ⟨db₄, h₄, hv₄⟩ := BorrowerRepo.release_run borrower_id db₃
        simp only at hrest
        rw [AgentRepo.release, Txn.run_bind_of_ok h₃, Txn.run_bind_of_ok h₄] at hrest
        obtain ⟨rfl, rfl⟩ := Txn.run_pure_ok.mp hrest
        rw [hv₄, hv₃, hv₂, hv₁]
        exact .noProvider ha hs hb hc
      | some provider =>
        obtain ⟨call_id, db₃, h₃, hpure⟩ := Txn.run_bind_ok.mp hrest
        obtain ⟨rfl, rfl⟩ := Txn.run_pure_ok.mp hpure
        obtain ⟨rfl, hv₃, hfree⟩ := insertCall_run h₃
        have hcalls : db₂.calls = db₀.calls := by
          have := congrArg View.calls hv₂
          exact this.trans (congrArg View.calls hv₁)
        have hversions : db₂.versions = db₀.versions := by
          have := congrArg View.versions hv₂
          exact this.trans (congrArg View.versions hv₁)
        rw [hcalls] at hfree hv₃
        rw [hversions, hv₂, hv₁] at hv₃
        rw [hcalls, hv₃]
        exact .created (b := b) ha hs hac hb hc hl hfree

/-- **`_reserve_and_create` does not raise** while the next key of every claimable borrower is
    free. -/
theorem reserveAndCreate_total (now : Time) (lockedAgents lockedBorrowers : List ℕ)
    (pick : Option String) (worker : String) (campaign_id : ℕ) (lease : Time) (db : Db)
    (hfree : ∀ k b, db.borrowers.get? k = some b → BorrowerRepo.claimable campaign_id now b = true →
      ∀ j c, db.calls.get? j = some c →
        c.idempotency_key ≠ idempotencyKey campaign_id k (b.attempt_count + 1)) :
    ∃ o db', (reserveAndCreate now lockedAgents lockedBorrowers pick worker campaign_id
      lease).run db = .ok (o, db') := by
  obtain ⟨cands, h₀⟩ : ∃ cands, (AgentRepo.pickCandidates lockedAgents campaign_id 1).run db
      = .ok (cands, db) := ⟨_, rfl⟩
  unfold reserveAndCreate
  rw [Txn.run_bind_of_ok h₀]
  cases cands.head? with
  | none => exact ⟨_, _, rfl⟩
  | some a =>
    obtain ⟨won, db₁, h₁, hwon⟩ := AgentRepo.reserve_run now a.1 a.2 worker lease db
    simp only
    rw [Txn.run_bind_of_ok h₁]
    cases won with
    | false => exact ⟨_, _, rfl⟩
    | true =>
      obtain ⟨ob, db₂, h₂, hclaim⟩ :=
        BorrowerRepo.claimOne_run now lockedBorrowers campaign_id worker lease db₁
      rw [if_pos rfl, Txn.run_bind_of_ok h₂]
      have hv₁ : db₁.borrowers = db.borrowers ∧ db₁.calls = db.calls := by
        rcases hwon with ⟨_, _, hv⟩ | ⟨hlost, _⟩
        · exact ⟨congrArg View.borrowers hv, congrArg View.calls hv⟩
        · cases hlost
      rcases hclaim with ⟨rfl, _⟩ | ⟨k, b, rfl, hb, hc, _, hv₂⟩
      · exact ⟨_, _, rfl⟩
      · cases pick with
        | none => exact ⟨_, _, rfl⟩
        | some provider =>
          -- only the insertion of the call can fail, on its key
          have hcalls : db₂.calls = db.calls := (congrArg View.calls hv₂).trans hv₁.2
          rw [hv₁.1] at hb
          obtain ⟨db₃, h₃⟩ := insertCall_total now
            (CallRepo.createdRow now campaign_id a.1 k provider (b.attempt_count + 1)
              (idempotencyKey campaign_id k (b.attempt_count + 1)) worker lease) db₂
            (fun j c hj => hfree k b hb hc j c (hcalls ▸ hj)) rfl
          exact ⟨_, db₃, Txn.run_bind_of_ok h₃⟩

/-- The transaction after a `ProviderError` cannot fail.  Whether or not it fails the call, it
    releases the agent and reschedules the borrower. -/
theorem recordRejected_run (now : Time) (r : Reservation) (db : Db) :
    ∃ db₁ db', (recordRejected now r).run db = .ok (⟨⟩, db') ∧
      db'.view = (db₁.view.setAgent r.agent_id
        (AgentRepo.forcedRow now .AVAILABLE none none none)).setBorrower r.borrower_id
          (BorrowerRepo.rescheduledRow now (secs 60)) ∧
      ((db₁ = db ∧ ∀ c, db.calls.get? r.call_id = some c → 6 ≤ c.state_rank) ∨
        ∃ c, db.calls.get? r.call_id = some c ∧ c.state_rank < 6 ∧
          db₁.view = db.view.setCall r.call_id c
            (CallRepo.advancedRow now .FAILED none none (some "PROVIDER_REJECTED"))) := by
  obtain ⟨o, db₁, h₁⟩ := CallRepo.advance_total now r.call_id .FAILED none none
    (some "PROVIDER_REJECTED") db fun _ _ => Or.inl rfl
  obtain ⟨_, db₂, h₂, hv₂⟩ :=
    AgentRepo.forceState_run now r.agent_id .AVAILABLE none none none db₁
  obtain ⟨db₃, h₃, hv₃⟩ := BorrowerRepo.reschedule_run now r.borrower_id (secs 60) db₂
  refine ⟨db₁, db₃, ?_, ?_, ?_⟩
  · rw [recordRejected, CallRepo.fail, Txn.run_bind_of_ok h₁, AgentRepo.release,
      Txn.run_bind_of_ok h₂, h₃]
  · rw [hv₃, hv₂]
  · rcases CallRepo.advance_cases h₁ with ⟨_, rfl, hlost⟩ | ⟨c, hc, hrank, _, hv⟩
    · exact Or.inl ⟨rfl, hlost⟩
    · exact Or.inr ⟨c, hc, hrank, hv⟩

/-- The transaction after the provider accepted.  Whether or not it advances the call, it puts
    the agent to dialing it. -/
theorem recordInitiated_cases {now : Time} {r : Reservation} {pcid worker : String}
    {dial_lease : Time} {db db' : Db}
    (h : (recordInitiated now r pcid worker dial_lease).run db = .ok (⟨⟩, db')) :
    ∃ db₁ : Db, db'.view = db₁.view.setAgent r.agent_id
        (AgentRepo.forcedRow now .DIALING (some worker) (some dial_lease) (some r.call_id)) ∧
      ((db₁ = db ∧ ∀ c, db.calls.get? r.call_id = some c → 2 ≤ c.state_rank) ∨
        ∃ c, db.calls.get? r.call_id = some c ∧ c.state_rank < 2 ∧
          db₁.view = db.view.setCall r.call_id c
            (CallRepo.advancedRow now .INITIATED (some pcid) (some dial_lease) none)) := by
  obtain ⟨o, db₁, h₁, hrest⟩ := Txn.run_bind_ok.mp h
  obtain ⟨_, db₂, h₂, hv₂⟩ := AgentRepo.forceState_run now r.agent_id .DIALING (some worker)
    (some dial_lease) (some r.call_id) db₁
  rw [Txn.run_bind_of_ok h₂] at hrest
  obtain ⟨_, rfl⟩ := Txn.run_pure_ok.mp hrest
  refine ⟨db₁, hv₂, ?_⟩
  -- the row that the advance returns is not looked at: the agent is dialing in either case
  rcases CallRepo.advance_cases h₁ with ⟨_, rfl, hlost⟩ | ⟨c, hc, hrank, _, hv⟩
  · exact Or.inl ⟨rfl, hlost⟩
  · exact Or.inr ⟨c, hc, hrank, hv⟩

/-- The pullback of one candidate cannot fail; it cancels a call that nobody has answered. -/
theorem cancelCandidate_run (now : Time) (call_id : ℕ) (db : Db) :
    ∃ b db', (cancelCandidate now call_id).run db = .ok (b, db') ∧
      ((b = false ∧ db' = db) ∨
        ∃ c, db.calls.get? call_id = some c ∧ c.state.isRinging = true ∧ b = true ∧
          db'.view = ((db.view.setCall call_id c
            (CallRepo.cancelledRow now "SAFETY_PULLBACK")).setAgentOf c.agent_id
              (AgentRepo.forcedRow now .AVAILABLE none none none)).setBorrower c.borrower_id
                (BorrowerRepo.endedRow now .CANCELLED (secs 30))) := by
  obtain ⟨o, db₁, h₁, ho⟩ :=
    CallRepo.cancelIfNotAnswered_run now call_id "SAFETY_PULLBACK" db
  unfold cancelCandidate
  rw [Txn.run_bind_of_ok h₁]
  rcases ho with ⟨rfl, rfl⟩ | ⟨c, hc, hs, rfl, hv₁⟩
  · exact ⟨false, db₁, rfl, Or.inl ⟨rfl, rfl⟩⟩
  · simp only [CallRepo.cancelledRow]
    cases hagent : c.agent_id with
    | none =>
      obtain ⟨db₂, h₂, hv₂⟩ :=
        BorrowerRepo.onCallTerminal_run now c.borrower_id .CANCELLED (secs 30) db₁
      refine ⟨true, db₂, ?_, Or.inr ⟨c, hc, hs, rfl, ?_⟩⟩
      · simp only
        rw [Txn.run_bind_of_ok h₂]
        rfl
      · rw [hv₂, hv₁, hagent, View.setAgentOf_none]
    | some agent_id =>
      obtain ⟨_, db₂, h₂, hv₂⟩ :=
        AgentRepo.forceState_run now agent_id .AVAILABLE none none none db₁
      obtain ⟨db₃, h₃, hv₃⟩ :=
        BorrowerRepo.onCallTerminal_run now c.borrower_id .CANCELLED (secs 30) db₂
      refine ⟨true, db₃, ?_, Or.inr ⟨c, hc, hs, rfl, ?_⟩⟩
      · simp only [AgentRepo.release]
        rw [Txn.run_bind_of_ok h₂, Txn.run_bind_of_ok h₃]
        rfl
      · rw [hv₃, hv₂, hv₁, hagent, View.setAgentOf_some]

end SmartDialer
