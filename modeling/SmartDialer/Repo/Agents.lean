import SmartDialer.Repo.View

namespace SmartDialer

open Relational

/-!
# `repo/agents.py`

The statements on `agents`, including the two of `worker/reaper.py`.  Each of the four
`UPDATE`s bumps `version`, the token of the compare-and-swap in `reserve`.

None of them can fail.  `reserve_run` and `forceState_run` say what they do to the view.
-/

namespace AgentRepo

/-- `SELECT … ORDER BY updated_at LIMIT n FOR UPDATE SKIP LOCKED`: the available agents of the
    campaign that no concurrent transaction holds (`locked`), longest idle first. -/
def pickCandidates (locked : List ℕ) (campaign_id n : ℕ) : Tx (List (ℕ × ℕ)) := do
  let db ← get
  let rows := db.agents.select fun i a =>
    a.campaign_id == campaign_id && a.state == .AVAILABLE && !locked.contains i
  return ((rows.insertionSort fun x y => x.2.updated_at ≤ y.2.updated_at).take n).map
    fun e => (e.1, e.2.version)

/-- The row `RESERVE_CAS` writes. -/
def reservedRow (now : Time) (worker : String) (lease_until : Time) (a : AgentRow) : AgentRow :=
  { a with
    state := .RESERVED
    version := a.version + 1
    lease_owner := some worker
    lease_expires_at := some lease_until
    updated_at := now }

/-- `RESERVE_CAS`: reserve the agent if it is available at the version that was read.
    False means that the race was lost. -/
def reserve (now : Time) (agent_id version : ℕ) (worker : String) (lease_until : Time) :
    Tx Bool := do
  let rows ← updateAgents now
    (fun i a => i == agent_id && (a.state == .AVAILABLE && a.version == version))
    (reservedRow now worker lease_until)
  return !rows.isEmpty

/-- The row `FORCE_STATE` writes. -/
def forcedRow (now : Time) (state : AgentState) (worker : Option String)
    (lease_until : Option Time) (call_id : Option ℕ) (a : AgentRow) : AgentRow :=
  { a with
    state := state
    version := a.version + 1
    updated_at := now
    state_changed_at := now
    lease_owner := if state = .RESERVED ∨ state = .DIALING then worker else none
    lease_expires_at := if state = .RESERVED ∨ state = .DIALING ∨ state = .WRAP_UP
      then lease_until else none
    current_call_id := call_id }

/-- `FORCE_STATE`: an unconditional update by id. -/
def forceState (now : Time) (agent_id : ℕ) (state : AgentState) (worker : Option String)
    (lease_until : Option Time) (call_id : Option ℕ) : Tx Bool := do
  let rows ← updateAgents now (fun i _ => i == agent_id)
    (forcedRow now state worker lease_until call_id)
  return !rows.isEmpty

/-- `release`: the agent is available again, whatever it was doing. -/
def release (now : Time) (agent_id : ℕ) : Tx Bool :=
  forceState now agent_id .AVAILABLE none none none

/-- `login`: the same write as `release`, from any state. -/
def login (now : Time) (agent_id : ℕ) : Tx Bool :=
  forceState now agent_id .AVAILABLE none none none

/-- `logout`: the agent is offline, also in the middle of a call. -/
def logout (now : Time) (agent_id : ℕ) : Tx Bool :=
  forceState now agent_id .OFFLINE none none none

/-- `pause`: the agent is paused, also in the middle of a call. -/
def pause (now : Time) (agent_id : ℕ) : Tx Bool :=
  forceState now agent_id .PAUSED none none none

/-- `SELECT * FROM agents WHERE id = $1`. -/
def get (agent_id : ℕ) : Tx (Option AgentRow) := do
  let db ← MonadState.get
  return db.agents.get? agent_id

/-- A new agent is offline. -/
def create (now : Time) (campaign_id : ℕ) (ext_ref : String) : Tx ℕ :=
  insertAgent now
    { campaign_id := campaign_id
      ext_ref := ext_ref
      state := .OFFLINE
      version := 0
      lease_owner := none
      lease_expires_at := none
      current_call_id := none
      state_changed_at := now
      updated_at := now }

end AgentRepo

/-- The rows `RECLAIM_AGENTS` selects. -/
def isReclaimed (now_ts : Time) (a : AgentRow) : Bool :=
  (a.state == .RESERVED || a.state == .DIALING) && before a.lease_expires_at now_ts

/-- The row `RECLAIM_AGENTS` writes: an expired lease is cleared; a reserved agent becomes
    available, a dialing one stays, since it may have a live provider call. -/
def reclaimedRow (now : Time) (a : AgentRow) : AgentRow :=
  { a with
    state := if a.state = .RESERVED then .AVAILABLE else a.state
    version := a.version + 1
    lease_owner := none
    lease_expires_at := none
    updated_at := now }

/-- `RECLAIM_AGENTS`. -/
def reclaimAgents (now now_ts : Time) : Tx (List (ℕ × AgentRow)) :=
  updateAgents now (fun _ a => isReclaimed now_ts a) (reclaimedRow now)

/-- The rows `RELEASE_WRAPUP` selects: the wrap-up timer elapsed. -/
def isWrapupOver (now_ts : Time) (a : AgentRow) : Bool :=
  a.state == .WRAP_UP && before a.lease_expires_at now_ts

/-- The row `RELEASE_WRAPUP` writes. -/
def wrapupReleasedRow (now : Time) (a : AgentRow) : AgentRow :=
  { a with
    state := .AVAILABLE
    version := a.version + 1
    updated_at := now
    state_changed_at := now
    lease_expires_at := none
    current_call_id := none }

/-- `RELEASE_WRAPUP`. -/
def releaseWrapup (now now_ts : Time) : Tx (List (ℕ × AgentRow)) :=
  updateAgents now (fun _ a => isWrapupOver now_ts a) (wrapupReleasedRow now)

/-! ### Effects -/

namespace AgentRepo

/-- A candidate is an available agent of the campaign, at the version that was read. -/
theorem mem_pickCandidates {locked : List ℕ} {campaign_id n : ℕ} {db db' : Db}
    {cands : List (ℕ × ℕ)} (h : (pickCandidates locked campaign_id n).run db = .ok (cands, db')) :
    db' = db ∧ ∀ c ∈ cands, ∃ a, db.agents.get? c.1 = some a ∧ a.campaign_id = campaign_id ∧
      a.state = .AVAILABLE ∧ a.version = c.2 := by
  cases h
  refine ⟨rfl, fun c hc => ?_⟩
  obtain ⟨e, he, rfl⟩ := List.mem_map.mp hc
  have hsel := (List.mem_insertionSort _).mp (List.mem_of_mem_take he)
  obtain ⟨hr, hp⟩ := Table.mem_select.mp hsel
  simp only [Bool.and_eq_true, beq_iff_eq] at hp
  exact ⟨e.2, hr, hp.1.1, hp.1.2, rfl⟩

/-- The compare-and-swap: it wins exactly on an available row at the version that was read. -/
theorem reserve_run (now : Time) (agent_id version : ℕ) (worker : String) (lease_until : Time)
    (db : Db) :
    ∃ won db', (reserve now agent_id version worker lease_until).run db = .ok (won, db') ∧
      ((won = true ∧ (∃ a, db.agents.get? agent_id = some a ∧ a.state = .AVAILABLE ∧
          a.version = version) ∧
          db'.view = db.view.setAgent agent_id (reservedRow now worker lease_until)) ∨
        (won = false ∧ (∀ a, db.agents.get? agent_id = some a → a.state = .AVAILABLE →
          a.version ≠ version) ∧ db'.view = db.view)) := by
  refine ⟨_, _, rfl, ?_⟩
  rw [Db.view_setAgents]
  by_cases h : ∃ a, db.agents.get? agent_id = some a ∧ a.state = .AVAILABLE ∧ a.version = version
  · left
    obtain ⟨a, ha, hs, hv⟩ := h
    have hg : (a.state == .AVAILABLE && a.version == version) = true := by simp [hs, hv]
    rw [Table.select_key_of_pos ha hg, Table.modify_key_of_pos _ ha hg]
    exact ⟨rfl, ⟨a, ha, hs, hv⟩, rfl⟩
  · right
    have hg : ∀ a, db.agents.get? agent_id = some a →
        (a.state == .AVAILABLE && a.version == version) = false := by
      intro a ha
      by_contra hne
      simp only [Bool.not_eq_false, Bool.and_eq_true, beq_iff_eq] at hne
      exact h ⟨a, ha, hne⟩
    rw [Table.select_key_of_neg hg, Table.modify_key_of_neg _ hg]
    exact ⟨rfl, fun a ha hs hv => h ⟨a, ha, hs, hv⟩, rfl⟩

/-- `FORCE_STATE` does not fail and does not ask for the state the agent was in. -/
theorem forceState_run (now : Time) (agent_id : ℕ) (state : AgentState) (worker : Option String)
    (lease_until : Option Time) (call_id : Option ℕ) (db : Db) :
    ∃ b db', (forceState now agent_id state worker lease_until call_id).run db = .ok (b, db') ∧
      db'.view = db.view.setAgent agent_id (forcedRow now state worker lease_until call_id) :=
  ⟨_, _, rfl, rfl⟩

end AgentRepo

end SmartDialer
