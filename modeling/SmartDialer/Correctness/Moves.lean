import SmartDialer.Floor
import SmartDialer.Correctness.Lifecycle

namespace SmartDialer

open Relational

/-!
# The system simulates the floor

Every action of the system is a path of moves on the floor: one move for most transactions, one
for each event that a drain applies, one for each orphan and three sweeps for a tick of the
reaper.  `Permits` lists what is known about the moves that the results restrict, in terms of the
state before the action, so `step_path` serves them all.
-/

variable {H : Floor → Move → Prop}

/-- The routine moves apart from a second transaction that comes too late. -/
def Move.Regular : Move → Prop
  | .dialedLate => False
  | m => m.Routine

/-- A regular move is a routine one. -/
theorem Move.Regular.routine {m : Move} (h : m.Regular) : m.Routine := by
  cases m <;> first | exact h | exact h.elim

/-! ### Events -/

/-- A call that has been dialed and is below `RINGING` is initiated. -/
private theorem initiated_of_rank {s : CallState} (hq : s ≠ .QUEUED) (hr : s ≠ .RESERVED)
    (h : rank s < 3) : s = .INITIATED := by
  cases s <;> simp_all [rank]

/-- A call that has been dialed and is below `ANSWERED` is ringing or about to. -/
private theorem isRinging_of_rank {s : CallState} (hq : s ≠ .QUEUED) (hr : s ≠ .RESERVED)
    (h : rank s < 4) : s.isRinging = true := by
  cases s <;> simp_all [rank, CallState.isRinging]

/-- **An event, on the floor.** Applying a planned event is at most one routine move. -/
theorem Applied.path (hregular : ∀ F m, m.Regular → H F m) {now : Time} {p : Planned}
    {clock_now wrapup : Time} {db : Db} {o : Option CallState} {v : View}
    (h : Applied now p.event clock_now wrapup db p.read o v) (hh : db.view.Healthy)
    (hp : p.Valid db.view) (attempts : Table Attempt) :
    Path Floor.Step H (db.view.floor attempts) (v.floor attempts) := by
  generalize hread : p.read = read at h
  cases h with
  | unknown => exact .refl _
  | raised => exact .refl _
  | refused => exact .refl _
  | lost => exact .refl _
  | @moved call_id incoming c hi hc hrank =>
    obtain ⟨hin, c', hc', href⟩ := hp call_id incoming hread
    rw [Db.view_calls, hc, Option.some.injEq] at hc'
    subst hc'
    have hset := hh.settled call_id c hc
    have hrank' : rank c.state < rank incoming := hset.rank_eq ▸ hrank
    have hs := legalNext_of_rank hset.not_queued (hset.dialed href) hset.not_answered hin hrank'
    have hevo := CallRepo.evolves_advancedRow hs now p.event.2.provider_call_id none none
    obtain ⟨agent_id, hagent⟩ := Option.isSome_iff_exists.mp hset.agent
    rcases hin with rfl | rfl | hterm
    · have hinit := initiated_of_rank hset.not_queued (hset.dialed href) hrank'
      exact .single (hregular _ .rang trivial) (.rang hc hinit hevo rfl)
    · exact absurd rfl hi
    · obtain ⟨agent_state, lease, _, hfree, heff⟩ :=
        View.sideEffects_terminal hagent hterm now clock_now wrapup
          (db.view.setCall call_id c (CallRepo.advancedRow now incoming
            p.event.2.provider_call_id none none))
      rw [heff]
      exact .single (hregular _ .ended trivial)
        (.ended hc (live_of_edge hs) (hset.dialed href) hagent hevo rfl hterm hfree)
  | @bridged call_id c answered next hc hrank ha hn =>
    obtain ⟨_, c', hc', href⟩ := hp call_id .ANSWERED hread
    rw [Db.view_calls, hc, Option.some.injEq] at hc'
    subst hc'
    have hset := hh.settled call_id c hc
    have hrank' : rank c.state < 4 := hset.rank_eq ▸ hrank
    have hs := legalNext_of_rank hset.not_queued (hset.dialed href) hset.not_answered
      (Or.inr (Or.inl rfl)) hrank'
    obtain ⟨agent_id, hagent⟩ := Option.isSome_iff_exists.mp hset.agent
    -- on the floor the two writes of the bridge are one
    have hcalls : ((db.view.setCall call_id c (CallRepo.advancedRow now .ANSWERED
        p.event.2.provider_call_id none none)).setCall call_id answered
          (CallRepo.advancedRow now next none none none)).calls
        = db.view.calls.alter call_id fun c => CallRepo.advancedRow now next none none none
          (CallRepo.advancedRow now .ANSWERED p.event.2.provider_call_id none none c) :=
      Table.alter_alter _ _ _ _
    have hnext : next ∈ legalNext .ANSWERED := by
      rw [hn]; unfold bridgeState; split <;> decide
    have hevo : c.Evolves (CallRepo.advancedRow now next none none none
        (CallRepo.advancedRow now .ANSWERED p.event.2.provider_call_id none none c)) :=
      (CallRepo.evolves_advancedRow hs _ _ _ _).trans (CallRepo.evolves_advancedRow hnext _ _ _ _)
    rcases bridgeState_cases db.agents call_id c with hb | hb
    · rw [hb] at hn
      subst hn
      rw [View.sideEffects_connected hagent]
      unfold View.floor
      simp only [View.setEvent_agents, View.setEvent_borrowers, View.setEvent_calls,
        View.setAgent_agents, View.setAgent_borrowers, View.setAgent_calls, hcalls]
      exact .single (hregular _ .connected trivial)
        (.connected hc (isRinging_of_rank hset.not_queued (hset.dialed href) hrank') hagent hevo
          rfl)
    · -- the agent is no longer there for the call, which ends as abandoned
      rw [hb] at hn
      subst hn
      obtain ⟨agent_state, lease, _, hfree, heff⟩ :=
        View.sideEffects_terminal hagent (show CallState.ABANDONED.isTerminal = true from rfl) now
          clock_now wrapup
          ((db.view.setCall call_id c (CallRepo.advancedRow now .ANSWERED
            p.event.2.provider_call_id none none)).setCall call_id answered
              (CallRepo.advancedRow now .ABANDONED none none none))
      rw [heff]
      unfold View.floor
      simp only [View.setEvent_agents, View.setEvent_borrowers, View.setEvent_calls,
        View.setAgent_agents, View.setAgent_borrowers, View.setAgent_calls,
        View.setBorrower_agents, View.setBorrower_borrowers, View.setBorrower_calls, hcalls]
      exact .single (hregular _ .ended trivial)
        (.ended hc (live_of_edge hs) (hset.dialed href) hagent hevo rfl rfl hfree)

/-- The writes of a drain are a path of routine moves. -/
theorem applyPlan_path (hregular : ∀ F m, m.Regular → H F m) {cfg : Settings} {now : Time}
    {plan : List Planned} {db db' : Db} {moved : List (ℕ × CallState)} (hh : db.view.Healthy)
    (hp : ∀ p ∈ plan, p.Valid db.view) (h : (applyPlan cfg now plan).run db = .ok (moved, db'))
    (attempts : Table Attempt) :
    Path Floor.Step H (db.view.floor attempts) (db'.view.floor attempts) := by
  have hrel := related_applyPlan
    (R := fun v v' => Path Floor.Step H (v.floor attempts) (v'.floor attempts)) (fun _ => .refl _)
    (fun _ _ _ => .trans) (fun p db o v hh hv ha => ha.path hregular hh hv attempts) hh hp h
  exact hrel.1

/-- A drain up to its commit is a path of routine moves; the marks that it leaves are not visible on
    the floor. -/
theorem commitDrain_path (hregular : ∀ F m, m.Regular → H F m) {cfg : Settings} {d : Drain}
    {db : Db} (hh : db.view.Healthy) (hp : ∀ p ∈ d.plan, p.Valid db.view)
    (attempts : Table Attempt) :
    Path Floor.Step H (db.view.floor attempts)
      (((commitDrain cfg d).commit db).view.floor attempts) := by
  rcases Txn.commit_cases (commitDrain cfg d) db with ⟨moved, hrun, _⟩ | ⟨h, _⟩
  · obtain ⟨db₁, h₁, hv⟩ := commitDrain_run hrun
    rw [hv]
    exact applyPlan_path hregular hh hp h₁ attempts
  · rw [h]; exact .refl _

/-! ### The allocator -/

/-- The attempts after the first transaction of an allocation has returned. -/
def opened (attempts : Table Attempt) (worker : String) : Option Reservation → Table Attempt
  | some r => attempts.insertAt r.call_id ⟨r, worker, false⟩
  | none => attempts

/-- The first transaction allots a call, or reserves and releases what it found. -/
theorem Allocated.path (hregular : ∀ F m, m.Regular → H F m) {now : Time}
    {lockedBorrowers : List ℕ} {worker : String} {campaign_id : ℕ} {lease : Time} {db : Db}
    {o : Option Reservation} {v : View}
    (h : Allocated now lockedBorrowers worker campaign_id lease db o v) (attempts : Table Attempt) :
    Path Floor.Step H (db.view.floor attempts) (v.floor (opened attempts worker o)) := by
  have hclaim : ∀ {b : BorrowerRow}, BorrowerRepo.claimable campaign_id now b = true →
      b.campaign_id = campaign_id ∧ b.state = .PENDING := by
    intro b hb
    simp only [BorrowerRepo.claimable, Bool.and_eq_true, beq_iff_eq] at hb
    exact hb.1
  cases h with
  | noAgent => exact .refl _
  | noBorrower ha hs => exact .single (hregular _ .unreserved trivial) (.unreserved ha hs)
  | noProvider ha hs hb hc =>
    have hagent : (db.view.floor attempts).Step .unreserved
        { db.view.floor attempts with
          agents := (db.agents.alter _ (AgentRepo.reservedRow now worker lease)).alter _
            (AgentRepo.forcedRow now .AVAILABLE none none none) } := .unreserved ha hs
    refine .trans (.single (hregular _ .unreserved trivial) hagent) ?_
    exact .single (hregular _ .unclaimed trivial) (.unclaimed hb (hclaim hc).2)
  | created ha hs hac hb hc hl hfree =>
    exact .single (hregular _ .allotted trivial)
      (.allotted ha hs hb (hclaim hc).2 (hclaim hc).1 hfree)

/-- The transaction after a `ProviderError`: a refusal, or one that came too late. -/
theorem recordRejected_path (hregular : ∀ F m, m.Regular → H F m) (now : Time) {call_id : ℕ}
    {db : Db} {attempts : Table Attempt} {att : Attempt} (hatt : attempts.get? call_id = some att)
    (hh : db.view.Healthy)
    (hlate : (∀ c, db.calls.get? att.reservation.call_id = some c → c.state.isTerminal = true) →
      H (db.view.floor attempts) (.refusedLate att)) :
    Path Floor.Step H (db.view.floor attempts)
      (((recordRejected now att.reservation).commit db).view.floor (attempts.erase call_id)) := by
  obtain ⟨db₁, db', hrun, hview, hcall⟩ := recordRejected_run now att.reservation db
  rw [(Txn.commit_of_run hrun).1, hview]
  rcases hcall with ⟨rfl, hdone⟩ | ⟨c, hc, hrank, hv⟩
  · -- the call has ended already, but the transaction reschedules its borrower all the same
    have hterm : ∀ c, db₁.calls.get? att.reservation.call_id = some c →
        c.state.isTerminal = true := by
      intro c hc
      rw [isTerminal_iff, ← (hh.settled _ c hc).rank_eq]
      exact hdone c hc
    exact .single (hlate hterm) (.refusedLate hatt hterm)
  · rw [hv]
    have hset := hh.settled _ c hc
    have hs : CallState.FAILED ∈ legalNext c.state :=
      legalNext_terminal (not_isTerminal_iff.mpr (hset.rank_eq ▸ hrank)) rfl
    exact .single (hregular _ .refused trivial)
      (.refused hatt hc (live_of_edge hs) (CallRepo.evolves_advancedRow hs _ _ _ _) rfl)

/-- The transaction after the provider accepted: the call is dialed, or it was too late. -/
theorem recordInitiated_path (hregular : ∀ F m, m.Regular → H F m) (now : Time) {call_id : ℕ}
    {db : Db} {attempts : Table Attempt} {att : Attempt} (hatt : attempts.get? call_id = some att)
    (pcid worker : String) (dial_lease : Time) (hh : db.view.Healthy)
    (hlate : (∀ c, db.calls.get? att.reservation.call_id = some c → c.state ≠ .RESERVED) →
      H (db.view.floor attempts) .dialedLate) :
    Path Floor.Step H (db.view.floor attempts)
      (((recordInitiated now att.reservation pcid worker dial_lease).commit db).view.floor
        (attempts.erase call_id)) := by
  rcases Txn.commit_cases (recordInitiated now att.reservation pcid worker dial_lease) db with
    ⟨_, hrun, _⟩ | ⟨h, _⟩
  swap
  · -- the reference is taken: the transaction is rolled back and the attempt is over
    rw [h]
    exact .single (hregular _ .forgotten trivial) .forgotten
  obtain ⟨db₁, hview, hcall⟩ := recordInitiated_cases hrun
  rw [hview]
  rcases hcall with ⟨rfl, hdone⟩ | ⟨c, hc, hrank, hv⟩
  · have hpast : ∀ c, db₁.calls.get? att.reservation.call_id = some c → c.state ≠ .RESERVED := by
      intro c hc hs
      have hle := hdone c hc
      rw [(hh.settled _ c hc).rank_eq, hs] at hle
      exact absurd hle (by decide)
    exact .single (hlate hpast) (.dialedLate hatt hpast)
  · rw [hv]
    have hset := hh.settled _ c hc
    have hs : c.state = .RESERVED := by
      have hq := hset.not_queued
      rw [hset.rank_eq] at hrank
      cases hcs : c.state <;> simp_all [rank]
    exact .single (hregular _ .dialed trivial) (.dialed hatt hc hs)

/-- The pullback of a candidate ends a dialed call, or does nothing. -/
theorem cancelCandidate_path (hregular : ∀ F m, m.Regular → H F m) (now : Time) (call_id : ℕ)
    {db : Db} (hh : db.view.Healthy) (attempts : Table Attempt) :
    Path Floor.Step H (db.view.floor attempts)
      (((cancelCandidate now call_id).commit db).view.floor attempts) := by
  obtain ⟨b, db', hrun, hcall⟩ := cancelCandidate_run now call_id db
  rw [(Txn.commit_of_run hrun).1]
  rcases hcall with ⟨_, rfl⟩ | ⟨c, hc, hs, _, hv⟩
  · exact .refl _
  · obtain ⟨agent_id, hagent⟩ := Option.isSome_iff_exists.mp (hh.settled call_id c hc).agent
    have hlive := live_of_isRinging hs
    rw [hv, hagent]
    exact .single (hregular _ .ended trivial) (.ended hc hlive (ne_reserved_of_isRinging hs) hagent
      (CallRepo.evolves_cancelledRow hlive _ _) rfl rfl (Or.inl rfl))

/-! ### The reaper -/

/-- What is known on the way through the orphans of a tick. -/
private structure Reaping (H : Floor → Move → Prop) (attempts : Table Attempt) (v v' : View) :
    Prop where
  healthy : v'.Healthy
  path : Path Floor.Step H (v.floor attempts) (v'.floor attempts)
  locked : ∀ i b, v'.borrowers.get? i = some b → b.state = .LOCKED → v.borrowers.get? i = some b

/-- Failing one orphan is one move; it locks no borrower. -/
private theorem Reaping.failOrphan {attempts : Table Attempt} {v v' : View} {now now_ts : Time}
    (h : Reaping H attempts v v') {e : ℕ × CallRow} (hc : v'.calls.get? e.1 = some e.2)
    (ho : isOrphan now_ts e.2 = true) (hH : H (v'.floor attempts) (.orphaned e.1)) :
    Reaping H attempts v (v'.failOrphan now e) := by
  have hlive := live_of_isOrphan ho
  obtain ⟨agent_id, hagent⟩ := Option.isSome_iff_exists.mp (h.healthy.settled _ _ hc).agent
  have hview : v'.failOrphan now e = ((v'.setCall e.1 e.2 (orphanedRow now)).setAgent agent_id
      (AgentRepo.forcedRow now .AVAILABLE none none none)).setBorrower e.2.borrower_id
        (BorrowerRepo.rescheduledRow now (secs 120)) := by
    unfold View.failOrphan View.releaseOrphan
    simp only [orphanedRow, hagent, View.setAgentOf_some]
  refine ⟨((View.failOrphan_progress now hc ho) h.healthy).1, ?_, ?_⟩
  · refine h.path.trans (.single hH ?_)
    rw [hview]
    exact .orphaned hc hlive hagent (evolves_orphanedRow hlive now) rfl
  · intro i b hb hs
    rw [hview] at hb
    simp only [View.setBorrower_borrowers, View.setAgent_borrowers, View.setCall_borrowers,
      Table.get?_alter] at hb
    split at hb
    · -- the borrower of the orphan is rescheduled, which leaves it pending or exhausted
      obtain ⟨b₀, _, rfl⟩ := Option.map_eq_some_iff.mp hb
      rcases BorrowerRepo.rescheduledRow_state now (secs 120) b₀ with h' | h' <;>
        rw [h'.2] at hs <;> cases hs
    · exact h.locked i b hb hs

/-- **A tick of the reaper** is a path: an orphan at a time, and then the three sweeps. -/
theorem reap_path (hregular : ∀ F m, m.Regular → H F m) (now now_ts : Time) {v : View}
    (hh : v.Healthy) (attempts : Table Attempt)
    (horphan : ∀ F i c, F.attempts = attempts → v.calls.get? i = some c →
      isOrphan now_ts c = true → H F (.orphaned i))
    (hunlock : ∀ F, F.calls = v.calls.modify (fun _ c => isOrphan now_ts c) (orphanedRow now) →
      (∀ i b, F.borrowers.get? i = some b → b.state = .LOCKED → v.borrowers.get? i = some b) →
      H F (.unlocked now)) :
    Path Floor.Step H (v.floor attempts) ((v.reap now now_ts).floor attempts) := by
  have hreap := View.foldl_failOrphan_induction now now_ts (I := Reaping H attempts v)
    (fun v' e h hc hc₀ ho => h.failOrphan hc ho (horphan _ e.1 e.2 rfl hc₀ ho))
    ⟨hh, .refl _, fun _ _ hb _ => hb⟩
  have hcalls := View.foldl_failOrphan_calls now now_ts v
  rw [View.reap_eq]
  generalize (v.calls.select fun _ c => isOrphan now_ts c).foldl (View.failOrphan now) v = v'
    at hreap hcalls ⊢
  -- a call that is still to be dialed was no orphan, so its lease has not run out
  have hres : ∀ i c, v'.calls.get? i = some c → c.state = .QUEUED ∨ c.state = .RESERVED →
      before c.lease_expires_at now_ts = false := by
    intro i c hc hs
    rw [hcalls, Table.get?_modify, Option.map_eq_some_iff] at hc
    obtain ⟨c₀, hc₀, rfl⟩ := hc
    split at hs
    · rcases hs with hs | hs <;> cases hs
    · rename_i hno
      rw [if_neg hno]
      have hlive : c₀.state.isTerminal = false := by rcases hs with hs | hs <;> rw [hs] <;> rfl
      have hnone := (hh.settled i c₀ hc₀).terminal_at_none.mpr hlive
      rcases hs with hs | hs <;> simpa [isOrphan, hnone, hs] using hno
  have hreclaim : (v'.floor attempts).Step .reclaimed { v'.floor attempts with
      agents := v'.agents.modify (fun _ a => isReclaimed now_ts a) (reclaimedRow now) } :=
    .reclaimed hres
  have hwrapup : Floor.Step { v'.floor attempts with
      agents := v'.agents.modify (fun _ a => isReclaimed now_ts a) (reclaimedRow now) } .wrapupOver
      { v'.floor attempts with
        agents := (v'.agents.modify (fun _ a => isReclaimed now_ts a) (reclaimedRow now)).modify
          (fun _ a => isWrapupOver now_ts a) (wrapupReleasedRow now) } := .wrapupOver
  refine hreap.path.trans (.trans (.single (hregular _ .reclaimed trivial) hreclaim) ?_)
  refine .trans (.single (hregular _ .wrapupOver trivial) hwrapup) ?_
  exact .single (hunlock _ hcalls hreap.locked) .unlocked

/-! ### Actions -/

/-- What is known about the restricted moves of an action, in terms of the state before it. -/
structure Permits (H : Floor → Move → Prop) (s : Sys) (a : Act) : Prop where
  routine : ∀ F m, m.Routine → H F m
  staffed : ∀ now i, a = .login now i ∨ a = .logout now i ∨ a = .pause now i →
    H s.floor (.staffed i)
  refusedLate : ∀ now i att, a = .rejected now i → s.attempts.get? i = some att →
    att.placed = true →
    (∀ c, s.db.calls.get? att.reservation.call_id = some c → c.state.isTerminal = true) →
    H s.floor (.refusedLate att)
  orphaned : ∀ now now_ts registry F i c, a = .reap now now_ts registry →
    F.attempts = s.attempts → s.db.calls.get? i = some c → isOrphan now_ts c = true →
    H F (.orphaned i)
  unlocked : ∀ now now_ts registry F, a = .reap now now_ts registry →
    F.calls = s.db.calls.modify (fun _ c => isOrphan now_ts c) (orphanedRow now) →
    (∀ i b, F.borrowers.get? i = some b → b.state = .LOCKED →
      s.db.borrowers.get? i = some b) →
    H F (.unlocked now)

/-- No move is restricted. -/
theorem permits_true (s : Sys) (a : Act) : Permits (fun _ _ => True) s a :=
  ⟨fun _ _ _ => trivial, fun _ _ _ => trivial, fun _ _ _ _ _ _ _ => trivial,
    fun _ _ _ _ _ _ _ _ _ _ => trivial, fun _ _ _ _ _ _ _ => trivial⟩

/-- The same where a result restricts also the second transactions that come too late. -/
structure Allows (H : Floor → Move → Prop) (s : Sys) (a : Act) : Prop where
  regular : ∀ F m, m.Regular → H F m
  dialedLate : ∀ now clock_now i pcid att, a = .accepted now clock_now i pcid →
    s.attempts.get? i = some att → att.placed = true →
    (∀ c, s.db.calls.get? att.reservation.call_id = some c → c.state ≠ .RESERVED) →
    H s.floor .dialedLate
  staffed : ∀ now i, a = .login now i ∨ a = .logout now i ∨ a = .pause now i →
    H s.floor (.staffed i)
  refusedLate : ∀ now i att, a = .rejected now i → s.attempts.get? i = some att →
    att.placed = true →
    (∀ c, s.db.calls.get? att.reservation.call_id = some c → c.state.isTerminal = true) →
    H s.floor (.refusedLate att)
  orphaned : ∀ now now_ts registry F i c, a = .reap now now_ts registry →
    F.attempts = s.attempts → s.db.calls.get? i = some c → isOrphan now_ts c = true →
    H F (.orphaned i)
  unlocked : ∀ now now_ts registry F, a = .reap now now_ts registry →
    F.calls = s.db.calls.modify (fun _ c => isOrphan now_ts c) (orphanedRow now) →
    (∀ i b, F.borrowers.get? i = some b → b.state = .LOCKED →
      s.db.borrowers.get? i = some b) →
    H F (.unlocked now)

/-- A result that restricts less is covered by the stronger simulation. -/
theorem Permits.allows {s : Sys} {a : Act} (h : Permits H s a) : Allows H s a where
  regular := fun F m hm => h.routine F m hm.routine
  dialedLate := fun _ _ _ _ _ _ _ _ _ => h.routine _ .dialedLate trivial
  staffed := h.staffed
  refusedLate := h.refusedLate
  orphaned := h.orphaned
  unlocked := h.unlocked

/-- The attempts after an allocation: one more if it went through. -/
private theorem allocate_attempts (s : Sys) (worker : String) {x : Tx (Option Reservation)}
    {o : Option Reservation} (h : x.result s.db = some o) :
    (s.allocate worker x).attempts = opened s.attempts worker o := by
  unfold Sys.allocate
  rw [h]
  cases o <;> rfl

/-- **Simulation.** Every action of the system is a path of allowed moves on the floor. -/
theorem Allows.step_path (cfg : Settings) {s : Sys} (h : s.Live) {a : Act} (hp : Allows H s a) :
    Path Floor.Step H s.floor (step cfg s a).floor := by
  have hregular := hp.regular
  cases a with
  | createAgent now campaign_id ext_ref =>
    unfold Sys.floor
    rcases Txn.commit_cases (AgentRepo.create now campaign_id ext_ref) s.db with
      ⟨i, hrun, _⟩ | ⟨hc, _⟩
    · rw [step, Sys.exec_db, insertAgent_run hrun]
      exact .single (hregular _ .hired trivial) (.hired rfl)
    · rw [step, Sys.exec_db, hc]; exact .refl _
  | login now agent_id =>
    exact .single (hp.staffed now agent_id (Or.inl rfl)) (.staffed (Or.inl rfl))
  | logout now agent_id =>
    exact .single (hp.staffed now agent_id (Or.inr (Or.inl rfl))) (.staffed (Or.inr (Or.inl rfl)))
  | pause now agent_id =>
    exact .single (hp.staffed now agent_id (Or.inr (Or.inr rfl))) (.staffed (Or.inr (Or.inr rfl)))
  | seed now campaign_id phone priority max_attempts =>
    obtain ⟨db', hrun, hv⟩ := BorrowerRepo.seed_run now campaign_id phone priority max_attempts s.db
    unfold Sys.floor
    rw [step, Sys.exec_db, (Txn.commit_of_run hrun).1]
    rcases hv with hv | hv <;> rw [hv]
    · exact .single (hregular _ .seeded trivial) .seeded
    · exact .refl _
  | reserveAndCreate now clock_now lockedAgents lockedBorrowers pick worker campaign_id =>
    unfold Sys.floor
    rw [step, Sys.allocate_db]
    rcases Txn.commit_cases (SmartDialer.reserveAndCreate now lockedAgents lockedBorrowers pick
      worker campaign_id (reserveUntil clock_now cfg)) s.db with ⟨o, hrun, hres⟩ | ⟨hc, hnone⟩
    · rw [allocate_attempts s worker hres]
      exact (reserveAndCreate_cases hrun).path hregular s.attempts
    · -- the transaction raised: nothing is written and no attempt is opened
      rw [hc]
      unfold Sys.allocate
      rw [hnone]
      exact .refl _
  | placeCall call_id =>
    rw [step]
    unfold Sys.placeCall
    split
    · split
      · exact .refl _
      · exact .single (hregular _ .placed trivial) .placed
    · exact .refl _
  | rejected now call_id =>
    rcases s.settle_cases call_id fun a => recordRejected now a.reservation with
      ⟨att, hatt, hplaced, hdb, hattempts⟩ | hs
    · unfold Sys.floor
      rw [step, hdb, hattempts]
      exact recordRejected_path hregular now hatt h.healthy
        (hp.refusedLate now call_id att rfl hatt hplaced)
    · rw [step, hs]; exact .refl _
  | accepted now clock_now call_id pcid =>
    rcases s.settle_cases call_id fun a =>
        recordInitiated now a.reservation pcid a.worker (dialUntil clock_now cfg) with
      ⟨att, hatt, hplaced, hdb, hattempts⟩ | hs
    · unfold Sys.floor
      rw [step, hdb, hattempts]
      exact recordInitiated_path hregular now hatt pcid att.worker _ h.healthy
        (hp.dialedLate now clock_now call_id pcid att rfl hatt hplaced)
    · rw [step, hs]; exact .refl _
  | abandon call_id => exact .single (hregular _ .forgotten trivial) .forgotten
  | pullback now call_id => exact cancelCandidate_path hregular now call_id h.healthy s.attempts
  | reap now clock_now registry =>
    obtain ⟨res, db', hrun, hv⟩ := reap_run now clock_now registry s.db
    unfold Sys.floor
    rw [step, Sys.reap_db, (Txn.commit_of_run hrun).1, hv]
    exact reap_path hregular now clock_now h.healthy s.attempts
      (fun F i c => hp.orphaned now clock_now registry F i c rfl)
      (fun F => hp.unlocked now clock_now registry F rfl)
  | ingest now provider event_id call_ref etype ts payload =>
    obtain ⟨o, db', hrun, hv⟩ := EventRepo.ingest_run now provider event_id call_ref etype ts
      payload s.db
    unfold Sys.floor
    rw [step, Sys.exec_db, (Txn.commit_of_run hrun).1]
    rcases hv with ⟨_, _, hv⟩ | ⟨_, _, rfl⟩
    · rw [hv]; exact .refl _
    · exact .refl _
  | fetch now w limit =>
    obtain ⟨rows, hs, _⟩ := s.fetch_cases now w limit
    rw [step, hs]; exact .refl _
  | read clock_now w =>
    rcases s.read_cases cfg clock_now w with ⟨_, _, _, _, _, _, _, hs⟩ | hs <;>
      rw [step, hs] <;> exact .refl _
  | commit w =>
    rcases s.commit_cases cfg w with ⟨now, plan, hd, _, hs⟩ | hs
    · rw [step, hs]
      exact commitDrain_path hregular (d := ⟨now, [], plan⟩) h.healthy (h.planned w _ hd) s.attempts
    · rw [step, hs]; exact .refl _
  | rollback w => exact .refl _

/-- The simulation where second transactions may come too late. -/
theorem step_path (cfg : Settings) {s : Sys} (h : s.Live) {a : Act} (hp : Permits H s a) :
    Path Floor.Step H s.floor (step cfg s a).floor := hp.allows.step_path cfg h

end SmartDialer
