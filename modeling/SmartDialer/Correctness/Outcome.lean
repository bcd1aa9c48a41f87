import SmartDialer.Correctness.EventEffects
import SmartDialer.Correctness.Frequency
import SmartDialer.Correctness.Underway

namespace SmartDialer

open Relational

/-!
# The outcome of a call

The first event with a terminal state ends a call, and from then on the check refuses every event.
So if the events of a dialed call can end it in one state only, the outcome is told by that state,
whatever the order of the events and however often each of them is delivered.
-/

/-- `T` is among the deliveries: with an event that is new, and that reports `T` whenever it is
    delivered. -/
def Heard (db : Db) (provider : String) (T : CallState) (ds : List Delivery) : Prop :=
  ∃ d ∈ ds, ¬ db.Recorded provider d.event_id ∧
    ∀ d' ∈ ds, d'.event_id = d.event_id → d'.incoming = some T

/-- The deliveries are a list, so it can be searched. -/
instance (db : Db) (provider : String) (T : CallState) (ds : List Delivery) :
    Decidable (Heard db provider T ds) :=
  inferInstanceAs (Decidable (∃ d ∈ ds, ¬ db.Recorded provider d.event_id ∧
    ∀ d' ∈ ds, d'.event_id = d.event_id → d'.incoming = some T))

/-- The final states: the call and its rank, the agent, the borrower and its attempts. -/
def finalStates (db : Db) (call_id agent_id borrower_id : ℕ) :
    Option (CallState × ℕ) × Option AgentState × Option (ℕ × BorrowerState) :=
  ((db.calls.get? call_id).map fun c => (c.state, c.state_rank),
    (db.agents.get? agent_id).map (·.state),
    (db.borrowers.get? borrower_id).map fun b => (b.attempt_count, b.state))

section

variable {db : Db} {call_id agent_id : ℕ} {c : CallRow} {b : BorrowerRow} {ref event_id : String}
  {T : CallState}

/-- In every run a call that is initiated, and whose agent is dialing it, is dialed in this sense:
    it has a reference, its rank agrees with its state, and its borrower exists. -/
theorem dialed_of_run (cfg : Settings) (acts : List Act) {a : AgentRow}
    (hc : (run (step cfg) Sys.init acts).db.calls.get? call_id = some c)
    (hs : c.state = .INITIATED) (hca : c.agent_id = some agent_id)
    (ha : (run (step cfg) Sys.init acts).db.agents.get? agent_id = some a)
    (has : a.state = .DIALING) (hcur : a.current_call_id = some call_id) :
    ∃ b ref, Dialed (run (step cfg) Sys.init acts).db call_id agent_id c b ref := by
  have hset := (live_run cfg acts).healthy.settled call_id c hc
  obtain ⟨b, hb, _⟩ := (capped_run cfg acts).1.borrower call_id c hc
  -- the transaction that made it `INITIATED` gave it a reference
  have href : c.provider_call_id ≠ none := by
    intro hnone
    rcases hset.undialed hnone with hreserved | hterminal
    · rw [hs] at hreserved
      cases hreserved
    · rw [hs] at hterminal
      exact absurd hterminal (by decide)
  obtain ⟨ref, hcref⟩ := Option.ne_none_iff_exists'.mp href
  exact ⟨b, ref, hc, hs, by rw [hset.rank_eq, hs], hcref, ⟨a, ha, has, hcur⟩, hb, hca⟩

/-- After some deliveries the call is underway, every delivered event is recorded, and the call is
    over if the event that reports `T` is recorded. -/
structure Delivered (db : Db) (call_id agent_id : ℕ) (c : CallRow) (b : BorrowerRow) (T : CallState)
    (event_id : String) (ds : List Delivery) (db' : Db) : Prop where
  underway : ∃ state, Underway db.view call_id agent_id c b T state db'.view ∧
    (db'.Recorded c.provider event_id → state = T)
  recorded : ∀ d ∈ ds, db'.Recorded c.provider d.event_id

/-- Applying an event leaves the ledger with the row that was ingested and the rows before it. -/
theorem recorded_iff {db' db₁ : Db} {ev : EventRow} {read : ReadResult}
    {o : Option CallState} {now clock_now wrapup : Time}
    (hview : db₁.view = { db.view with provider_events := db.provider_events.push ev })
    (happ : Applied now (db.provider_events.nextId, ev) clock_now wrapup db₁ read o db'.view)
    (p id : String) :
    db'.Recorded p id ↔ db.Recorded p id ∨ ev.provider = p ∧ ev.provider_event_id = id := by
  obtain ⟨f, hledger, hsame, _⟩ := happ.mark
  have hpush : db₁.provider_events = db.provider_events.push ev :=
    congrArg View.provider_events hview
  rw [Db.view_provider_events, hpush] at hledger
  unfold Db.Recorded
  rw [hledger]
  constructor
  · rintro ⟨i, e, he, hp, hid⟩
    obtain ⟨e₁, he₁, heq⟩ := Table.exists_of_get?_alter he
    -- marking a row does not change which event it is of
    have hs : e.SameEvent e₁ := by
      rw [heq]
      split
      · exact hsame e₁
      · exact ⟨rfl, rfl⟩
    rcases Table.cases_of_get?_push he₁ with ⟨_, rfl⟩ | hold
    · exact Or.inr ⟨hs.1.symm.trans hp, hs.2.symm.trans hid⟩
    · exact Or.inl ⟨i, e₁, hold, hs.1.symm.trans hp, hs.2.symm.trans hid⟩
  · rintro (⟨i, e, he, hp, hid⟩ | ⟨hp, hid⟩)
    · refine ⟨i, e, ?_, hp, hid⟩
      rw [Table.get?_alter, if_neg (Table.ne_nextId he), Table.get?_push,
        if_neg (Table.ne_nextId he), he]
    · refine ⟨db.provider_events.nextId, f ev, ?_, (hsame ev).1.trans hp, (hsame ev).2.trans hid⟩
      rw [Table.get?_alter, if_pos rfl, Table.get?_push, if_pos rfl]
      rfl

/-- **One delivery.** Known events change nothing, and new ones are applied. -/
theorem Delivered.deliver {db' : Db} {ds : List Delivery} {d : Delivery} {s : CallState}
    (hdb' : Delivered db call_id agent_id c b T event_id ds db')
    (h : Dialed db call_id agent_id c b ref) (hT : T.isTerminal = true)
    (hin : d.incoming = some s) (hs : Reports T s) (hend : d.event_id = event_id → s = T)
    (wrapup : Time) :
    Delivered db call_id agent_id c b T event_id (ds ++ [d])
      (deliver wrapup c.provider ref db' d) := by
  obtain ⟨state, hunder, hover⟩ := hdb'.underway
  by_cases hknown : db'.Recorded c.provider d.event_id
  · -- a repeated delivery is dropped by the ledger
    rw [deliver_known hknown]
    refine ⟨⟨state, hunder, hover⟩, fun d' hd' => ?_⟩
    rcases List.mem_append.mp hd' with hold | hlast
    · exact hdb'.recorded d' hold
    · rw [List.mem_singleton.mp hlast]
      exact hknown
  · obtain ⟨c', hc', _, _, hp, href, _⟩ := hunder.advanced.call
    rw [Db.view_calls] at hc'
    rw [← hp] at hknown
    obtain ⟨db₁, o, hview, happ⟩ :=
      deliver_new wrapup hknown hc' (href.trans h.provider_call_id) hin
    rw [hp] at hview happ
    have hrecorded := recorded_iff hview happ
    have hunder₁ : Underway db.view call_id agent_id c b T state db₁.view := by
      rw [hview]
      exact hunder.of_eq rfl rfl rfl rfl
    have hc₁ : db₁.calls.get? call_id = some c' := by
      rw [← Db.view_calls, hview]
      exact hc'
    have hpcid : c.provider_call_id.isSome = true := by
      rw [h.provider_call_id]
      rfl
    obtain ⟨state', hunder', hover'⟩ := hunder₁.applied hT hc₁ h.agent_id hpcid hs happ
    refine ⟨⟨state', hunder', fun hrec => ?_⟩, fun d' hd' => ?_⟩
    · rcases (hrecorded c.provider event_id).mp hrec with hold | ⟨_, hid⟩
      · -- it was over before
        have hstate := hover hold
        exact hover' (Or.inl (by rw [hstate]; exact hT))
      · exact hover' (Or.inr (hend hid))
    · rw [hrecorded]
      rcases List.mem_append.mp hd' with hold | hlast
      · exact Or.inl (hdb'.recorded d' hold)
      · rw [List.mem_singleton.mp hlast]
        exact Or.inr ⟨rfl, rfl⟩

/-- **All deliveries.** By induction on the sequence from its end. -/
theorem delivered_run (h : Dialed db call_id agent_id c b ref) (hT : T.isTerminal = true)
    (hnew : ¬ db.Recorded c.provider event_id) (wrapup : Time) {ds : List Delivery}
    (hds : ∀ d ∈ ds, d.incoming ∈ [some .RINGING, some .ANSWERED, some T])
    (hend : ∀ d ∈ ds, d.event_id = event_id → d.incoming = some T) :
    Delivered db call_id agent_id c b T event_id ds
      (run (deliver wrapup c.provider ref) db ds) := by
  -- from the end of the list: the last delivery meets the state that the others left
  induction ds using List.reverseRecOn with
  | nil =>
    exact ⟨⟨.INITIATED, h.underway T, fun hrec => absurd hrec hnew⟩, fun d hd => by cases hd⟩
  | append_singleton ds d ih =>
    have hpre := ih (fun e he => hds e (List.mem_append_left _ he))
      (fun e he => hend e (List.mem_append_left _ he))
    have hd : d ∈ ds ++ [d] := by simp
    obtain ⟨s, hin, hs⟩ : ∃ s, d.incoming = some s ∧ Reports T s := by
      have hmem := hds d hd
      simp only [List.mem_cons, List.not_mem_nil, or_false] at hmem
      rcases hmem with hin | hin | hin
      · exact ⟨_, hin, Or.inl rfl⟩
      · exact ⟨_, hin, Or.inr (Or.inl rfl)⟩
      · exact ⟨_, hin, Or.inr (Or.inr rfl)⟩
    rw [run_concat]
    refine hpre.deliver h hT hin hs (fun hid => ?_) wrapup
    have hT' := hend d hd hid
    rw [hin] at hT'
    exact Option.some.inj hT'

/-- A call that has heard of `T` ends in `T`. -/
theorem Heard.underway (h : Dialed db call_id agent_id c b ref) (hT : T.isTerminal = true)
    (wrapup : Time) {ds : List Delivery}
    (hds : ∀ d ∈ ds, d.incoming ∈ [some .RINGING, some .ANSWERED, some T])
    (hheard : Heard db c.provider T ds) :
    Underway db.view call_id agent_id c b T T
      (run (deliver wrapup c.provider ref) db ds).view := by
  obtain ⟨d, hd, hnew, hend⟩ := hheard
  obtain ⟨⟨state, hunder, hover⟩, hrecorded⟩ := delivered_run h hT hnew wrapup hds hend
  have hstate : state = T := hover (hrecorded d hd)
  rwa [hstate] at hunder

/-- What `on_call_terminal` makes of the borrower's state does not depend on the time. -/
private theorem endedRow_state_eq (now now' : Time) (T : CallState) (backoff : Time)
    (b : BorrowerRow) : (BorrowerRepo.endedRow now T backoff b).state
      = (BorrowerRepo.endedRow now' T backoff b).state := by
  unfold BorrowerRepo.endedRow
  split <;> rfl

/-- The final states of a call that has ended. -/
theorem Underway.finalStates {db' : Db} (h : Underway db.view call_id agent_id c b T T db'.view)
    (hT : T.isTerminal = true) (now : Time) :
    finalStates db' call_id agent_id c.borrower_id = (some (T, 6), agentOnCallState T,
      some (b.attempt_count + 1, (BorrowerRepo.endedRow now T (secs 60) b).state)) := by
  obtain ⟨c', hc', hcs, hcr, _⟩ := h.advanced.call
  obtain ⟨a, ha, hatt⟩ := h.agent
  obtain ⟨now', hb⟩ := h.ended hT
  -- every terminal state has the top rank
  have hrank : rank T = 6 := by
    have hle := rank_le_terminalRank T
    have hge := isTerminal_iff.mp hT
    unfold terminalRank at hle
    omega
  have hringing : T.isRinging = false := by
    cases T <;> first | rfl | exact absurd hT (by decide)
  -- the agent's state is the one that the final event set, no longer the dialing one
  rw [Attending, hringing, if_neg Bool.false_ne_true] at hatt
  rw [Db.view_calls] at hc'
  rw [Db.view_agents] at ha
  rw [Db.view_borrowers] at hb
  unfold SmartDialer.finalStates
  rw [hc', ha, hb, Option.map_some, Option.map_some, Option.map_some, hcs, hcr, hrank, hatt,
    BorrowerRepo.endedRow_attempt_count, endedRow_state_eq now' now]

/-- **Order independence.** Let a call be dialed.  Whatever events of it are delivered, in whatever
    order and however often, if `T` is among them the call ends in `T`, its agent and its borrower
    in the states that `T` entails, with one attempt more; the call is answered and bridged at most
    once on the way; and any other such deliveries lead to the same states. -/
theorem outcome_order_independent (h : Dialed db call_id agent_id c b ref)
    (hT : T.isTerminal = true) (wrapup : Time) (ds : List Delivery)
    (hds : ∀ d ∈ ds, d.incoming ∈ [some .RINGING, some .ANSWERED, some T])
    (hheard : Heard db c.provider T ds) :
    (∀ now, finalStates (run (deliver wrapup c.provider ref) db ds) call_id agent_id c.borrower_id
      = (some (T, 6), agentOnCallState T,
        some (b.attempt_count + 1, (BorrowerRepo.endedRow now T (secs 60) b).state))) ∧
    (∃ w : List CallRow, (run (deliver wrapup c.provider ref) db ds).versions
        = db.versions ++ w.map (fun r => (call_id, r)) ∧
      (w.map (·.state)).count .ANSWERED ≤ 1 ∧ (w.map (·.state)).count .CONNECTED ≤ 1) ∧
    ∀ ds', (∀ d ∈ ds', d.incoming ∈ [some .RINGING, some .ANSWERED, some T]) →
      Heard db c.provider T ds' →
      finalStates (run (deliver wrapup c.provider ref) db ds') call_id agent_id c.borrower_id
        = finalStates (run (deliver wrapup c.provider ref) db ds) call_id agent_id
          c.borrower_id := by
  have hover := hheard.underway h hT wrapup hds
  refine ⟨hover.finalStates hT, ?_, fun ds' hds' hheard' => ?_⟩
  · obtain ⟨w, hv, hw, _⟩ := hover.advanced.written
    -- images of increasing ranks have different states
    have hnd : (w.map (·.state)).Nodup := by
      refine hw.imp fun hlt heq => ?_
      rw [heq] at hlt
      exact lt_irrefl _ hlt
    exact ⟨w, hv, List.nodup_iff_count_le_one.mp hnd _, List.nodup_iff_count_le_one.mp hnd _⟩
  · rw [hover.finalStates hT 0, (hheard'.underway h hT wrapup hds').finalStates hT 0]

end

/-- A call that has just been dialed. -/
def dialedRun : List Act :=
  [.createAgent 0 7 "ext-1", .login 0 1, .seed 0 7 "+15550001" 100 3,
    .reserveAndCreate 0 0 [] [] (some "mock") "w1" 7, .placeCall 1,
    .accepted (secs 1) (secs 1) 1 "pc-1"]

/-- Its row. -/
def dialedCall : CallRow :=
  CallRepo.advancedRow (secs 1) .INITIATED (some "pc-1") (some (dialUntil (secs 1) .default)) none
    (CallRepo.createdRow 0 7 1 1 "mock" 1 (idempotencyKey 7 1 1) "w1" (reserveUntil 0 .default))

/-- Events that overtake each other, one of them delivered twice and one repeated by another. -/
def overtakingEvents : List Delivery :=
  [⟨"e-2", "answered", secs 3, "", secs 4, secs 4⟩,
    ⟨"e-3", "no-answer", secs 5, "", secs 6, secs 6⟩,
    ⟨"e-1", "ringing", secs 2, "", secs 7, secs 7⟩, ⟨"e-2", "answered", secs 3, "", secs 8, secs 8⟩,
    ⟨"e-4", "FAILED", secs 5, "", secs 9, secs 9⟩]

/-- Five deliveries, in this order and in the reverse one: the call fails either way, and its agent
    and borrower end up the same. -/
theorem outcome_order_independent_overtakingEvents :
    let db := (run (step .default) Sys.init dialedRun).db
    finalStates (run (deliver (secs 8) "mock" "pc-1") db overtakingEvents) 1 1 1
        = (some (.FAILED, 6), some .AVAILABLE, some (1, .PENDING)) ∧
      finalStates (run (deliver (secs 8) "mock" "pc-1") db overtakingEvents.reverse) 1 1 1
        = finalStates (run (deliver (secs 8) "mock" "pc-1") db overtakingEvents) 1 1 1 := by
  -- the rows that the run leaves are the ones the statement assumes
  have hdialed : Dialed (run (step .default) Sys.init dialedRun).db 1 1 dialedCall
      (BorrowerRepo.lockedRow "w1" (reserveUntil 0 .default)
        (BorrowerRepo.seededRow 0 7 "+15550001" 100 3)) "pc-1" :=
    { call := by decide +kernel
      state := rfl
      state_rank := rfl
      provider_call_id := rfl
      agent := by
        refine ⟨AgentRepo.forcedRow (secs 1) .DIALING (some "w1")
          (some (dialUntil (secs 1) .default)) (some 1) (AgentRepo.reservedRow 0 "w1"
            (reserveUntil 0 .default) (AgentRepo.forcedRow 0 .AVAILABLE none none none
              ⟨7, "ext-1", .OFFLINE, 0, none, none, none, 0, 0⟩)), ?_, rfl, rfl⟩
        decide +kernel
      borrower := by decide +kernel
      agent_id := rfl }
  obtain ⟨hfinal, _, hsame⟩ := outcome_order_independent hdialed (T := .FAILED) rfl (secs 8)
    overtakingEvents (by decide +kernel) (by decide +kernel)
  exact ⟨hfinal 0, hsame overtakingEvents.reverse (by decide +kernel) (by decide +kernel)⟩

end SmartDialer
