import SmartDialer.Correctness.Cancels

namespace SmartDialer

open Relational

/-!
# What a transaction writes to a call

`CallRow.Evolves` says what every later image of a call has in common with it.  Here it is said how
the image comes about: a transaction creates one call, dials one call, or takes calls along by
legal edges that do not lead to `INITIATED` (`step_calls`).  So no call starts to ring except by
being dialed, and the timestamps of a call that rings are known (`CallRow.Stamped`).
-/

/-- What a transaction other than the one that dials makes of a call. -/
inductive CallRow.Write (c : CallRow) : CallRow → Prop
  | advanced {now : Time} {state : CallState} {pcid : Option String} {lease_until : Option Time}
      {reason : Option String} (hs : state ∈ legalNext c.state) (hne : state ≠ .INITIATED) :
      Write c (CallRepo.advancedRow now state pcid lease_until reason c)
  | cancelled {now : Time} {reason : String} (hs : c.state.isRinging = true) :
      Write c (CallRepo.cancelledRow now reason c)
  | orphaned {now now_ts : Time} (ho : isOrphan now_ts c = true) : Write c (orphanedRow now c)

/-- Any number of such writes. -/
abbrev CallRow.Writes : CallRow → CallRow → Prop := Relation.ReflTransGen CallRow.Write

/-- No write takes a call back. -/
theorem CallRow.Write.rank_le {c c' : CallRow} (h : c.Write c') : rank c.state ≤ rank c'.state := by
  cases h with
  | advanced hs => exact (legalNext_rank hs).le
  | cancelled | orphaned => exact rank_le_terminalRank c.state

/-- No number of writes takes a call back. -/
theorem CallRow.Writes.rank_le {c c' : CallRow} (h : c.Writes c') :
    rank c.state ≤ rank c'.state := by
  induction h with
  | refl => exact le_rfl
  | tail _ hw ih => exact ih.trans hw.rank_le

namespace View

/-- The calls are the same ones, each along some writes. -/
structure Wrote (v v' : View) : Prop where
  kept : ∀ k c, v.calls.get? k = some c → ∃ c', v'.calls.get? k = some c' ∧ c.Writes c'
  none_new : ∀ k, v.calls.get? k = none → v'.calls.get? k = none

/-- An unwritten table is one along no writes. -/
theorem Wrote.of_calls_eq {v v' : View} (h : v'.calls = v.calls) : v.Wrote v' where
  kept k c hc := ⟨c, by rw [h, hc], .refl⟩
  none_new k hk := by rw [h, hk]

/-- Doing nothing is writing nothing. -/
theorem Wrote.refl (v : View) : v.Wrote v := .of_calls_eq rfl

/-- Writes may follow each other. -/
theorem Wrote.trans {v₁ v₂ v₃ : View} (h₁ : v₁.Wrote v₂) (h₂ : v₂.Wrote v₃) : v₁.Wrote v₃ where
  kept k c hc := by
    obtain ⟨c', hc', h⟩ := h₁.kept k c hc
    obtain ⟨c'', hc'', h'⟩ := h₂.kept k c' hc'
    exact ⟨c'', hc'', h.trans h'⟩
  none_new k hk := h₂.none_new k (h₁.none_new k hk)

/-- A row after the writes comes from one before them. -/
theorem Wrote.before {v v' : View} (h : v.Wrote v') {k : ℕ} {c' : CallRow}
    (hc' : v'.calls.get? k = some c') : ∃ c, v.calls.get? k = some c ∧ c.Writes c' := by
  cases hc : v.calls.get? k with
  | none =>
    rw [h.none_new k hc] at hc'
    cases hc'
  | some c =>
    obtain ⟨c'', hc'', hw⟩ := h.kept k c hc
    rw [hc', Option.some.injEq] at hc''
    exact ⟨c, rfl, hc'' ▸ hw⟩

/-- The rows selected by a filter are written. -/
theorem Wrote.modify {v v' : View} {p : ℕ → CallRow → Bool} {f : CallRow → CallRow}
    (h : v'.calls = v.calls.modify p f) (hf : ∀ k c, v.calls.get? k = some c → p k c = true →
      c.Writes (f c)) : v.Wrote v' where
  kept k c hc := by
    refine ⟨if p k c then f c else c, by rw [h, Table.get?_modify, hc]; rfl, ?_⟩
    split
    · rename_i hp
      exact hf k c hc hp
    · exact .refl
  none_new k hk := by rw [h, Table.get?_modify, hk]; rfl

/-- Writing one row along some writes leaves the other rows. -/
theorem Wrote.setCall {v : View} {i : ℕ} {c : CallRow} {f : CallRow → CallRow}
    (hc : v.calls.get? i = some c) (hf : c.Writes (f c)) : v.Wrote (v.setCall i c f) := by
  apply Wrote.modify (p := fun k _ => k == i) (f := f) rfl
  intro k d hd hp
  rw [beq_iff_eq.mp hp, hc, Option.some.injEq] at hd
  exact hd ▸ hf

end View

/-! ### Transactions -/

/-- A tick of the reaper writes to its orphans. -/
theorem reap_wrote (now now_ts : Time) (registry : Option (List String)) (db : Db) :
    db.view.Wrote ((reap now now_ts registry).commit db).view :=
  .modify (reap_calls now now_ts registry db) fun _ _ _ ho => .single (.orphaned ho)

/-- A pullback writes at most its own call. -/
theorem cancelCandidate_wrote (now : Time) (call_id : ℕ) (db : Db) :
    db.view.Wrote ((cancelCandidate now call_id).commit db).view :=
  .modify (cancelCandidate_calls now call_id db) fun _ _ _ hp =>
    .single (.cancelled (Bool.and_eq_true_iff.mp hp).2)

/-- The transaction after a `ProviderError` writes at most its own call. -/
theorem recordRejected_wrote (now : Time) (r : Reservation) {db : Db} (h : db.view.Healthy) :
    db.view.Wrote ((recordRejected now r).commit db).view := by
  obtain ⟨db₁, db', hrun, hview, hcall⟩ := recordRejected_run now r db
  have hfail : db.view.Wrote db₁.view := by
    rcases hcall with ⟨rfl, _⟩ | ⟨c, hc, hrank, hv⟩
    · exact .refl _
    · have hs : c.state.isTerminal = false :=
        not_isTerminal_iff.mpr ((h.settled _ c hc).rank_eq ▸ hrank)
      rw [hv]
      exact .setCall hc (.single (.advanced (legalNext_terminal hs rfl) (by decide)))
  rw [(Txn.commit_of_run hrun).1, hview]
  exact hfail.trans (.of_calls_eq rfl)

/-- **`apply_one`, second half.** -/
theorem Applied.wrote {now : Time} {p : Planned} {clock_now wrapup : Time} {db : Db}
    {o : Option CallState} {v : View} (h : Applied now p.event clock_now wrapup db p.read o v)
    (hh : db.view.Healthy) (hp : p.Valid db.view) : db.view.Wrote v := by
  generalize hread : p.read = read at h
  cases h with
  | unknown => exact .of_calls_eq rfl
  | raised => exact .refl _
  | refused => exact .of_calls_eq rfl
  | lost => exact .of_calls_eq rfl
  | @moved call_id incoming c hi hc hrank =>
    obtain ⟨hin, c', hc', href⟩ := hp call_id incoming hread
    rw [Db.view_calls, hc, Option.some.injEq] at hc'
    subst hc'
    have hset := hh.settled call_id c hc
    -- whatever the call has done since the read, a higher rank is a legal edge
    have hs := legalNext_of_rank hset.not_queued (hset.dialed href) hset.not_answered hin
      (hset.rank_eq ▸ hrank)
    have hne : incoming ≠ .INITIATED := by
      rintro rfl
      rcases hin with h | h | h <;> cases h
    have hadv : db.view.Wrote (db.view.setCall call_id c (CallRepo.advancedRow now incoming
        p.event.2.provider_call_id none none)) := .setCall hc (.single (.advanced hs hne))
    exact hadv.trans (.of_calls_eq (by simp))
  | @bridged call_id c answered next hc hrank ha hn =>
    obtain ⟨hin, c', hc', href⟩ := hp call_id .ANSWERED hread
    rw [Db.view_calls, hc, Option.some.injEq] at hc'
    subst hc'
    have hset := hh.settled call_id c hc
    have hs := legalNext_of_rank hset.not_queued (hset.dialed href) hset.not_answered
      (Or.inr (Or.inl rfl)) (hset.rank_eq ▸ hrank)
    have hnext : next ∈ legalNext .ANSWERED ∧ next ≠ .INITIATED := by
      rw [hn]; unfold bridgeState; split <;> decide
    subst ha
    -- bridging writes the row twice, each time along an edge
    have hadv₁ : db.view.Wrote (db.view.setCall call_id c (CallRepo.advancedRow now .ANSWERED
        p.event.2.provider_call_id none none)) := .setCall hc (.single (.advanced hs (by decide)))
    have hadv₂ : View.Wrote _ ((db.view.setCall call_id c (CallRepo.advancedRow now .ANSWERED
        p.event.2.provider_call_id none none)).setCall call_id
          (CallRepo.advancedRow now .ANSWERED p.event.2.provider_call_id none none c)
          (CallRepo.advancedRow now next none none none)) :=
      .setCall (by simp [hc]) (.single (.advanced hnext.1 hnext.2))
    exact (hadv₁.trans hadv₂).trans (.of_calls_eq (by simp))

/-- The rank of a call after an event that passed its check was applied. -/
def rankAfter (agents : Table AgentRow) (k : ℕ) (incoming : CallState) (c : CallRow) : ℕ :=
  if c.state_rank < rank incoming then
    if incoming = .ANSWERED then rank (bridgeState agents k c) else rank incoming
  else c.state_rank

/-- The call of an event that passed its check gets this rank, and no other call a new one. -/
theorem Applied.ranks {now clock_now wrapup : Time} {p : Planned} {db : Db}
    {o : Option CallState} {v : View} (h : Applied now p.event clock_now wrapup db p.read o v)
    {k : ℕ} {c : CallRow} (hc : db.calls.get? k = some c) :
    ∃ c', v.calls.get? k = some c' ∧ c'.agent_id = c.agent_id ∧
      ((∃ incoming, p.read = .passed k incoming ∧
          c'.state_rank = rankAfter db.agents k incoming c) ∨
        (∀ incoming, p.read ≠ .passed k incoming) ∧ c'.state_rank = c.state_rank) := by
  generalize p.read = read at h
  cases h with
  | unknown | raised | refused =>
    exact ⟨c, hc, rfl, Or.inr ⟨fun _ h => (nomatch h), rfl⟩⟩
  | @lost call_id incoming hlost =>
    refine ⟨c, hc, rfl, ?_⟩
    by_cases hk : call_id = k
    · subst hk
      refine Or.inl ⟨incoming, rfl, ?_⟩
      -- the race was lost: the call had reached the rank of the event
      rw [rankAfter, if_neg (not_lt.mpr (hlost c hc))]
    · exact Or.inr ⟨fun s hs => hk (by cases hs; rfl), rfl⟩
  | @moved call_id incoming d hi hd hrank =>
    rw [View.setEvent_calls, View.sideEffects_calls, View.setCall_calls, Table.get?_alter]
    by_cases hk : k = call_id
    · subst hk
      obtain rfl := Option.some.inj (hc.symm.trans hd)
      rw [if_pos rfl, Db.view_calls, hc]
      refine ⟨_, rfl, rfl, Or.inl ⟨incoming, rfl, ?_⟩⟩
      rw [rankAfter, if_pos hrank, if_neg hi]
      rfl
    · rw [if_neg hk, Db.view_calls, hc]
      exact ⟨c, rfl, rfl, Or.inr ⟨fun s hs => hk (by cases hs; rfl), rfl⟩⟩
  | @bridged call_id d answered next hd hrank ha hn =>
    rw [View.setEvent_calls, View.sideEffects_calls, View.setCall_calls, View.setCall_calls,
      Table.alter_alter, Table.get?_alter]
    by_cases hk : k = call_id
    · subst hk
      obtain rfl := Option.some.inj (hc.symm.trans hd)
      rw [if_pos rfl, Db.view_calls, hc]
      refine ⟨_, rfl, rfl, Or.inl ⟨.ANSWERED, rfl, ?_⟩⟩
      rw [rankAfter, if_pos (show c.state_rank < rank .ANSWERED from hrank), if_pos rfl, ← hn]
      rfl
    · rw [if_neg hk, Db.view_calls, hc]
      exact ⟨c, rfl, rfl, Or.inr ⟨fun s hs => hk (by cases hs; rfl), rfl⟩⟩

/-- A drain takes calls along legal edges, and dials none. -/
theorem commitDrain_wrote {cfg : Settings} {d : Drain} {db : Db} (hh : db.view.Healthy)
    (hp : ∀ p ∈ d.plan, p.Valid db.view) :
    db.view.Wrote ((commitDrain cfg d).commit db).view := by
  rcases Txn.commit_cases (commitDrain cfg d) db with ⟨moved, hrun, _⟩ | ⟨h, _⟩
  · obtain ⟨db₁, h₁, hv⟩ := commitDrain_run hrun
    have hplan := (related_applyPlan (R := View.Wrote) View.Wrote.refl
      (fun _ _ _ => View.Wrote.trans) (fun _ _ _ _ hh hv ha => ha.wrote hh hv) hh hp h₁).1
    rw [hv]
    exact hplan.trans (.of_calls_eq rfl)
  · rw [h]; exact .refl _

/-! ### Actions -/

/-- What an action does to the calls. -/
inductive Sys.CallsStep (s s' : Sys) : Prop
  | wrote (h : s.db.view.Wrote s'.db.view)
  | created {now : Time} {campaign_id agent_id borrower_id : ℕ} {provider : String}
      {attempt_no : ℕ} {idem worker : String} {lease_until : Time}
      (h : s'.db.calls = s.db.calls.push (CallRepo.createdRow now campaign_id agent_id borrower_id
        provider attempt_no idem worker lease_until))
  | dialed {k : ℕ} {c : CallRow} {now : Time} {pcid : String} {lease_until : Time}
      (hc : s.db.calls.get? k = some c) (hs : c.state = .RESERVED)
      (h : s'.db.calls = s.db.calls.alter k
        (CallRepo.advancedRow now .INITIATED (some pcid) (some lease_until) none))

/-- A settled call below `INITIATED` is reserved. -/
private theorem reserved_of_rank {c : CallRow} (h : c.Settled) (hrank : c.state_rank < 2) :
    c.state = .RESERVED := by
  rw [h.rank_eq] at hrank
  have hq := h.not_queued
  cases hs : c.state <;> rw [hs] at hrank hq <;>
    first | rfl | exact absurd rfl hq | exact absurd hrank (by decide)

/-- An action that leaves the calls alone. -/
private theorem Sys.wrote_of_eq {s s' : Sys} (h : s'.db.calls = s.db.calls) :
    s.db.view.Wrote s'.db.view := .of_calls_eq h

/-- An action that reserves nobody takes calls along or dials one. -/
theorem step_calls_known (cfg : Settings) {s : Sys} (h : s.Live) {a : Act}
    (ha : ∀ now clock_now la lb pick w c, a ≠ .reserveAndCreate now clock_now la lb pick w c) :
    s.db.view.Wrote (step cfg s a).db.view ∨ ∃ k c now pcid lease_until,
      s.db.calls.get? k = some c ∧ c.state = .RESERVED ∧ (step cfg s a).db.calls =
        s.db.calls.alter k
          (CallRepo.advancedRow now .INITIATED (some pcid) (some lease_until) none) := by
  cases a with
  | createAgent now campaign_id ext_ref =>
    rcases Txn.commit_cases (AgentRepo.create now campaign_id ext_ref) s.db with
      ⟨i, hrun, _⟩ | ⟨hc, _⟩
    · apply Or.inl
      apply Sys.wrote_of_eq
      rw [step, Sys.exec_db]
      exact congrArg View.calls (insertAgent_run hrun)
    · exact Or.inl (Sys.wrote_of_eq (by rw [step, Sys.exec_db, hc]))
  | login now agent_id => exact Or.inl (Sys.wrote_of_eq rfl)
  | logout now agent_id => exact Or.inl (Sys.wrote_of_eq rfl)
  | pause now agent_id => exact Or.inl (Sys.wrote_of_eq rfl)
  | seed now campaign_id phone priority max_attempts =>
    obtain ⟨db', hrun, hv⟩ := BorrowerRepo.seed_run now campaign_id phone priority max_attempts s.db
    apply Or.inl
    apply Sys.wrote_of_eq
    rw [step, Sys.exec_db, (Txn.commit_of_run hrun).1]
    rcases hv with hv | hv <;> exact congrArg View.calls hv
  | reserveAndCreate now clock_now lockedAgents lockedBorrowers pick worker campaign_id =>
    exact absurd rfl (ha now clock_now lockedAgents lockedBorrowers pick worker campaign_id)
  | placeCall call_id => exact Or.inl (Sys.wrote_of_eq (by rw [step, Sys.placeCall_db]))
  | rejected now call_id =>
    rcases s.settle_cases call_id fun a => recordRejected now a.reservation with
      ⟨a, _, _, hdb, _⟩ | hs
    · apply Or.inl
      rw [step, hdb]
      exact recordRejected_wrote now a.reservation h.healthy
    · exact Or.inl (Sys.wrote_of_eq (by rw [step, hs]))
  | accepted now clock_now call_id pcid =>
    rcases s.settle_cases call_id fun a =>
        recordInitiated now a.reservation pcid a.worker (dialUntil clock_now cfg) with
      ⟨a, _, _, hdb, _⟩ | hs
    · rcases Txn.commit_cases (recordInitiated now a.reservation pcid a.worker
        (dialUntil clock_now cfg)) s.db with ⟨_, hrun, _⟩ | ⟨hc, _⟩
      · obtain ⟨db₁, hview, hcall⟩ := recordInitiated_cases hrun
        rw [← (Txn.commit_of_run hrun).1, ← hdb] at hview
        have hcalls : (s.settle call_id _).db.calls = db₁.calls := congrArg View.calls hview
        rcases hcall with ⟨rfl, _⟩ | ⟨c, hc, hrank, hv⟩
        · exact Or.inl (Sys.wrote_of_eq hcalls)
        · exact Or.inr ⟨_, c, _, _, _, hc, reserved_of_rank (h.healthy.settled _ c hc) hrank,
            hcalls.trans (congrArg View.calls hv)⟩
      · exact Or.inl (Sys.wrote_of_eq (by rw [step, hdb, hc]))
    · exact Or.inl (Sys.wrote_of_eq (by rw [step, hs]))
  | abandon call_id => exact Or.inl (Sys.wrote_of_eq rfl)
  | pullback now call_id => exact Or.inl (cancelCandidate_wrote now call_id s.db)
  | reap now clock_now registry => exact Or.inl (reap_wrote now clock_now registry s.db)
  | ingest now provider event_id call_ref etype ts payload =>
    obtain ⟨o, db', hrun, hv⟩ := EventRepo.ingest_run now provider event_id call_ref etype ts
      payload s.db
    apply Or.inl
    apply Sys.wrote_of_eq
    rw [step, Sys.exec_db, (Txn.commit_of_run hrun).1]
    rcases hv with ⟨_, _, hv⟩ | ⟨_, _, rfl⟩
    · exact congrArg View.calls hv
    · rfl
  | fetch now w limit =>
    obtain ⟨rows, hs, _⟩ := s.fetch_cases now w limit
    exact Or.inl (Sys.wrote_of_eq (by rw [step, hs]))
  | read clock_now w =>
    rcases s.read_cases cfg clock_now w with ⟨_, _, _, _, _, _, _, hs⟩ | hs
    · exact Or.inl (Sys.wrote_of_eq (by rw [step, hs]))
    · exact Or.inl (Sys.wrote_of_eq (by rw [step, hs]))
  | commit w =>
    rcases s.commit_cases cfg w with ⟨now, plan, hd, _, hs⟩ | hs
    · -- whoever wrote since the reads, the plan is still valid
      apply Or.inl
      rw [step, hs]
      exact commitDrain_wrote (d := ⟨now, [], plan⟩) h.healthy (h.planned w _ hd)
    · exact Or.inl (Sys.wrote_of_eq (by rw [step, hs]))
  | rollback w => exact Or.inl (Sys.wrote_of_eq rfl)

/-- Every action either writes along these edges, or creates one call, or dials one. -/
theorem step_calls (cfg : Settings) {s : Sys} (h : s.Live) (a : Act) :
    s.CallsStep (step cfg s a) := by
  by_cases ha : ∀ now clock_now la lb pick w c, a ≠ .reserveAndCreate now clock_now la lb pick w c
  · rcases step_calls_known cfg h ha with hw | ⟨k, c, now, pcid, lease_until, hc, hs, hcalls⟩
    · exact .wrote hw
    · exact .dialed hc hs hcalls
  · push Not at ha
    obtain ⟨now, clock_now, la, lb, pick, worker, campaign_id, rfl⟩ := ha
    rcases Txn.commit_cases (SmartDialer.reserveAndCreate now la lb pick worker campaign_id
      (reserveUntil clock_now cfg)) s.db with ⟨o, hrun, _⟩ | ⟨hc, _⟩
    · -- only a reservation that goes through creates a call
      have hcases := reserveAndCreate_cases hrun
      rw [← (Txn.commit_of_run hrun).1, ← Sys.allocate_db] at hcases
      generalize hv : (s.allocate worker _).db.view = v at hcases
      cases hcases with
      | noAgent | noBorrower | noProvider => exact .wrote (Sys.wrote_of_eq (congrArg View.calls hv))
      | created => exact .created (congrArg View.calls hv)
    · apply Sys.CallsStep.wrote
      rw [step, Sys.allocate_db, hc]
      exact .refl _

/-- **Ranks.** No action takes a call back. -/
theorem step_rank_le (cfg : Settings) {s : Sys} (h : s.Live) (a : Act) {k : ℕ} {c : CallRow}
    (hc : s.db.calls.get? k = some c) :
    ∃ c', (step cfg s a).db.calls.get? k = some c' ∧ rank c.state ≤ rank c'.state := by
  cases step_calls cfg h a with
  | wrote hw =>
    obtain ⟨c', hc', hwrites⟩ := hw.kept k c hc
    exact ⟨c', hc', hwrites.rank_le⟩
  | created hcalls =>
    exact ⟨c, by rw [hcalls, Table.get?_push, if_neg (Table.ne_nextId hc), hc], le_rfl⟩
  | @dialed j d now pcid lease_until hd hs hcalls =>
    rw [hcalls, Table.get?_alter]
    split
    · rename_i hj
      rw [hj, hd, Option.some.injEq] at hc
      refine ⟨_, by rw [hd]; rfl, ?_⟩
      -- a call is dialed from `RESERVED`
      rw [← hc, hs]
      show rank .RESERVED ≤ rank .INITIATED
      decide
    · exact ⟨c, hc, le_rfl⟩

/-! ### Calls that ring -/

namespace CallRow

/-- What is ringing after a write has been ringing before it. -/
theorem Write.ringing {c c' : CallRow} (h : c.Write c') (hr : c'.state.isRinging = true) :
    c.state.isRinging = true := by
  cases h with
  | @advanced now state pcid lease_until reason hs hne =>
    change state.isRinging = true at hr
    cases hc : c.state <;> rw [hc] at hs <;> cases state <;>
      first | rfl | exact absurd rfl hne | (revert hs hr; decide)
  | cancelled hs => exact hs
  | orphaned ho => cases hr

/-- A call that rings after some writes rang before them, since none of them dials. -/
theorem Writes.ringing {c c' : CallRow} (h : c.Writes c') (hr : c'.state.isRinging = true) :
    c.state.isRinging = true := by
  induction h with
  | refl => exact hr
  | tail _ hw ih => exact ih (hw.ringing hr)

/-- No write moves a call to another campaign. -/
theorem Writes.campaign_id {c c' : CallRow} (h : c.Writes c') : c'.campaign_id = c.campaign_id := by
  induction h with
  | refl => rfl
  | tail _ hw ih =>
    cases hw with
    | advanced => exact ih
    | cancelled => exact ih
    | orphaned => exact ih

/-- The timestamps of a call that nobody has answered. -/
structure Stamped (c : CallRow) : Prop where
  initiated : c.state.isRinging = true → c.initiated_at.isSome = true
  unanswered : rank c.state < 4 → c.answered_at = none

/-- An edge to a state below `ANSWERED` leaves `answered_at` empty. -/
private theorem Stamped.unanswered_advancedRow {c : CallRow} (h : c.Stamped) {state : CallState}
    (hs : state ∈ legalNext c.state) (hrank : rank state < 4) (now : Time) (pcid : Option String)
    (lease_until : Option Time) (reason : Option String) :
    (CallRepo.advancedRow now state pcid lease_until reason c).answered_at = none := by
  have hne : state ≠ .ANSWERED := by
    rintro rfl
    exact absurd hrank (by decide)
  have hnone := h.unanswered ((legalNext_rank hs).trans hrank)
  show c.answered_at.or (if state = .ANSWERED then some now else none) = none
  rw [hnone, if_neg hne]
  rfl

/-- A write keeps the timestamps in line with the state. -/
theorem Stamped.write {c c' : CallRow} (h : c.Stamped) (hw : c.Write c') : c'.Stamped where
  initiated hr := by
    have hold := h.initiated (hw.ringing hr)
    cases hw with
    | advanced hs hne => exact (congrArg Option.isSome (Option.or_of_isSome hold)).trans hold
    | cancelled hs => exact hold
    | orphaned ho => exact hold
  unanswered hrank := by
    cases hw with
    | advanced hs hne => exact h.unanswered_advancedRow hs hrank _ _ _ _
    | cancelled hs => exact absurd hrank (show ¬ 6 < 4 by decide)
    | orphaned ho => exact absurd hrank (show ¬ 6 < 4 by decide)

/-- Any number of writes keep the timestamps in line with the state. -/
theorem Stamped.writes {c c' : CallRow} (h : c.Stamped) (hw : c.Writes c') : c'.Stamped := by
  induction hw with
  | refl => exact h
  | tail _ hw ih => exact ih.write hw

/-- Dialing a call stamps it as initiated. -/
theorem Stamped.dialed {c : CallRow} (h : c.Stamped) (hs : c.state = .RESERVED) (now : Time)
    (pcid : String) (lease_until : Time) :
    (CallRepo.advancedRow now .INITIATED (some pcid) (some lease_until) none c).Stamped where
  initiated _ := by
    show (c.initiated_at.or (some now)).isSome = true
    cases c.initiated_at <;> rfl
  unanswered hrank := by
    have hedge : CallState.INITIATED ∈ legalNext c.state := by
      rw [hs]
      decide
    exact h.unanswered_advancedRow hedge hrank _ _ _ _

end CallRow

/-- A call of the campaign rings. -/
def Db.Rings (db : Db) (campaign_id call_id : ℕ) : Prop :=
  ∃ c, db.calls.get? call_id = some c ∧ c.campaign_id = campaign_id ∧ c.state.isRinging = true

/-- After the pullback of a candidate the other calls that rang before ring. -/
theorem cancelCandidate_rings (now : Time) (call_id : ℕ) (db : Db) (campaign_id k : ℕ) :
    ((cancelCandidate now call_id).commit db).Rings campaign_id k ↔
      k ≠ call_id ∧ db.Rings campaign_id k := by
  unfold Db.Rings
  rw [cancelCandidate_calls, Table.get?_modify]
  constructor
  · rintro ⟨c', hc', hcamp, hring⟩
    obtain ⟨c, hc, heq⟩ := Option.map_eq_some_iff.mp hc'
    -- a call that was cancelled rings no more
    split at heq
    · rw [← heq] at hring
      cases hring
    · rename_i hnot
      refine ⟨?_, c, hc, heq ▸ hcamp, heq ▸ hring⟩
      rintro rfl
      exact hnot (by simp [heq ▸ hring])
  · rintro ⟨hne, c, hc, hcamp, hring⟩
    exact ⟨c, by simp [hc, hne], hcamp, hring⟩

/-- The timestamps of all calls. -/
def Sys.Stamped (s : Sys) : Prop := ∀ k c, s.db.calls.get? k = some c → c.Stamped

/-- **Step.** The timestamps stay in line with the states. -/
theorem Sys.CallsStep.stamped {s s' : Sys} (h : s.CallsStep s') (hs : s.Stamped) : s'.Stamped := by
  intro k c' hc'
  cases h with
  | wrote hw =>
    obtain ⟨c, hc, hwrites⟩ := hw.before hc'
    exact (hs k c hc).writes hwrites
  | created hcalls =>
    rw [hcalls] at hc'
    rcases Table.cases_of_get?_push hc' with ⟨_, rfl⟩ | hold
    · -- a new call neither rings nor was answered
      exact ⟨fun h => (by cases h), fun _ => rfl⟩
    · exact hs k c' hold
  | dialed hc hstate hcalls =>
    rw [hcalls] at hc'
    rcases Table.cases_of_get?_alter hc hc' with ⟨_, rfl⟩ | ⟨_, hold⟩
    · exact (hs _ _ hc).dialed hstate _ _ _
    · exact hs k c' hold

/-- The action makes no call `INITIATED`. -/
def Sys.DialsNone (cfg : Settings) (s : Sys) (a : Act) : Prop :=
  ∀ k c', (step cfg s a).db.calls.get? k = some c' → c'.state = .INITIATED →
    ∃ c, s.db.calls.get? k = some c ∧ c.state = .INITIATED

/-- The calls after the action are finitely many. -/
instance (cfg : Settings) (s : Sys) (a : Act) : Decidable (s.DialsNone cfg a) :=
  decidable_of_iff ((step cfg s a).db.calls.select (fun k c' => c'.state == .INITIATED &&
      (s.db.calls.get? k).map (·.state) != some .INITIATED) = []) <| by
    rw [Table.select_eq_nil_iff]
    simp [Sys.DialsNone]

/-- **Nothing starts to ring** unless it is dialed. -/
theorem step_rings (cfg : Settings) {s : Sys} (h : s.Live) {a : Act} (ha : s.DialsNone cfg a)
    {campaign_id k : ℕ} (hk : (step cfg s a).db.Rings campaign_id k) :
    s.db.Rings campaign_id k := by
  obtain ⟨c', hc', hcamp, hring⟩ := hk
  cases step_calls cfg h a with
  | wrote hw =>
    obtain ⟨c, hc, hwrites⟩ := hw.before hc'
    exact ⟨c, hc, hwrites.campaign_id.symm.trans hcamp, hwrites.ringing hring⟩
  | created hcalls =>
    rw [hcalls] at hc'
    rcases Table.cases_of_get?_push hc' with ⟨_, rfl⟩ | hold
    · cases hring
    · exact ⟨c', hold, hcamp, hring⟩
  | @dialed j c now pcid lease_until hc hs hcalls =>
    have hdialed := hc'
    rw [hcalls] at hc'
    rcases Table.cases_of_get?_alter hc hc' with ⟨rfl, rfl⟩ | ⟨_, hold⟩
    · -- the call was dialed by this action, which was excluded
      obtain ⟨d, hd, hstate⟩ := ha k _ hdialed rfl
      rw [hc, Option.some.injEq] at hd
      rw [← hd, hs] at hstate
      cases hstate
    · exact ⟨c', hold, hcamp, hring⟩

/-- **Run.** The timestamps are in line with the states in every reachable state. -/
theorem stamped_run (cfg : Settings) (acts : List Act) : (run (step cfg) Sys.init acts).Stamped :=
  (invariant_run (I := fun s : Sys => s.Live ∧ s.Stamped)
    (fun _ a h => ⟨live_step cfg h.1 a, (step_calls cfg h.1 a).stamped h.2⟩)
    ⟨live_init, fun _ _ h => by cases h⟩ acts).2

end SmartDialer
