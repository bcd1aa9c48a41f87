import SmartDialer.Correctness.Outcome
import SmartDialer.Correctness.RowWrites
import SmartDialer.Repo.Resolved

namespace SmartDialer

open Relational MetricsRepo

/-!
# Deliveries and the answer rate

A call counts as answered when it has an `answered_at`, which only the transition into `ANSWERED`
writes.  That transition is lost when an event that ends the call overtakes the answer, since the
rank guard then discards the answer.  So what a resolved call counts as is decided by the first new
event of the call that reports an answer or an end (`verdict`).

* `receive_call` — what one delivery makes of the call.
* `decided` — what all deliveries make of it.
* `resolved_answered_iff` — when a resolved call counts as answered, and what follows for the rates.
-/

/-- A delivered event with the call it is about. -/
structure Webhook extends Delivery where
  provider : String
  ref : String
  deriving DecidableEq, Repr

/-- The database after an event of any call is delivered. -/
def receive (wrapup : Time) (db : Db) (w : Webhook) : Db :=
  deliver wrapup w.provider w.ref db w.toDelivery

/-- The events that are recorded: those that neither the ledger has nor an earlier one repeats. -/
def newEvents (known : String → String → Bool) : List Webhook → List Webhook
  | [] => []
  | w :: ws =>
    let rest := newEvents (fun p i => known p i || (w.provider == p && w.event_id == i)) ws
    if known w.provider w.event_id then rest else w :: rest

/-- The events that are new to a database. -/
def Db.newEvents (db : Db) (ws : List Webhook) : List Webhook :=
  SmartDialer.newEvents (fun p i => decide (db.Recorded p i)) ws

/-- Is it an event of the call with a reference? -/
def Webhook.isFor (provider ref : String) (w : Webhook) : Bool :=
  w.provider == provider && w.ref == ref

/-- The states that decide what a call counts as. -/
def CallState.isVerdict (s : CallState) : Bool := s == .ANSWERED || s.isTerminal

/-- The answer or the end of a call that is heard of first. -/
def verdict (provider ref : String) (ws : List Webhook) : Option CallState :=
  ((ws.filter (·.isFor provider ref)).filterMap fun w => w.incoming).find? (·.isVerdict)

/-- No event that ends the call comes before one that answers it. -/
def AnswerFirst (provider ref : String) (ws : List Webhook) : Prop :=
  ∀ s, verdict provider ref ws = some s → s = .ANSWERED

/-- The call has ended. -/
def Ends (provider ref : String) (ws : List Webhook) : Prop :=
  ∃ w ∈ ws, w.isFor provider ref = true ∧ ∃ s, w.incoming = some s ∧ s.isTerminal = true

/-- A call that nobody has answered. -/
structure CallRow.Unanswered (c : CallRow) (provider ref : String) : Prop where
  ringing : c.state.isRinging = true
  rank_eq : c.state_rank = rank c.state
  provider : c.provider = provider
  provider_call_id : c.provider_call_id = some ref
  initiated_at : c.initiated_at.isSome = true
  answered_at : c.answered_at = none
  terminal_at : c.terminal_at = none

/-! ### One delivery -/

section

variable {wrapup : Time} {db : Db} {w : Webhook} {k : ℕ} {c : CallRow} {provider ref : String}

/-- An event whose id is in the ledger is dropped before anything is read. -/
theorem receive_known (h : db.Recorded w.provider w.event_id) : receive wrapup db w = db :=
  deliver_known h

/-- The ledger gets an event. -/
theorem receive_recorded (p i : String) : (receive wrapup db w).Recorded p i ↔
    db.Recorded p i ∨ w.provider = p ∧ w.event_id = i := by
  by_cases h : db.Recorded w.provider w.event_id
  · rw [receive_known h]
    constructor
    · exact Or.inl
    · rintro (hold | ⟨rfl, rfl⟩)
      · exact hold
      · exact h
  · obtain ⟨db₁, read, o, hview, _, happ⟩ := deliver_fresh wrapup w.ref h
    exact recorded_iff hview happ p i

/-- Receiving one event leaves the same events to come as new. -/
theorem newEvents_cons (ws : List Webhook) : db.newEvents (w :: ws) =
    if db.Recorded w.provider w.event_id then (receive wrapup db w).newEvents ws
    else w :: (receive wrapup db w).newEvents ws := by
  have hknown : (fun p i => decide (db.Recorded p i) || (w.provider == p && w.event_id == i))
      = fun p i => decide ((receive wrapup db w).Recorded p i) := by
    ext p i
    rw [Bool.eq_iff_iff, decide_eq_true_iff, receive_recorded]
    simp
  rw [Db.newEvents, SmartDialer.newEvents, hknown]
  simp only [decide_eq_true_eq, Db.newEvents]

/-- An event of another call, or one that was recorded, leaves the call alone. -/
theorem receive_other (hc : db.calls.get? k = some c) (href : c.provider_call_id = some ref)
    (h : db.Recorded w.provider w.event_id ∨ w.isFor c.provider ref = false) :
    (receive wrapup db w).calls.get? k = some c := by
  by_cases hknown : db.Recorded w.provider w.event_id
  · rw [receive_known hknown, hc]
  · have hother := h.resolve_left hknown
    obtain ⟨db₁, read, o, hview, hread, happ⟩ := deliver_fresh wrapup w.ref hknown
    have hc₁ : db₁.calls.get? k = some c := by
      rw [← Db.view_calls, hview]
      exact hc
    obtain ⟨read', hread', hnames⟩ := applyOneRead_names (w.row w.provider w.ref) db₁
    rw [hread] at hread'
    cases hread'
    show (receive wrapup db w).view.calls.get? k = some c
    unfold receive
    rw [happ.get?_ne, hc₁]
    intro hk
    -- the call that was read has the reference of the event
    obtain ⟨c', hc', hp, hr, _⟩ := hnames k hk
    rw [hc₁, Option.some.injEq] at hc'
    subst hc'
    have hsame : w.isFor c.provider ref = true := by
      rw [href] at hr
      have hr' : ref = w.ref := Option.some.inj hr
      have hp' : c.provider = w.provider := hp
      simp [Webhook.isFor, hr', hp']
    rw [hother] at hsame
    cases hsame

/-- What a new event of a call makes of it. -/
def CallRow.Heard (c : CallRow) (w : Webhook) (c' : CallRow) : Prop :=
  (c' = c ∧ ∀ s, w.incoming = some s → s ∉ legalNext c.state) ∨
  (∃ s, w.incoming = some s ∧ s ∈ legalNext c.state ∧ s ≠ .ANSWERED ∧
    c' = CallRepo.advancedRow w.now s (some w.ref) none none c) ∨
  (w.incoming = some .ANSWERED ∧ CallState.ANSWERED ∈ legalNext c.state ∧
    ∃ next, (next = .CONNECTED ∨ next = .ABANDONED) ∧
      c' = CallRepo.advancedRow w.now next none none none
        (CallRepo.advancedRow w.now .ANSWERED (some w.ref) none none c))

/-- **One delivery.** A new event of the call. -/
theorem receive_call (hc : db.calls.get? k = some c) (href : c.provider_call_id = some ref)
    (hrank : c.state_rank = rank c.state) (hnew : ¬ db.Recorded w.provider w.event_id)
    (hw : w.isFor c.provider ref = true) :
    ∃ c', (receive wrapup db w).calls.get? k = some c' ∧ c.Heard w c' := by
  obtain ⟨hwp, hwr⟩ := Bool.and_eq_true_iff.mp hw
  have hp : w.provider = c.provider := beq_iff_eq.mp hwp
  have hr : w.ref = ref := beq_iff_eq.mp hwr
  cases hin : w.incoming with
  | none =>
    -- the type is no state, so applying the event raises
    obtain ⟨db₁, read, o, hview, hread, happ⟩ := deliver_fresh wrapup w.ref hnew
    have hc₁ : db₁.calls.get? k = some c := by
      rw [← Db.view_calls, hview]
      exact hc
    have hraised : (applyOneRead (w.row w.provider w.ref)).run db₁ = .ok (.raised, db₁) := by
      have hget := CallRepo.getByProviderRef_found hc₁ (href.trans (congrArg some hr.symm))
      rw [← hp] at hget
      have hof : CallState.ofString? (mapProviderEvent w.event_type) = none := hin
      rw [applyOneRead]
      show (CallRepo.getByProviderRef w.provider (some w.ref) >>= _).run db₁ = _
      rw [Txn.run_bind_of_ok hget]
      simp only [Delivery.row, EventRepo.ingestedRow, hof]
      rfl
    rw [hraised] at hread
    cases hread
    refine ⟨c, ?_, Or.inl ⟨rfl, fun s hs => by rw [hin] at hs; cases hs⟩⟩
    show (receive wrapup db w).view.calls.get? k = some c
    unfold receive
    rw [happ.get?_ne (by rintro ⟨⟩), hc₁]
  | some s =>
    rw [hp] at hnew
    obtain ⟨db₁, o, hview, happ⟩ :=
      deliver_new wrapup hnew hc (href.trans (congrArg some hr.symm)) hin
    have hc₁ : db₁.calls.get? k = some c := by
      rw [← Db.view_calls, hview]
      exact hc
    rw [← hp] at happ
    change Applied _ _ _ _ _ _ _ (receive wrapup db w).view at happ
    generalize hv : (receive wrapup db w).view = v at happ
    rw [← Db.view_calls, hv]
    cases hcan : (canApply c.state s).1 with
    | false =>
      simp only [hcan, Bool.false_eq_true, if_false] at happ
      cases happ
      refine ⟨c, hc₁, Or.inl ⟨rfl, fun t ht hlegal => ?_⟩⟩
      rw [hin, Option.some.injEq] at ht
      subst ht
      rw [canApply_iff.mpr hlegal] at hcan
      cases hcan
    | true =>
      have hlegal := canApply_iff.mp hcan
      simp only [hcan, if_true] at happ
      cases happ with
      | lost hlost =>
        -- the rank guard agrees with the check
        have hle := hlost c hc₁
        have hlt := legalNext_rank hlegal
        omega
      | moved hi hc' =>
        rw [hc₁, Option.some.injEq] at hc'
        subst hc'
        refine ⟨_, ?_, Or.inr (Or.inl ⟨s, hin, hlegal, hi, rfl⟩)⟩
        rw [View.setEvent_calls, View.sideEffects_calls, View.setCall_calls, Db.view_calls,
          Table.get?_alter, if_pos rfl, hc₁]
        rfl
      | @bridged _ _ _ next hc' _ ha hn =>
        rw [hc₁, Option.some.injEq] at hc'
        subst hc'
        refine ⟨_, ?_, Or.inr (Or.inr ⟨hin, hlegal, next, hn ▸ bridgeState_cases _ _ _, rfl⟩)⟩
        rw [View.setEvent_calls, View.sideEffects_calls, View.setCall_calls, View.setCall_calls,
          Db.view_calls, Table.alter_alter, Table.get?_alter, if_pos rfl, hc₁]
        rfl

end

/-! ### What is decided -/

/-- A ringing call may be decided either way. -/
theorem isVerdict_mem_legalNext {s t : CallState} (hs : s.isRinging = true)
    (ht : t.isVerdict = true) : t ∈ legalNext s := by
  cases s <;> cases t <;> revert hs ht <;> decide

/-- Nothing but the ringing itself comes before the verdict. -/
theorem eq_ringing_of_mem_legalNext {s t : CallState} (hs : s.isRinging = true)
    (ht : t ∈ legalNext s) (hv : t.isVerdict = false) : t = .RINGING := by
  cases s <;> cases t <;> revert hs ht hv <;> decide

/-- The row of a dialed call under the verdict that has been heard of it. -/
structure CallRow.Decided (campaign_id : ℕ) (provider ref : String) (v : Option CallState)
    (c : CallRow) : Prop where
  campaign_id : c.campaign_id = campaign_id
  provider : c.provider = provider
  provider_call_id : c.provider_call_id = some ref
  rank_eq : c.state_rank = rank c.state
  initiated_at : c.initiated_at.isSome = true
  ended : c.state.isTerminal = true → c.terminal_at.isSome = true
  waiting : v = none → c.state.isRinging = true ∧ c.answered_at = none ∧ c.terminal_at = none
  answered : v = some .ANSWERED → c.answered_at.isSome = true
  lost : ∀ s, v = some s → s ≠ .ANSWERED → c.state.isTerminal = true ∧ c.answered_at = none

section

variable {campaign_id : ℕ} {provider ref : String} {v : Option CallState} {c : CallRow}

/-- Before any event has come, the call is decided by none. -/
theorem CallRow.Unanswered.decided (h : c.Unanswered provider ref) :
    c.Decided c.campaign_id provider ref none where
  campaign_id := rfl
  provider := h.provider
  provider_call_id := h.provider_call_id
  rank_eq := h.rank_eq
  initiated_at := h.initiated_at
  ended hend := by
    rw [live_of_isRinging h.ringing] at hend
    cases hend
  waiting _ := ⟨h.ringing, h.answered_at, h.terminal_at⟩
  answered hv := by cases hv
  lost s hv := by cases hv

/-- The other columns after an advance. -/
private theorem CallRow.Decided.advanced (h : c.Decided campaign_id provider ref v)
    {v' : Option CallState} {s : CallState} (now : Time) (pcid : Option String)
    (hwait : v' = none → s.isRinging = true ∧ c.answered_at = none ∧ c.terminal_at = none)
    (hans : v' = some .ANSWERED → s = .ANSWERED ∨ c.answered_at.isSome = true)
    (hlost : ∀ t, v' = some t → t ≠ .ANSWERED → s.isTerminal = true ∧ c.answered_at = none) :
    (CallRepo.advancedRow now s pcid none none c).Decided campaign_id provider ref v' where
  campaign_id := h.campaign_id
  provider := h.provider
  provider_call_id := by
    show c.provider_call_id.or pcid = some ref
    rw [h.provider_call_id]
    rfl
  rank_eq := rfl
  initiated_at := (congrArg Option.isSome (Option.or_of_isSome h.initiated_at)).trans h.initiated_at
  ended hend := by
    show (if rank s ≥ 6 then some now else c.terminal_at).isSome = true
    have hs : rank s ≥ 6 := isTerminal_iff.mp hend
    rw [if_pos hs]
    rfl
  waiting hv := by
    obtain ⟨hring, hnone, hterm⟩ := hwait hv
    -- a ringing state stamps neither the answer nor the end
    have hs : s ≠ .ANSWERED ∧ ¬ rank s ≥ 6 := by
      cases s <;> revert hring <;> decide
    refine ⟨hring, ?_, ?_⟩
    · show c.answered_at.or (if s = .ANSWERED then some now else none) = none
      rw [hnone, if_neg hs.1]
      rfl
    · show (if rank s ≥ 6 then some now else c.terminal_at) = none
      rw [if_neg hs.2, hterm]
  answered hv := by
    show (c.answered_at.or (if s = .ANSWERED then some now else none)).isSome = true
    rcases hans hv with rfl | hsome
    · rw [if_pos rfl]
      cases c.answered_at <;> rfl
    · rw [Option.or_of_isSome hsome, hsome]
  lost t hv ht := by
    obtain ⟨hterm, hnone⟩ := hlost t hv ht
    refine ⟨hterm, ?_⟩
    have hs : s ≠ .ANSWERED := by
      rintro rfl
      cases hterm
    show c.answered_at.or (if s = .ANSWERED then some now else none) = none
    rw [hnone, if_neg hs]
    rfl

/-- A call with a lost answer is over, so no event is legal. -/
private theorem CallRow.Decided.not_lost (h : c.Decided campaign_id provider ref v)
    {s t : CallState} (hs : s ∈ legalNext c.state) (hv : v = some t) : t = .ANSWERED := by
  by_contra ht
  rw [legalNext_of_isTerminal (h.lost t hv ht).1] at hs
  cases hs

/-- **One event.** The first verdict stays. -/
theorem CallRow.Decided.heard (h : c.Decided campaign_id provider ref v) {w : Webhook}
    {c' : CallRow} (hw : c.Heard w c') :
    c'.Decided campaign_id provider ref (v.or (w.incoming.filter (·.isVerdict))) := by
  rcases hw with ⟨rfl, hrefused⟩ | ⟨s, hin, hs, hne, rfl⟩ | ⟨hin, hs, next, hnext, rfl⟩
  · -- a verdict is not refused while the call is waiting for one
    cases v with
    | some t => exact h
    | none =>
      have hnone : w.incoming.filter (·.isVerdict) = none := by
        rw [Option.filter_eq_none_iff]
        intro s hs hv
        exact hrefused s hs (isVerdict_mem_legalNext (h.waiting rfl).1 hv)
      rw [hnone]
      exact h
  · cases v with
    | some t =>
      -- a call that has ended takes no event, so it has been answered before
      have ht := h.not_lost hs rfl
      subst ht
      exact h.advanced _ _ (fun hv => by cases hv) (fun _ => Or.inr (h.answered rfl))
        fun t hv ht => absurd (Option.some.inj hv).symm ht
    | none =>
      -- the event decides, or the call only starts to ring
      obtain ⟨hring, hnone, hterm⟩ := h.waiting rfl
      rw [hin]
      cases hv : s.isVerdict with
      | false =>
        have hs' := eq_ringing_of_mem_legalNext hring hs hv
        subst hs'
        exact h.advanced _ _ (fun _ => ⟨rfl, hnone, hterm⟩) (fun hv => by cases hv)
          fun t hv => by cases hv
      | true =>
        have hfilter : (some s).filter (·.isVerdict) = some s := by simp [hv]
        have hend : s.isTerminal = true := by
          cases s <;> revert hv hne <;> decide
        rw [hfilter]
        exact h.advanced _ _ (fun hv => by cases hv)
          (fun hv => absurd (Option.some.inj hv) hne) fun _ _ _ => ⟨hend, hnone⟩
  · -- the answer, and what the bridge makes of it
    have hv : v.or (w.incoming.filter (·.isVerdict)) = some .ANSWERED := by
      rw [hin]
      cases v with
      | none => rfl
      | some t => exact congrArg some (h.not_lost hs rfl)
    have hanswered : (CallRepo.advancedRow w.now .ANSWERED (some w.ref) none none c).Decided
        campaign_id provider ref (some .ANSWERED) :=
      h.advanced _ _ (fun hv => by cases hv) (fun _ => Or.inl rfl)
        fun t hv ht => absurd (Option.some.inj hv).symm ht
    rw [hv]
    exact hanswered.advanced _ _ (fun hv => by cases hv)
      (fun _ => Or.inr (hanswered.answered rfl)) fun t hv ht => absurd (Option.some.inj hv).symm ht

/-- An event that ends the call is applied, unless the call has ended before. -/
theorem CallRow.Heard.ended {w : Webhook} {c' : CallRow} (hw : c.Heard w c')
    (h : c.state.isTerminal = true ∨ ∃ s, w.incoming = some s ∧ s.isTerminal = true) :
    c'.state.isTerminal = true := by
  have hlive : ∀ {s}, s ∈ legalNext c.state → c.state.isTerminal = false := live_of_edge
  rcases hw with ⟨rfl, hrefused⟩ | ⟨s, hin, hs, hne, rfl⟩ | ⟨hin, hs, _⟩
  · by_contra hend
    rw [Bool.not_eq_true] at hend
    rcases h with hover | ⟨s, hs, hterm⟩
    · rw [hend] at hover
      cases hover
    · -- a live call refuses no end
      exact hrefused s hs (legalNext_terminal hend hterm)
  · rcases h with hover | ⟨t, ht, hterm⟩
    · rw [hlive hs] at hover
      cases hover
    · rw [hin, Option.some.injEq] at ht
      exact ht ▸ hterm
  · rcases h with hover | ⟨t, ht, hterm⟩
    · rw [hlive hs] at hover
      cases hover
    · rw [hin, Option.some.injEq] at ht
      rw [← ht] at hterm
      cases hterm

/-! ### All deliveries -/

/-- The first event of a call that decides it is the one that counts. -/
theorem verdict_cons (w : Webhook) (ws : List Webhook) : verdict provider ref (w :: ws) =
    if w.isFor provider ref then (w.incoming.filter (·.isVerdict)).or (verdict provider ref ws)
    else verdict provider ref ws := by
  unfold verdict
  cases hw : w.isFor provider ref with
  | false => rw [List.filter_cons_of_neg (by simp [hw]), if_neg Bool.false_ne_true]
  | true =>
    rw [List.filter_cons_of_pos hw, if_pos rfl]
    cases hin : w.incoming with
    | none =>
      rw [List.filterMap_cons_none (by exact hin)]
      rfl
    | some s =>
      rw [List.filterMap_cons_some (by exact hin), List.find?_cons, Option.filter_some]
      cases s.isVerdict <;> rfl

/-- A list ends a call when its first event does or the rest do. -/
theorem ends_cons (w : Webhook) (ws : List Webhook) : Ends provider ref (w :: ws) ↔
    (w.isFor provider ref = true ∧ ∃ s, w.incoming = some s ∧ s.isTerminal = true) ∨
      Ends provider ref ws := by
  simp [Ends]

/-- **All deliveries.** The row ends up as the verdict on the new events says, and the call is over
    if one of them ends it. -/
theorem decided {db : Db} {k : ℕ} (hc : db.calls.get? k = some c)
    (h : c.Decided campaign_id provider ref v) (wrapup : Time) (ws : List Webhook) :
    ∃ c', (run (receive wrapup) db ws).calls.get? k = some c' ∧
      c'.Decided campaign_id provider ref (v.or (verdict provider ref (db.newEvents ws))) ∧
      (c.state.isTerminal = true ∨ Ends provider ref (db.newEvents ws) →
        c'.state.isTerminal = true) := by
  induction ws generalizing db c v with
  | nil =>
    have hnone : verdict provider ref (db.newEvents []) = none := rfl
    rw [hnone, Option.or_none]
    refine ⟨c, hc, h, ?_⟩
    rintro (hover | ⟨_, hw, _⟩)
    · exact hover
    · cases hw
  | cons w ws ih =>
    rw [run_cons, newEvents_cons]
    by_cases hknown : db.Recorded w.provider w.event_id
    · -- the ledger has the event, so it is not new
      rw [if_pos hknown]
      exact ih (receive_other hc h.provider_call_id (Or.inl hknown)) h
    · rw [if_neg hknown, verdict_cons, ends_cons]
      cases hw : w.isFor provider ref with
      | false =>
        simp only [Bool.false_eq_true, if_false, false_and, false_or]
        have hother : w.isFor c.provider ref = false := by rw [h.provider, hw]
        exact ih (receive_other hc h.provider_call_id (Or.inr hother)) h
      | true =>
        simp only [if_true, true_and, ← Option.or_assoc]
        have hfor : w.isFor c.provider ref = true := by rw [h.provider, hw]
        obtain ⟨c₁, hc₁, hheard⟩ := receive_call hc h.provider_call_id h.rank_eq hknown hfor
        obtain ⟨c', hc', hdecided, hended⟩ := ih hc₁ (h.heard hheard)
        refine ⟨c', hc', hdecided, fun hend => hended ?_⟩
        rcases hend with hover | hthis | hlater
        · exact Or.inl (hheard.ended (Or.inl hover))
        · exact Or.inl (hheard.ended (Or.inr hthis))
        · exact Or.inr hlater

end

/-! ### The other calls -/

/-- The calls are the same ones, and only one of them has changed. -/
structure View.OnlyCall (v : View) (k : ℕ) (v' : View) : Prop where
  keys : v'.calls.rows.map Prod.fst = v.calls.rows.map Prod.fst
  others : ∀ j, j ≠ k → v'.calls.get? j = v.calls.get? j

section

variable {campaign_id k : ℕ} {provider ref : String} {v : Option CallState} {c : CallRow} {db : Db}
  {wrapup : Time}

/-- The reference of an event finds one call only. -/
theorem receive_onlyCall (wrapup : Time) {w : Webhook} (hc : db.calls.get? k = some c)
    (href : c.provider_call_id = some ref) (hw : w.isFor c.provider ref = true) :
    db.view.OnlyCall k (receive wrapup db w).view := by
  by_cases hknown : db.Recorded w.provider w.event_id
  · rw [receive_known hknown]
    exact ⟨rfl, fun _ _ => rfl⟩
  · obtain ⟨hwp, hwr⟩ := Bool.and_eq_true_iff.mp hw
    obtain ⟨db₁, read, o, hview, hread, happ⟩ := deliver_fresh wrapup w.ref hknown
    have hcalls : db₁.calls = db.calls := congrArg View.calls hview
    -- the event refers to the call, and references are unique
    obtain ⟨read', hread', hnames⟩ := applyOneRead_names (w.row w.provider w.ref) db₁
    rw [hread] at hread'
    cases hread'
    constructor
    · rw [Db.view_calls db, ← hcalls]
      exact happ.keys
    · intro j hj
      rw [Db.view_calls db, ← hcalls]
      apply happ.get?_ne
      intro hread
      obtain ⟨c', hc', hp, hr, _⟩ := hnames j hread
      rw [hcalls] at hc'
      apply hj (db.refUnique j c' k c hc' hc _ _)
      · simp [CallRow.refIndex, hr, Delivery.row, EventRepo.ingestedRow]
      · have hp' : c'.provider = c.provider := hp.trans (beq_iff_eq.mp hwp)
        have hr' : c'.provider_call_id = some ref := hr.trans (congrArg some (beq_iff_eq.mp hwr))
        simp [CallRow.refIndex, hp', hr', href]

/-- Events of one call write to the row of that call, however many of them come. -/
theorem run_onlyCall (wrapup : Time) (hc : db.calls.get? k = some c)
    (h : c.Decided campaign_id provider ref v)
    {ws : List Webhook} (hws : ∀ w ∈ ws, w.isFor provider ref = true) :
    db.view.OnlyCall k (run (receive wrapup) db ws).view := by
  induction ws generalizing db c v with
  | nil => exact ⟨rfl, fun _ _ => rfl⟩
  | cons w ws ih =>
    have hw : w.isFor c.provider ref = true := by
      rw [h.provider]
      exact hws w List.mem_cons_self
    have hstep := receive_onlyCall wrapup hc h.provider_call_id hw
    obtain ⟨c₁, hc₁, h₁, _⟩ := decided hc h wrapup [w]
    have hrest := ih hc₁ h₁ fun w' hw' => hws w' (List.mem_cons_of_mem _ hw')
    exact ⟨hrest.keys.trans hstep.keys, fun j hj => (hrest.others j hj).trans (hstep.others j hj)⟩

/-- A count moves with the one call that has changed. -/
theorem View.OnlyCall.count {db' : Db} {c' : CallRow} (h : db.view.OnlyCall k db'.view)
    (hc : db.calls.get? k = some c) (hc' : db'.calls.get? k = some c') (p : CallRow → Bool) :
    (db'.calls.count fun _ r => p r) + (if p c then 1 else 0)
      = (db.calls.count fun _ r => p r) + if p c' then 1 else 0 := by
  rw [← Table.count_alter (fun _ => c') p hc]
  congr 1
  apply Table.count_eq_of_get?
  intro j
  rw [Table.get?_alter]
  split
  · rename_i hj
    rw [hj, hc', hc]
    rfl
  · rename_i hj
    rw [← Db.view_calls, h.others j hj]
    rfl

/-! ### What a resolved call counts as -/

/-- Every call that is ringing in a run is such a call. -/
theorem unanswered_of_run (cfg : Settings) (acts : List Act)
    (hc : (run (step cfg) Sys.init acts).db.calls.get? k = some c)
    (hs : c.state.isRinging = true) : ∃ ref, c.Unanswered c.provider ref := by
  have hset := (live_run cfg acts).healthy.settled k c hc
  have hstamped := stamped_run cfg acts k c hc
  have hlive := live_of_isRinging hs
  have hrank : rank c.state < 4 := by
    cases hst : c.state <;> rw [hst] at hs <;> revert hs <;> decide
  -- `terminal_at` is set exactly with a terminal state
  have hopen : c.terminal_at = none := by
    rw [← Option.not_isSome_iff_eq_none, hset.terminal_iff, hlive]
    exact Bool.false_ne_true
  cases href : c.provider_call_id with
  | none =>
    -- without a reference the call would still wait to be dialed, or be over
    rcases hset.undialed href with h | h
    · rw [h] at hs
      cases hs
    · rw [h] at hlive
      cases hlive
  | some ref =>
    exact ⟨ref, hs, hset.rank_eq, rfl, href, hstamped.initiated hs, hstamped.unanswered hrank,
      hopen⟩

/-- A call that has ended is resolved. -/
theorem CallRow.Decided.isResolved_iff (h : c.Decided campaign_id provider ref v) :
    isResolved campaign_id c = true ↔ c.terminal_at.isSome = true := by
  simp [isResolved, h.campaign_id, h.initiated_at]

/-- What a call that is resolved counts as. -/
theorem CallRow.Decided.answered_iff (h : c.Decided campaign_id provider ref v)
    (hv : v ≠ none) : c.answered_at.isSome = true ↔ ∀ s, v = some s → s = .ANSWERED := by
  constructor
  · intro hans s hs
    by_contra hne
    rw [(h.lost s hs hne).2] at hans
    cases hans
  · intro hfirst
    obtain ⟨s, hs⟩ := Option.ne_none_iff_exists'.mp hv
    exact h.answered (hfirst s hs ▸ hs)

/-- A call that has ended has had its verdict. -/
theorem CallRow.Decided.ne_none (h : c.Decided campaign_id provider ref v)
    (hend : c.terminal_at.isSome = true) : v ≠ none := by
  intro hv
  rw [(h.waiting hv).2.2] at hend
  cases hend

/-- The row of a call that has ended. -/
private theorem row_of_ends (wrapup : Time) (hc : db.calls.get? k = some c)
    (h : c.Unanswered provider ref)
    {ws : List Webhook} (hend : Ends provider ref (db.newEvents ws)) :
    ∃ c', (run (receive wrapup) db ws).calls.get? k = some c' ∧
      isResolved c.campaign_id c' = true ∧
      (c'.answered_at.isSome = true ↔ AnswerFirst provider ref (db.newEvents ws)) := by
  obtain ⟨c', hc', hdecided, hended⟩ := decided hc h.decided wrapup ws
  have hterm := hdecided.ended (hended (Or.inr hend))
  exact ⟨c', hc', hdecided.isResolved_iff.mpr hterm,
    hdecided.answered_iff (hdecided.ne_none hterm)⟩

/-- The two counts after events of the call, one of which ends it. -/
private theorem counts_of_ends (wrapup : Time) (hc : db.calls.get? k = some c)
    (h : c.Unanswered provider ref)
    {ws : List Webhook} (hws : ∀ w ∈ ws, w.isFor provider ref = true)
    (hend : Ends provider ref (db.newEvents ws)) :
    resolvedCount c.campaign_id (run (receive wrapup) db ws) = resolvedCount c.campaign_id db + 1 ∧
      (AnswerFirst provider ref (db.newEvents ws) →
        answeredCount c.campaign_id (run (receive wrapup) db ws) =
          answeredCount c.campaign_id db + 1) ∧
      (¬ AnswerFirst provider ref (db.newEvents ws) →
        answeredCount c.campaign_id (run (receive wrapup) db ws) =
          answeredCount c.campaign_id db) := by
  obtain ⟨c', hc', hres, hans⟩ := row_of_ends wrapup hc h hend
  have honly := run_onlyCall wrapup hc h.decided hws
  -- the call enters both counts at its end, if at all
  have hopen : isResolved c.campaign_id c = false := by
    simp [isResolved, h.terminal_at]
  have hresolved := honly.count hc hc' (isResolved c.campaign_id)
  have hanswered := honly.count hc hc' fun d =>
    isResolved c.campaign_id d && d.answered_at.isSome
  simp only [hopen, hres, Bool.false_and, Bool.true_and, if_true, Bool.false_eq_true,
    if_false] at hresolved hanswered
  refine ⟨hresolved, fun hfirst => ?_, fun hlost => ?_⟩
  · rw [if_pos (hans.mpr hfirst)] at hanswered
    exact hanswered
  · rw [if_neg (mt hans.mp hlost)] at hanswered
    exact hanswered

/-- A resolved call counts as answered exactly if, among its new events, none that ends it comes
    before the first that answers it.  On that the answer rate depends, and on nothing else in the
    order of the events.  An answer that comes after the end of its call is refused, and then the
    call has no `answered_at`. -/
theorem resolved_answered_iff (hc : db.calls.get? k = some c) (h : c.Unanswered provider ref)
    (wrapup : Time) (ws : List Webhook) :
    let after := run (receive wrapup) db
    let stats := fun ws => resolvedStats c.campaign_id (after ws)
    let first := fun ws => AnswerFirst provider ref (db.newEvents ws)
    ((∀ c', (after ws).calls.get? k = some c' → isResolved c.campaign_id c' = true →
      c'.answered_at.isSome = true) ↔ first ws) ∧
    (Ends provider ref (db.newEvents ws) →
      ∃ c', (after ws).calls.get? k = some c' ∧ isResolved c.campaign_id c' = true) ∧
    ∀ ws', (∀ w ∈ ws, w.isFor provider ref = true) → (∀ w ∈ ws', w.isFor provider ref = true) →
      Ends provider ref (db.newEvents ws) → Ends provider ref (db.newEvents ws') →
      ((first ws ↔ first ws') → (stats ws).SameRates (stats ws')) ∧
      (resolvedCount c.campaign_id db < WINDOW →
        (stats ws).answer_rate_point = (stats ws').answer_rate_point → (first ws ↔ first ws')) := by
  refine ⟨?_, ?_, fun ws' hws hws' hend hend' => ⟨fun hfirst => ?_, fun hwindow hpoint => ?_⟩⟩
  · obtain ⟨c', hc', hdecided, _⟩ := decided hc h.decided wrapup ws
    constructor
    · intro hcounts s hs
      -- there has been a verdict, so if it is not the answer the call is over
      by_contra hne
      have hlost := hdecided.lost s hs hne
      have hres := hdecided.isResolved_iff.mpr (hdecided.ended hlost.1)
      have hans := hcounts c' hc' hres
      rw [hlost.2] at hans
      cases hans
    · intro hfirst c'' hc'' hres
      rw [hc', Option.some.injEq] at hc''
      subst hc''
      have hterm := hdecided.isResolved_iff.mp hres
      exact (hdecided.answered_iff (hdecided.ne_none hterm)).mpr hfirst
  · intro hend
    obtain ⟨c', hc', hres, _⟩ := row_of_ends wrapup hc h hend
    exact ⟨c', hc', hres⟩
  · -- the two databases tell the same of every call
    obtain ⟨c₁, hc₁, hres₁, hans₁⟩ := row_of_ends wrapup hc h hend
    obtain ⟨c₂, hc₂, hres₂, hans₂⟩ := row_of_ends wrapup hc h hend'
    have honly := run_onlyCall wrapup hc h.decided hws
    have honly' := run_onlyCall wrapup hc h.decided hws'
    apply sameRates_of_map
    apply Table.map_congr_get? (honly.keys.trans honly'.keys.symm)
    intro j
    by_cases hj : j = k
    · rw [hj, Db.view_calls, Db.view_calls, hc₁, hc₂]
      have hsame : c₁.answered_at.isSome = c₂.answered_at.isSome :=
        Bool.eq_iff_iff.mpr (hans₁.trans (hfirst.trans hans₂.symm))
      simp [resolvedAnswered, hres₁, hres₂, hsame]
    · have hothers := (honly.others j hj).trans (honly'.others j hj).symm
      rw [hothers]
  · obtain ⟨hn, hyes, hno⟩ := counts_of_ends wrapup hc h hws hend
    obtain ⟨hn', hyes', hno'⟩ := counts_of_ends wrapup hc h hws' hend'
    change (resolvedStats _ _).answer_rate_point = (resolvedStats _ _).answer_rate_point at hpoint
    rw [(resolvedStats_rates (by omega)).1, (resolvedStats_rates (by omega)).1, hn, hn',
      div_left_inj' (by positivity), Nat.cast_inj] at hpoint
    by_cases hfirst : AnswerFirst provider ref (db.newEvents ws) <;>
      by_cases hfirst' : AnswerFirst provider ref (db.newEvents ws')
    · exact iff_of_true hfirst hfirst'
    · have h₁ := hyes hfirst
      have h₂ := hno' hfirst'
      omega
    · have h₁ := hno hfirst
      have h₂ := hyes' hfirst'
      omega
    · exact iff_of_false hfirst hfirst'

end

/-- A call is answered, and ends. -/
def answeredEvent : Webhook := ⟨⟨"e-1", "answered", secs 3, "", secs 6, secs 6⟩, "mock", "pc-1"⟩

/-- The call is over, and no event has said that it was answered. -/
def completedEvent : Webhook := ⟨⟨"e-2", "completed", secs 5, "", secs 6, secs 6⟩, "mock", "pc-1"⟩

/-- The dialed call is one that nobody has answered. -/
private theorem dialedCall_unanswered : dialedCall.Unanswered "mock" "pc-1" where
  ringing := rfl
  rank_eq := rfl
  provider := rfl
  provider_call_id := rfl
  initiated_at := rfl
  answered_at := rfl
  terminal_at := rfl

/-- In their order the two events are a call answered in full. -/
theorem resolved_answered_iff_inOrder :
    let db := (run (step .default) Sys.init dialedRun).db
    ∀ c', (run (receive (secs 8)) db [answeredEvent, completedEvent]).calls.get? 1 = some c' →
      isResolved 7 c' = true → c'.answered_at.isSome = true :=
  (resolved_answered_iff (k := 1) (c := dialedCall)
    (show (run (step .default) Sys.init dialedRun).db.calls.get? 1 = some dialedCall by
      decide +kernel) dialedCall_unanswered (secs 8)
    [answeredEvent, completedEvent]).1.mpr fun s hs => by
      have hverdict : verdict "mock" "pc-1" ((run (step .default) Sys.init dialedRun).db.newEvents
        [answeredEvent, completedEvent]) = some .ANSWERED := by decide +kernel
      rw [hverdict] at hs
      exact (Option.some.inj hs).symm

/-- The other way round the same events are a call that was never answered, and the rate falls from
    one to zero. -/
theorem answer_overtaken :
    let db := (run (step .default) Sys.init dialedRun).db
    (∃ c, (run (receive (secs 8)) db [completedEvent, answeredEvent]).calls.get? 1 = some c ∧
      isResolved 7 c = true ∧ c.answered_at = none) ∧
    (resolvedStats 7 (run (receive (secs 8)) db
      [answeredEvent, completedEvent])).answer_rate_point = 1 ∧
    (resolvedStats 7 (run (receive (secs 8)) db
      [completedEvent, answeredEvent])).answer_rate_point = 0 := by
  intro db
  -- the same two events, in either order
  have hcounts : resolvedCount 7 (run (receive (secs 8)) db [answeredEvent, completedEvent]) = 1 ∧
      answeredCount 7 (run (receive (secs 8)) db [answeredEvent, completedEvent]) = 1 ∧
      resolvedCount 7 (run (receive (secs 8)) db [completedEvent, answeredEvent]) = 1 ∧
      answeredCount 7 (run (receive (secs 8)) db [completedEvent, answeredEvent]) = 0 := by
    decide +kernel
  obtain ⟨hn, ha, hn', ha'⟩ := hcounts
  refine ⟨?_, ?_, ?_⟩
  · have hrow : ((run (receive (secs 8)) db [completedEvent, answeredEvent]).calls.get? 1).map
        (fun c => (isResolved 7 c, c.answered_at)) = some (true, none) := by decide +kernel
    obtain ⟨c, hc, heq⟩ := Option.map_eq_some_iff.mp hrow
    exact ⟨c, hc, (Prod.mk.inj heq).1, (Prod.mk.inj heq).2⟩
  · rw [(resolvedStats_rates (by rw [hn]; decide)).1, hn, ha]
    norm_num
  · rw [(resolvedStats_rates (by rw [hn']; decide)).1, hn', ha']
    norm_num

end SmartDialer
