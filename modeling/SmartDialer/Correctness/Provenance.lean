import SmartDialer.Correctness.Books
import SmartDialer.Correctness.Citations

namespace SmartDialer

open Relational

/-!
# The ledger and the calls account for each other

The ledger is the audit trail of the provider events, and `failure_reason` that of the dialer.
Together they leave nothing unexplained, in every state that is reached:

* `EventRow.Marked` — what the marks of a ledger row mean.  A row that is applied without an anomaly
  names a call with the reference of the event, and the call has come as far as the event reports.
  A row that was refused names its call too: the call had come that far before, or the event claimed
  that it was connected, which no event decides.
* `CallRow.Sourced` — the converse.  A call rang, was answered or was connected because of an event
  that the ledger holds as applied, and it ended because of such an event or for a reason that the
  dialer has written.
* `ledger_truthful`, `calls_sourced` — both, for every run.
-/

namespace CallRow

/-- The call has come as far as an event reports. -/
structure Reached (c : CallRow) (s : CallState) : Prop where
  rank_le : rank s ≤ rank c.state
  ringing : s = .RINGING → c.ringing_at.isSome = true
  answered : s = .ANSWERED → c.answered_at.isSome = true
  terminal : s.isTerminal = true → c.state = s ∧ c.failure_reason = none

/-- How a call has come to its end, if `P` are the states that events have reported of it. -/
inductive Ended (P : CallState → Prop) (c : CallRow) : Prop
  /-- The provider refused the call. -/
  | rejected (hs : c.state = .FAILED) (hr : c.failure_reason = some "PROVIDER_REJECTED")
      (hn : c.provider_call_id = none)
  /-- Its lease ran out before it rang. -/
  | expired (hs : c.state = .FAILED) (hr : c.failure_reason = some "LEASE_EXPIRED_NO_EVENTS")
      (hn : c.ringing_at = none ∧ c.answered_at = none)
  /-- It was pulled back before anybody answered. -/
  | pulledBack (hs : c.state = .CANCELLED) (hr : c.failure_reason = some "SAFETY_PULLBACK")
      (hn : c.answered_at = none)
  | reported (hr : c.failure_reason = none) (hp : P c.state)
  /-- It was answered with no agent there. -/
  | unbridged (hs : c.state = .ABANDONED) (hr : c.failure_reason = none)
      (hn : c.connected_at = none) (hp : P .ANSWERED)

/-- Everything that the row tells has its source, if `P` are the states that events have reported
    of the call. -/
structure Sourced (P : CallState → Prop) (c : CallRow) : Prop where
  dialed : c.provider_call_id.isSome = true ↔ c.initiated_at.isSome = true
  rang : c.ringing_at.isSome = true → 3 ≤ rank c.state ∧ P .RINGING
  answered : c.answered_at.isSome = true → 5 ≤ rank c.state ∧ P .ANSWERED
  connected : c.connected_at.isSome = true → c.answered_at.isSome = true
  ringing_at : c.state = .RINGING → c.ringing_at.isSome = true
  connected_at : c.state = .CONNECTED → c.connected_at.isSome = true
  live : c.state.isTerminal = false → c.failure_reason = none
  ended : c.state.isTerminal = true → c.Ended P

/-! ### Rows -/

section

variable {c c' : CallRow} {s : CallState} {P Q : CallState → Prop}

/-- What a call has reached it does not lose. -/
theorem Reached.write (h : c.Reached s) (hw : c.Write c') : c'.Reached s := by
  -- every write starts from a live call, and what it has reached is below its state
  have hlive : c.state.isTerminal = false := by
    cases hw with
    | advanced hs => exact live_of_edge hs
    | cancelled hs => exact live_of_isRinging hs
    | orphaned ho => exact live_of_isOrphan ho
  have hterm : s.isTerminal = true → False := fun ht => by
    rw [← (h.terminal ht).1, hlive] at ht
    cases ht
  cases hw with
  | advanced hs =>
    refine ⟨h.rank_le.trans (legalNext_rank hs).le, fun hr => ?_, fun ha => ?_,
      fun ht => (hterm ht).elim⟩
    · show (c.ringing_at.or _).isSome = true
      rw [Option.or_of_isSome (h.ringing hr)]
      exact h.ringing hr
    · show (c.answered_at.or _).isSome = true
      rw [Option.or_of_isSome (h.answered ha)]
      exact h.answered ha
  | cancelled | orphaned =>
    exact ⟨rank_le_terminalRank s, h.ringing, h.answered, fun ht => (hterm ht).elim⟩

/-- What a call has reached it does not lose, however often its row is written. -/
theorem Reached.writes (h : c.Reached s) (hw : c.Writes c') : c'.Reached s := by
  induction hw with
  | refl => exact h
  | tail _ hw ih => exact ih.write hw

/-- Further reports take no reason away. -/
theorem Ended.mono (hPQ : ∀ s, P s → Q s) (h : c.Ended P) : c.Ended Q := by
  cases h with
  | rejected hs hr hn => exact .rejected hs hr hn
  | expired hs hr hn => exact .expired hs hr hn
  | pulledBack hs hr hn => exact .pulledBack hs hr hn
  | reported hr hp => exact .reported hr (hPQ _ hp)
  | unbridged hs hr hn hp => exact .unbridged hs hr hn (hPQ _ hp)

/-- Further reports take no source away. -/
theorem Sourced.mono (hPQ : ∀ s, P s → Q s) (h : c.Sourced P) : c.Sourced Q where
  dialed := h.dialed
  rang hr := ⟨(h.rang hr).1, hPQ _ (h.rang hr).2⟩
  answered ha := ⟨(h.answered ha).1, hPQ _ (h.answered ha).2⟩
  connected := h.connected
  ringing_at := h.ringing_at
  connected_at := h.connected_at
  live := h.live
  ended ht := (h.ended ht).mono hPQ

/-- A call below a state has none of the timestamps from there on. -/
theorem Sourced.unrung (h : c.Sourced P) (hrank : rank c.state < 3) : c.ringing_at = none := by
  rw [← Option.not_isSome_iff_eq_none]
  intro hr
  have := (h.rang hr).1
  omega

/-- A call that is not connected and not over has no answer on record. -/
theorem Sourced.unanswered (h : c.Sourced P) (hrank : rank c.state < 5) :
    c.answered_at = none := by
  rw [← Option.not_isSome_iff_eq_none]
  intro ha
  have := (h.answered ha).1
  omega

/-- A call without an answer on record has no connection on record. -/
theorem Sourced.unconnected (h : c.Sourced P) (hrank : rank c.state < 5) :
    c.connected_at = none := by
  have hnone := h.unanswered hrank
  rw [← Option.not_isSome_iff_eq_none] at hnone ⊢
  exact fun hc => hnone (h.connected hc)

/-- A row that was just created tells nothing yet. -/
theorem sourced_createdRow (now : Time) (campaign_id agent_id borrower_id : ℕ) (provider : String)
    (attempt_no : ℕ) (idem worker : String) (lease_until : Time) :
    (CallRepo.createdRow now campaign_id agent_id borrower_id provider attempt_no idem worker
      lease_until).Sourced P where
  dialed := Iff.rfl
  rang hr := by cases hr
  answered ha := by cases ha
  connected hc := by cases hc
  ringing_at hs := by cases hs
  connected_at hs := by cases hs
  live _ := rfl
  ended ht := by cases ht

/-- A reserved call is dialed. -/
theorem Sourced.accepted (h : c.Sourced P) (hs : c.state = .RESERVED) (now : Time) (pcid : String)
    (lease_until : Time) :
    (CallRepo.advancedRow now .INITIATED (some pcid) (some lease_until) none c).Sourced P := by
  have hring := h.unrung (by rw [hs]; decide)
  have hans := h.unanswered (by rw [hs]; decide)
  have hconn := h.unconnected (by rw [hs]; decide)
  have hreason := h.live (by rw [hs]; rfl)
  constructor <;> simp [CallRepo.advancedRow, hring, hans, hconn, hreason]
  exact fun ht => absurd ht (by decide)

/-- A reserved call is failed, since the provider refused it. -/
theorem Sourced.rejected (h : c.Sourced P) (hs : c.state = .RESERVED)
    (hn : c.provider_call_id = none) (now : Time) :
    (CallRepo.advancedRow now .FAILED none none (some "PROVIDER_REJECTED") c).Sourced P := by
  have hring := h.unrung (by rw [hs]; decide)
  have hans := h.unanswered (by rw [hs]; decide)
  have hconn := h.unconnected (by rw [hs]; decide)
  have hinit : c.initiated_at = none := by
    rw [← Option.not_isSome_iff_eq_none, ← h.dialed, hn]
    exact Bool.false_ne_true
  constructor <;> simp [CallRepo.advancedRow, hring, hans, hconn, hinit, hn]
  · decide
  · exact fun _ => .rejected rfl rfl rfl

/-- A pulled back call was not answered, and its row says who ended it. -/
theorem Sourced.cancelled (h : c.Sourced P) (hs : c.state.isRinging = true) (now : Time) :
    (CallRepo.cancelledRow now "SAFETY_PULLBACK" c).Sourced P := by
  have hlow : rank c.state < 5 := by
    cases hcs : c.state <;> rw [hcs] at hs <;> revert hs <;> decide
  exact
    { dialed := h.dialed
      rang := fun hr => ⟨by show 3 ≤ 6; omega, (h.rang hr).2⟩
      answered := fun ha => ⟨by show 5 ≤ 6; omega, (h.answered ha).2⟩
      connected := h.connected
      ringing_at := fun hr => by cases hr
      connected_at := fun hc => by cases hc
      live := fun hl => by cases hl
      ended := fun _ => .pulledBack rfl rfl (h.unanswered hlow) }

/-- An orphan had not rung, and its row says who ended it. -/
theorem Sourced.orphaned (h : c.Sourced P) {now_ts : Time} (ho : isOrphan now_ts c = true)
    (now : Time) : (orphanedRow now c).Sourced P := by
  -- the sweep selects calls below `RINGING`
  have hlow : rank c.state < 3 := by
    unfold isOrphan at ho
    simp only [Bool.and_eq_true, Bool.or_eq_true, beq_iff_eq] at ho
    rcases ho.2 with (hs | hs) | hs <;> rw [hs] <;> decide
  exact
    { dialed := h.dialed
      rang := fun hr => ⟨by show 3 ≤ 6; omega, (h.rang hr).2⟩
      answered := fun ha => ⟨by show 5 ≤ 6; omega, (h.answered ha).2⟩
      connected := h.connected
      ringing_at := fun hr => by cases hr
      connected_at := fun hc => by cases hc
      live := fun hl => by cases hl
      ended := fun _ => .expired rfl rfl ⟨h.unrung hlow, h.unanswered (by omega)⟩ }

/-- A call that has been dialed stays so. -/
private theorem Sourced.dialed_advancedRow (h : c.Sourced P)
    (href : c.provider_call_id.isSome = true) (now : Time) (pcid : Option String) :
    (CallRepo.advancedRow now s pcid none none c).provider_call_id.isSome = true ∧
      (CallRepo.advancedRow now s pcid none none c).initiated_at.isSome = true :=
  ⟨(congrArg Option.isSome (Option.or_of_isSome href)).trans href,
    (congrArg Option.isSome (Option.or_of_isSome (h.dialed.mp href))).trans (h.dialed.mp href)⟩

/-- A live call is taken to what an event reports. -/
theorem Sourced.moved (h : c.Sourced P) (href : c.provider_call_id.isSome = true)
    (hPQ : ∀ s, P s → Q s)
    (hs : s = .RINGING ∨ s.isTerminal = true) (hQ : Q s) (hlive : c.state.isTerminal = false)
    (hrank : rank c.state < rank s) (now : Time) (pcid : Option String) :
    (CallRepo.advancedRow now s pcid none none c).Sourced Q := by
  have hreason := h.live hlive
  -- these states stamp neither an answer nor a connection
  have hne : s ≠ .ANSWERED ∧ s ≠ .CONNECTED := by
    refine ⟨?_, ?_⟩ <;> rintro rfl <;> rcases hs with hs | hs <;> cases hs
  have hans : (CallRepo.advancedRow now s pcid none none c).answered_at = c.answered_at := by
    simp [CallRepo.advancedRow, hne.1]
  have hconn : (CallRepo.advancedRow now s pcid none none c).connected_at = c.connected_at := by
    simp [CallRepo.advancedRow, hne.2]
  constructor
  · have hdialed := h.dialed_advancedRow (s := s) href now pcid
    exact iff_of_true hdialed.1 hdialed.2
  · intro hr
    rcases hs with rfl | hs
    · exact ⟨le_rfl, hQ⟩
    · have hring : (CallRepo.advancedRow now s pcid none none c).ringing_at = c.ringing_at := by
        have hnr : s ≠ .RINGING := by rintro rfl; cases hs
        simp [CallRepo.advancedRow, hnr]
      rw [hring] at hr
      exact ⟨(h.rang hr).1.trans hrank.le, hPQ _ (h.rang hr).2⟩
  · intro ha
    rw [hans] at ha
    exact ⟨(h.answered ha).1.trans hrank.le, hPQ _ (h.answered ha).2⟩
  · rw [hconn, hans]
    exact h.connected
  · rintro rfl
    show (c.ringing_at.or (some now)).isSome = true
    cases c.ringing_at <;> rfl
  · exact fun hc => absurd hc hne.2
  · exact fun _ => hreason
  · exact fun _ => .reported hreason hQ

/-- A call that has just been answered is connected to its agent, or abandoned. -/
theorem Sourced.bridged (h : c.Sourced P) (href : c.provider_call_id.isSome = true)
    (hPQ : ∀ s, P s → Q s) (hQ : Q .ANSWERED) (hs : s = .CONNECTED ∨ s = .ABANDONED)
    (hlow : rank c.state < 4) (now : Time) (pcid : Option String) :
    (CallRepo.advancedRow now s none none none
      (CallRepo.advancedRow now .ANSWERED pcid none none c)).Sourced Q := by
  have hreason := h.live (not_isTerminal_iff.mpr (by omega))
  -- the call was not answered before, so both stamps are made by this event
  have hconn := h.unconnected (by omega)
  have hring : c.ringing_at.isSome = true → Q .RINGING := fun hr => hPQ _ (h.rang hr).2
  have hrank : 5 ≤ rank s := by rcases hs with rfl | rfl <;> decide
  constructor
  · obtain ⟨href', hinit⟩ := h.dialed_advancedRow (s := .ANSWERED) href now pcid
    exact iff_of_true ((congrArg Option.isSome (Option.or_of_isSome href')).trans href')
      ((congrArg Option.isSome (Option.or_of_isSome hinit)).trans hinit)
  · intro hr
    refine ⟨by show 3 ≤ rank s; omega, hring ?_⟩
    rcases hs with rfl | rfl <;> simpa [CallRepo.advancedRow] using hr
  · exact fun _ => ⟨hrank, hQ⟩
  · intro _
    show ((c.answered_at.or (some now)).or _).isSome = true
    cases c.answered_at <;> rfl
  · intro hr
    change s = .RINGING at hr
    rw [hr] at hrank
    exact absurd hrank (by decide)
  · rintro rfl
    show ((c.connected_at.or none).or (some now)).isSome = true
    rw [hconn]
    rfl
  · exact fun _ => hreason
  · intro ht
    rcases hs with rfl | rfl
    · cases ht
    · -- `_bridge` found no agent dialing for the call
      refine .unbridged rfl hreason ?_ hQ
      simp [CallRepo.advancedRow, hconn]

end

end CallRow

/-! ### The invariant -/

/-- An event that reports the state for the call is applied without an anomaly. -/
def View.Reported (v : View) (call_id : ℕ) (s : CallState) : Prop :=
  ∃ i e, v.provider_events.get? i = some e ∧ e.isEffective = true ∧ e.call_id = some call_id ∧
    e.incoming = some s

/-- What the marks of a row mean. -/
inductive EventRow.Marked (calls : Table CallRow) (e : EventRow) : Prop
  /-- The event is still to be applied; perhaps its call was unknown when it was tried. -/
  | waiting (ha : e.applied = false) (hc : e.call_id = none)
      (hx : e.anomaly = none ∨ e.anomaly = some .UNKNOWN_CALL)
  | givenUp (ha : e.applied = true) (hc : e.call_id = none) (hx : e.anomaly = some .UNKNOWN_CALL)
  /-- The call has come as far as the event reports, and if that is an end, at least as far as
      being connected; or the event claimed that the call was connected, which the applier decides
      and no event. -/
  | refused {k : ℕ} {c : CallRow} {s : CallState} (ha : e.applied = true) (hk : e.call_id = some k)
      (hc : calls.get? k = some c) (hcites : e.IsOf c) (hs : e.incoming = some s)
      (hx : e.anomaly = some .OUT_OF_ORDER ∧ min (rank s) (rank .CONNECTED) ≤ rank c.state ∨
        e.anomaly = some .ILLEGAL_TRANSITION ∧ s = .CONNECTED)
  | effective {k : ℕ} {c : CallRow} {s : CallState} (ha : e.applied = true)
      (hx : e.anomaly = none) (hk : e.call_id = some k) (hc : calls.get? k = some c)
      (hcites : e.IsOf c) (hs : e.incoming = some s) (hreached : c.Reached s)

/-- Ledger and calls account for each other. -/
structure View.Accounted (v : View) : Prop where
  marked : ∀ i e, v.provider_events.get? i = some e → e.Marked v.calls
  unique : ∀ i j e e' k s, v.provider_events.get? i = some e → v.provider_events.get? j = some e' →
    e.isEffective = true → e'.isEffective = true → e.call_id = some k → e'.call_id = some k →
    e.incoming = some s → e'.incoming = some s → i = j
  sourced : ∀ k c, v.calls.get? k = some c → c.Sourced (v.Reported k)

/-- A row that waits has no marks that tell anything. -/
theorem EventRow.Marked.waits {calls : Table CallRow} {e : EventRow} (h : e.Marked calls)
    (ha : e.applied = false) :
    e.call_id = none ∧ (e.anomaly = none ∨ e.anomaly = some .UNKNOWN_CALL) := by
  cases h with
  | waiting _ hc hx => exact ⟨hc, hx⟩
  | givenUp ha' | refused ha' | effective ha' => rw [ha] at ha'; cases ha'

/-- An effective row names a call that has come as far as it reports. -/
theorem EventRow.Marked.reached {calls : Table CallRow} {e : EventRow} (h : e.Marked calls)
    (he : e.isEffective = true) {k : ℕ} (hk : e.call_id = some k) {s : CallState}
    (hs : e.incoming = some s) : ∃ c, calls.get? k = some c ∧ c.Reached s := by
  obtain ⟨happlied, hnone⟩ := Bool.and_eq_true_iff.mp he
  cases h with
  | waiting ha => rw [happlied] at ha; cases ha
  | givenUp _ _ hx => rw [hx] at hnone; cases hnone
  | refused _ _ _ _ _ hx => rcases hx with ⟨hx, _⟩ | ⟨hx, _⟩ <;> rw [hx] at hnone <;> cases hnone
  | effective _ _ hk' hc _ hs' hreached =>
    rw [hk, Option.some.injEq] at hk'
    rw [hs, Option.some.injEq] at hs'
    subst hk' hs'
    exact ⟨_, hc, hreached⟩

/-- Calls may go on: they stay cited, and lose nothing that they have reached. -/
structure View.Onward (v v' : View) : Prop where
  cites : ∀ k c, v.calls.get? k = some c → ∃ c', v'.calls.get? k = some c' ∧
    (∀ e : EventRow, e.IsOf c → e.IsOf c') ∧ rank c.state ≤ rank c'.state ∧
      ∀ s, c.Reached s → c'.Reached s

/-- A mark that was true stays true while the calls go on. -/
theorem EventRow.Marked.onward {v v' : View} {e : EventRow} (h : e.Marked v.calls)
    (hv : v.Onward v') : e.Marked v'.calls := by
  cases h with
  | waiting ha hc hx => exact .waiting ha hc hx
  | givenUp ha hc hx => exact .givenUp ha hc hx
  | refused ha hk hc hcites hs hx =>
    obtain ⟨c', hc', hmono, hle, _⟩ := hv.cites _ _ hc
    exact .refused ha hk hc' (hmono e hcites) hs
      (hx.imp_left fun ⟨hx, hcome⟩ => ⟨hx, hcome.trans hle⟩)
  | effective ha hx hk hc hcites hs hreached =>
    obtain ⟨c', hc', hmono, _, hkeep⟩ := hv.cites _ _ hc
    exact .effective ha hx hk hc' (hmono e hcites) hs (hkeep _ hreached)

namespace View.Accounted

variable {v v' : View}

/-- The calls go on, and the ledger stays as it is or takes in new rows. -/
theorem onward (h : v.Accounted) (hv : v.Onward v')
    (hevents : ∀ i e', v'.provider_events.get? i = some e' →
      v.provider_events.get? i = some e' ∨ e'.applied = false ∧ e'.call_id = none ∧
        e'.anomaly = none)
    (hsourced : ∀ k c, v'.calls.get? k = some c → c.Sourced (v'.Reported k)) :
    v'.Accounted where
  marked := by
    intro i e' he'
    rcases hevents i e' he' with hold | ⟨ha, hc, hx⟩
    · exact (h.marked i e' hold).onward hv
    · exact .waiting ha hc (Or.inl hx)
  unique := by
    intro i j e e' k s hi hj he he' hk hk' hs hs'
    -- an effective row is an old one: new rows wait to be applied
    have hold : ∀ {i e}, v'.provider_events.get? i = some e → e.isEffective = true →
        v.provider_events.get? i = some e := by
      intro i e hi he
      rcases hevents i e hi with hold | ⟨ha, _⟩
      · exact hold
      · rw [isEffective_of_unapplied ha] at he; cases he
    exact h.unique i j e e' k s (hold hi he) (hold hj he') he he' hk hk' hs hs'
  sourced := hsourced

/-- The row of an event that was still to be applied is marked. -/
theorem mark (h : v.Accounted) (hv : v.Onward v') {i : ℕ} {e : EventRow} {f : EventRow → EventRow}
    (hi : v.provider_events.get? i = some e)
    (hevents : v'.provider_events = v.provider_events.alter i f) (hmarked : (f e).Marked v'.calls)
    (hfresh : ∀ k s, (f e).isEffective = true → (f e).call_id = some k →
      (f e).incoming = some s → ∀ c, v.calls.get? k = some c → rank c.state < rank s)
    (hsourced : ∀ k c, v'.calls.get? k = some c → c.Sourced (v'.Reported k)) :
    v'.Accounted where
  marked := by
    intro j e' he'
    rw [hevents] at he'
    rcases Table.cases_of_get?_alter hi he' with ⟨_, rfl⟩ | ⟨_, hold⟩
    · exact hmarked
    · exact (h.marked j e' hold).onward hv
  unique := by
    intro j j' e₁ e₂ k s h₁ h₂ he₁ he₂ hk₁ hk₂ hs₁ hs₂
    rw [hevents] at h₁ h₂
    -- an older row that reports the same has been reached, so the new one came too late
    have hclash : ∀ {j e'}, v.provider_events.get? j = some e' → e'.isEffective = true →
        e'.call_id = some k → e'.incoming = some s → (f e).isEffective = true →
        (f e).call_id = some k → (f e).incoming = some s → False := by
      intro j e' hj he' hk' hs' hfe hfk hfs
      obtain ⟨c, hc, hreached⟩ := (h.marked j e' hj).reached he' hk' hs'
      have := hfresh k s hfe hfk hfs c hc
      have := hreached.rank_le
      omega
    rcases Table.cases_of_get?_alter hi h₁ with ⟨rfl, rfl⟩ | ⟨_, hold₁⟩ <;>
      rcases Table.cases_of_get?_alter hi h₂ with ⟨rfl, rfl⟩ | ⟨_, hold₂⟩
    · rfl
    · exact (hclash hold₂ he₂ hk₂ hs₂ he₁ hk₁ hs₁).elim
    · exact (hclash hold₁ he₁ hk₁ hs₁ he₂ hk₂ hs₂).elim
    · exact h.unique j j' e₁ e₂ k s hold₁ hold₂ he₁ he₂ hk₁ hk₂ hs₁ hs₂
  sourced := hsourced

end View.Accounted

/-! ### Events -/

/-- What was reported before the row of an unapplied event is marked is reported after. -/
theorem View.Reported.mark {v v' : View} {i : ℕ} {e : EventRow} {f : EventRow → EventRow}
    (hi : v.provider_events.get? i = some e) (hu : e.applied = false)
    (hevents : v'.provider_events = v.provider_events.alter i f) {k : ℕ} {s : CallState}
    (h : v.Reported k s) : v'.Reported k s := by
  obtain ⟨j, e', hj, he', hk, hs⟩ := h
  refine ⟨j, e', ?_, he', hk, hs⟩
  rw [hevents, Table.get?_alter, if_neg, hj]
  rintro rfl
  rw [hi, Option.some.injEq] at hj
  rw [← hj, isEffective_of_unapplied hu] at he'
  cases he'

/-- Writes of the dialer and of the applier take calls on and never back. -/
theorem View.Wrote.onward {v v' : View} (h : v.Wrote v') (he : v.Evolves v') : v.Onward v' where
  cites := by
    intro k c hc
    obtain ⟨c', hc', hwrites⟩ := h.kept k c hc
    obtain ⟨c'', hc'', hevo⟩ := he k c hc
    rw [hc', Option.some.injEq] at hc''
    subst hc''
    exact ⟨c', hc', fun e h => h.evolves hevo hwrites.provider, hwrites.rank_le,
      fun s h => h.writes hwrites⟩

/-- An event of a call, ready to be applied: its row waits, and what was read is about its call. -/
structure Planned.Ready (p : Planned) (v : View) : Prop where
  valid : p.Valid v
  cites : p.Cites v
  row : ∃ e, v.provider_events.get? p.event.1 = some e ∧ e.applied = false ∧
    e.unmarked = p.event.2.unmarked

/-- The event that passed for a call refers to that call. -/
theorem Planned.Cites.cites_of_read {v : View} {p : Planned} (h : p.Cites v) {k : ℕ}
    {incoming : CallState} (hread : p.read = .passed k incoming) {c : CallRow}
    (hc : v.calls.get? k = some c) : p.event.2.IsOf c := by
  obtain ⟨c', hc', hcites⟩ := h.cited k (by rw [hread]; rfl)
  rw [hc, Option.some.injEq] at hc'
  exact hc' ▸ hcites

/-- A row that is marked for the first time names what the mark names. -/
theorem EventRepo.markedRow_call_id {e : EventRow} (h : e.call_id = none) (applied : Bool)
    (anomaly : Option Anomaly) (call_id : Option ℕ) :
    (markedRow applied anomaly call_id e).call_id = call_id := by
  show e.call_id.or call_id = call_id
  rw [h, Option.none_or]

/-- An event makes no transition, and its row says why. -/
theorem View.Accounted.quiet {v v' : View} (h : v.Accounted) (hv : v.Onward v') {i : ℕ}
    {e : EventRow} {f : EventRow → EventRow} (hi : v.provider_events.get? i = some e)
    (hu : e.applied = false) (hevents : v'.provider_events = v.provider_events.alter i f)
    (hcalls : v'.calls = v.calls) (hmarked : (f e).Marked v'.calls)
    (hneff : (f e).isEffective = false) : v'.Accounted := by
  refine h.mark hv hi hevents hmarked (fun k s heff => ?_) (fun k c hc => ?_)
  · rw [hneff] at heff
    cases heff
  · rw [hcalls] at hc
    exact (h.sourced k c hc).mono fun s hr => hr.mark hi hu hevents

/-- An event makes a transition of its call, and its row is marked as effective. -/
theorem View.Accounted.effective {v v' : View} (h : v.Accounted) (hv : v.Onward v') {i k : ℕ}
    {e : EventRow} {c : CallRow} {s : CallState} {f : CallRow → CallRow}
    (hi : v.provider_events.get? i = some e) (hu : e.applied = false) (hs : e.incoming = some s)
    (hc : v.calls.get? k = some c) (hcites : e.IsOf c) (hlow : rank c.state < rank s)
    (hevents : v'.provider_events =
      v.provider_events.alter i (EventRepo.markedRow true none (some k)))
    (hcalls : v'.calls = v.calls.alter k f) (hreached : (f c).Reached s)
    (hsourced : ∀ P Q : CallState → Prop, (∀ s, P s → Q s) → Q s → c.Sourced P →
      (f c).Sourced Q) : v'.Accounted := by
  -- the row is marked for the first time, so the mark stays as it is written
  have hwaits := (h.marked i e hi).waits hu
  have hk := EventRepo.markedRow_call_id hwaits.1 true none (some k)
  have hc' : v'.calls.get? k = some (f c) := by
    rw [hcalls, Table.get?_alter, if_pos rfl, hc]
    rfl
  have hcites' : e.IsOf (f c) := by
    obtain ⟨c', hget, hmono, _⟩ := hv.cites k c hc
    rw [hc', Option.some.injEq] at hget
    exact hget ▸ hmono e hcites
  refine h.mark hv hi hevents (.effective rfl rfl hk hc'
    (hcites'.of_unmarked rfl) hs hreached) ?_ ?_
  · intro k' s' _ hk' hs' c' hget
    rw [hk, Option.some.injEq] at hk'
    have hss : some s = some s' := hs.symm.trans hs'
    -- no other effective row reports this state of the call: the call had not reached it
    rw [← hk', hc, Option.some.injEq] at hget
    rw [← hget, ← Option.some.inj hss]
    exact hlow
  · intro k' c' hget
    have hmono : ∀ s, v.Reported k' s → v'.Reported k' s := fun s hr => hr.mark hi hu hevents
    rw [hcalls] at hget
    rcases Table.cases_of_get?_alter hc hget with ⟨rfl, rfl⟩ | ⟨_, hold⟩
    · -- the row itself is the source of what it writes
      refine hsourced _ _ hmono ⟨i, _, ?_, rfl, hk, hs⟩ (h.sourced k' c hc)
      rw [hevents, Table.get?_alter, if_pos rfl, hi]
      rfl
    · exact (h.sourced k' c' hold).mono hmono

/-- **`apply_one`, second half.** -/
theorem Applied.accounted {now clock_now wrapup : Time} {p : Planned} {db : Db}
    {o : Option CallState} {v : View} (h : Applied now p.event clock_now wrapup db p.read o v)
    (hacc : db.view.Accounted) (hh : db.view.Healthy) (hp : p.Ready db.view)
    (hfounded : ∀ k s, p.read = .refused k (some .OUT_OF_ORDER) → p.event.2.incoming = some s →
      Overtaken db.view [] k (min (rank s) (rank .CONNECTED))) : v.Accounted := by
  obtain ⟨e, he, hu, hsame⟩ := hp.row
  have hon : db.view.Onward v := (h.wrote hh hp.valid).onward ((h.progress hp.valid).1 hh).2
  have hwaits := (hacc.marked _ e he).waits hu
  have hin : e.incoming = p.event.2.incoming := EventRow.incoming_of_unmarked hsame
  have hcall := fun {applied anomaly k} =>
    EventRepo.markedRow_call_id hwaits.1 applied anomaly (some k)
  generalize hread : p.read = read at h
  cases h with
  | unknown =>
    exact hacc.quiet hon he hu rfl rfl
      (.waiting rfl (EventRepo.markedRow_call_id hwaits.1 _ _ none) (Or.inr rfl)) rfl
  | raised => exact hacc
  | @refused k anomaly =>
    obtain ⟨c, hc, hcites⟩ := hp.cites.cited k (by rw [hread]; rfl)
    obtain ⟨s, hs, hx⟩ := hp.cites.refused k anomaly hread
    refine hacc.quiet hon he hu rfl rfl
      (.refused rfl hcall hc (hcites.of_unmarked hsame) (hin.trans hs) ?_) ?_
    · refine hx.imp_left fun hx => ⟨hx, ?_⟩
      -- the events before this one have been applied
      rcases hfounded k s (hx ▸ hread) hs with ⟨c', hc', hcome⟩ | ⟨_, hnil, _⟩
      · obtain rfl := Option.some.inj (hc.symm.trans hc')
        exact hcome
      · cases hnil
    · rcases hx with rfl | ⟨rfl, _⟩ <;> rfl
  | @lost k incoming hlost =>
    obtain ⟨c, hc, hcites⟩ := hp.cites.cited k (by rw [hread]; rfl)
    have hclaim := hp.cites.claimed k incoming hread
    have hcome := hlost c hc
    rw [(hh.settled k c hc).rank_eq] at hcome
    exact hacc.quiet hon he hu rfl rfl (.refused rfl hcall hc (hcites.of_unmarked hsame)
      (hin.trans hclaim) (Or.inl ⟨rfl, (min_le_left _ _).trans hcome⟩)) rfl
  | @moved k incoming c hi hc hrank =>
    have hclaim := hp.cites.claimed k incoming hread
    have hcites := hp.cites.cites_of_read hread hc
    have hlow : rank c.state < rank incoming := (hh.settled k c hc).rank_eq ▸ hrank
    have hstate : incoming = .RINGING ∨ incoming.isTerminal = true := by
      rcases (hp.valid k incoming hread).1 with hr | ha | ht
      · exact Or.inl hr
      · exact absurd ha hi
      · exact Or.inr ht
    refine hacc.effective (f := CallRepo.advancedRow now incoming p.event.2.provider_call_id none
      none) hon he hu (hin.trans hclaim) hc (hcites.of_unmarked hsame) hlow ?_ ?_ ?_ ?_
    · rw [View.setEvent_provider_events, View.sideEffects_provider_events]
      rfl
    · rw [View.setEvent_calls, View.sideEffects_calls, View.setCall_calls]
    · have hlive : c.state.isTerminal = false :=
        not_isTerminal_iff.mpr (hlow.trans_le (rank_le_terminalRank _))
      refine ⟨le_rfl, ?_, fun ha => absurd ha hi, fun _ => ⟨rfl, (hacc.sourced k c hc).live hlive⟩⟩
      rintro rfl
      show (c.ringing_at.or (some now)).isSome = true
      cases c.ringing_at <;> rfl
    · intro P Q hPQ hQ hsrc
      exact hsrc.moved (hcites.2.2 ▸ hcites.1) hPQ hstate hQ
        (not_isTerminal_iff.mpr (hlow.trans_le (rank_le_terminalRank _))) hlow now _
  | @bridged k c answered next hc hrank ha hn =>
    have hclaim := hp.cites.claimed k .ANSWERED hread
    have hcites := hp.cites.cites_of_read hread hc
    have hlow : rank c.state < 4 := (hh.settled k c hc).rank_eq ▸ hrank
    have hnext : next = .CONNECTED ∨ next = .ABANDONED := hn ▸ bridgeState_cases db.agents k c
    subst ha
    refine hacc.effective (f := fun c => CallRepo.advancedRow now next none none none
      (CallRepo.advancedRow now .ANSWERED p.event.2.provider_call_id none none c))
      hon he hu (hin.trans hclaim) hc (hcites.of_unmarked hsame) hlow ?_ ?_ ?_ ?_
    · rw [View.setEvent_provider_events, View.sideEffects_provider_events]
      rfl
    · rw [View.setEvent_calls, View.sideEffects_calls, View.setCall_calls, View.setCall_calls,
        Table.alter_alter]
    · refine ⟨?_, fun hr => (by cases hr), fun _ => ?_, fun ht => by cases ht⟩
      · show 4 ≤ rank next
        rcases hnext with rfl | rfl <;> decide
      · show ((c.answered_at.or (some now)).or _).isSome = true
        cases c.answered_at <;> rfl
    · intro P Q hPQ hQ hsrc
      exact hsrc.bridged (hcites.2.2 ▸ hcites.1) hPQ hQ hnext hlow now _

/-! ### Drains -/

/-- An event of the plan stays ready while others with different rows are applied. -/
private theorem Planned.Ready.applied {now clock_now wrapup : Time} {p q : Planned} {db : Db}
    {o : Option CallState} {v : View} (hq : q.Ready db.view) (hh : db.view.Healthy)
    (hp : p.Valid db.view) (h : Applied now p.event clock_now wrapup db p.read o v)
    (hne : q.event.1 ≠ p.event.1) : q.Ready v := by
  have hevo := ((h.progress hp).1 hh).2
  have hon := (h.wrote hh hp).onward hevo
  refine ⟨hq.valid.mono hevo, ⟨fun k hk => ?_, hq.cites.claimed, hq.cites.refused⟩, ?_⟩
  · obtain ⟨c, hc, hcites⟩ := hq.cites.cited k hk
    obtain ⟨c', hc', hmono, _⟩ := hon.cites k c hc
    exact ⟨c', hc', hmono _ hcites⟩
  · obtain ⟨e, he, hrest⟩ := hq.row
    obtain ⟨f, hevents, _⟩ := h.mark
    refine ⟨e, ?_, hrest⟩
    rw [hevents, Table.get?_alter, if_neg hne]
    exact he

/-- **Plans.** By induction on the plan; every event is ready when its turn comes. -/
theorem applyPlan_ready {R : View → View → Prop} (hr : ∀ v, R v v)
    (ht : ∀ a b c, R a b → R b c → R a c) {cfg : Settings} {now : Time}
    (hstep : ∀ (p : Planned) (db : Db) o v, p.Ready db.view →
      Applied now p.event p.clock_now (secs cfg.wrapup_s) db p.read o v → R db.view v)
    {plan : List Planned} {db db' : Db} {log : List (ℕ × CallState)}
    (hnd : (plan.map (·.event.1)).Nodup) (hacc : db.view.Accounted) (hh : db.view.Healthy)
    (hp : ∀ p ∈ plan, p.Ready db.view) (hf : Founded db.view plan)
    (h : (applyPlan cfg now plan).run db = .ok (log, db')) :
    R db.view db'.view ∧ db'.view.Accounted := by
  induction plan generalizing db log with
  | nil =>
    obtain ⟨_, rfl⟩ := Txn.run_pure_ok.mp h
    exact ⟨hr _, hacc⟩
  | cons p plan ih =>
    obtain ⟨o, db₁, rest, h₁, h₂, _⟩ := applyPlan_cons h
    have happ := applyOneWrite_cases h₁
    have hready := hp p (by simp)
    rw [List.map_cons, List.nodup_cons] at hnd
    -- the rows of the plan are different ones, so the write of the first leaves the others
    -- waiting
    have hrest : ∀ q ∈ plan, q.Ready db₁.view := by
      intro q hq
      have hne : q.event.1 ≠ p.event.1 := by
        intro heq
        exact hnd.1 (heq ▸ List.mem_map.mpr ⟨q, hq, rfl⟩)
      exact (hp q (by simp [hq])).applied hh hready.valid happ hne
    -- the refusals of the first event are founded on the calls alone, those behind it on its
    -- write as well
    obtain ⟨hR, hacc'⟩ := ih hnd.2 (happ.accounted hacc hh hready (hf [] p plan rfl))
      ((happ.progress hready.valid).1 hh).1 hrest (hf.applied happ hh hready.valid) h₂
    exact ⟨ht _ _ _ (hstep p db o _ hready happ) hR, hacc'⟩

/-- The writes of a drain keep the account: each row is marked by what its own write has done. -/
theorem applyPlan_accounted {cfg : Settings} {now : Time} {plan : List Planned} {db db' : Db}
    {log : List (ℕ × CallState)} (hnd : (plan.map (·.event.1)).Nodup) (hacc : db.view.Accounted)
    (hh : db.view.Healthy) (hp : ∀ p ∈ plan, p.Ready db.view) (hf : Founded db.view plan)
    (h : (applyPlan cfg now plan).run db = .ok (log, db')) : db'.view.Accounted :=
  (applyPlan_ready (R := fun _ _ => True) (fun _ => trivial) (fun _ _ _ _ _ => trivial)
    (fun _ _ _ _ _ _ => trivial) hnd hacc hh hp hf h).2

/-- Giving up on the events of unknown calls. -/
theorem View.Accounted.sweep {v : View} (h : v.Accounted) (now : Time) :
    View.Accounted { v with
      provider_events := v.provider_events.modify (fun _ e => EventRepo.isGivenUp now e)
        EventRepo.givenUpRow } := by
  -- a row that is given up was waiting, and does not become effective
  have hrow : ∀ {i e'}, (v.provider_events.modify (fun _ e => EventRepo.isGivenUp now e)
      EventRepo.givenUpRow).get? i = some e' → v.provider_events.get? i = some e' ∨
        e'.Marked v.calls ∧ e'.isEffective = false := by
    intro i e' he'
    obtain ⟨e, he, heq⟩ := Table.exists_of_get?_modify he'
    split at heq
    · rename_i hg
      refine Or.inr ⟨?_, by rw [heq]; exact (isEffective_of_isGivenUp hg).2⟩
      unfold EventRepo.isGivenUp at hg
      simp only [Bool.and_eq_true, Bool.not_eq_true', beq_iff_eq] at hg
      rw [heq]
      exact .givenUp rfl ((h.marked i e he).waits hg.1.1).1 hg.1.2
    · exact Or.inl (heq ▸ he)
  constructor
  · intro i e' he'
    rcases hrow he' with hold | ⟨hmarked, _⟩
    · exact h.marked i e' hold
    · exact hmarked
  · intro i j e e' k s hi hj he he' hk hk' hs hs'
    rcases hrow hi with hi | ⟨_, hneff⟩
    · rcases hrow hj with hj | ⟨_, hneff⟩
      · exact h.unique i j e e' k s hi hj he he' hk hk' hs hs'
      · rw [hneff] at he'; cases he'
    · rw [hneff] at he; cases he
  · intro k c hc
    refine (h.sourced k c hc).mono fun s => ?_
    rintro ⟨i, e, he, heff, hk, hs⟩
    refine ⟨i, e, ?_, heff, hk, hs⟩
    have hkeep : EventRepo.isGivenUp now e = false := by
      by_contra hg
      rw [Bool.not_eq_false] at hg
      rw [(isEffective_of_isGivenUp hg).1] at heff
      cases heff
    rw [Table.get?_modify, he, Option.map_some, if_neg (by rw [hkeep]; exact Bool.false_ne_true)]

/-! ### Actions -/

/-- What an action of the dialer itself writes to the calls. -/
inductive DialerWrites (a : Act) (calls : Table CallRow) : Table CallRow → Prop
  | nothing : DialerWrites a calls calls
  | created {now : Time} {campaign_id agent_id borrower_id : ℕ} {provider : String}
      {attempt_no : ℕ} {idem worker : String} {lease_until : Time} :
      DialerWrites a calls (calls.push (CallRepo.createdRow now campaign_id agent_id borrower_id
        provider attempt_no idem worker lease_until))
  | dialed {k : ℕ} {c : CallRow} {now clock_now : Time} {pcid : String} {lease_until : Time}
      (ha : a = .accepted now clock_now k pcid) (hc : calls.get? k = some c)
      (hs : c.state = .RESERVED) :
      DialerWrites a calls (calls.alter k
        (CallRepo.advancedRow now .INITIATED (some pcid) (some lease_until) none))
  | rejected {k : ℕ} {c : CallRow} {now : Time} (hc : calls.get? k = some c)
      (hs : c.state = .RESERVED) (hn : c.provider_call_id = none) :
      DialerWrites a calls (calls.alter k
        (CallRepo.advancedRow now .FAILED none none (some "PROVIDER_REJECTED")))
  | pulledBack {now : Time} {call_id : ℕ} :
      DialerWrites a calls (calls.modify (fun i c => i == call_id && c.state.isRinging)
        (CallRepo.cancelledRow now "SAFETY_PULLBACK"))
  | reaped {now now_ts : Time} :
      DialerWrites a calls (calls.modify (fun _ c => isOrphan now_ts c) (orphanedRow now))

/-- What an action other than the commit of a drain does to the calls and to the ledger. -/
structure View.Acted (a : Act) (v v' : View) : Prop where
  calls : DialerWrites a v.calls v'.calls
  events : v'.provider_events = v.provider_events ∨
    ∃ now provider event_id call_ref etype ts payload,
      a = .ingest now provider event_id call_ref etype ts payload ∧ v'.provider_events =
        v.provider_events.push
          (EventRepo.ingestedRow now provider event_id call_ref etype ts payload)

/-- An action may do nothing. -/
theorem View.Acted.refl {a : Act} (v : View) : v.Acted a v := ⟨.nothing, Or.inl rfl⟩

/-- An allocation creates at most one call, and records no event. -/
private theorem Allocated.acted {now : Time} {lockedBorrowers : List ℕ} {worker : String}
    {campaign_id : ℕ} {lease : Time} {db : Db} {o : Option Reservation} {v : View} {a : Act}
    (h : Allocated now lockedBorrowers worker campaign_id lease db o v) : db.view.Acted a v := by
  cases h with
  | noAgent | noBorrower | noProvider => exact ⟨.nothing, Or.inl rfl⟩
  | created => exact ⟨.created, Or.inl rfl⟩

/-- The call of an attempt is reserved until it ends, and has no reference so far. -/
private theorem Sys.Kept.reserved {s : Sys} (h : s.Kept) {call_id : ℕ} {att : Attempt}
    (hatt : s.attempts.get? call_id = some att) {c : CallRow}
    (hc : s.db.calls.get? att.reservation.call_id = some c) (hrank : c.state_rank < 6) :
    c.state = .RESERVED ∧ c.provider_call_id = none := by
  obtain ⟨c', hc', _, _, hst⟩ := Floor.Attends.call h.attempted hatt
  have hcc : c' = c := Option.some.inj (hc'.symm.trans hc)
  have hset := h.live.healthy.settled _ c hc
  rw [hset.rank_eq] at hrank
  -- the call of an attempt waits to be dialed, or has ended
  have hs : c.state = .RESERVED := by
    rw [hcc] at hst
    rcases hst with hs | ht
    · exact hs
    · have := isTerminal_iff.mp ht
      omega
  refine ⟨hs, ?_⟩
  rw [← Option.not_isSome_iff_eq_none]
  exact fun hr => hset.dialed hr hs

/-- **Actions.** -/
theorem step_acted (cfg : Settings) {s : Sys} (h : s.Kept) {a : Act} (ha : ∀ w, a ≠ .commit w) :
    s.db.view.Acted a (step cfg s a).db.view := by
  cases a with
  | commit w => exact absurd rfl (ha w)
  | createAgent now campaign_id ext_ref =>
    rw [step, Sys.exec_db]
    rcases Txn.commit_cases (AgentRepo.create now campaign_id ext_ref) s.db with
      ⟨i, hrun, _⟩ | ⟨hc, _⟩
    · rw [insertAgent_run hrun]
      exact ⟨.nothing, Or.inl rfl⟩
    · rw [hc]; exact .refl _
  | login | logout | pause | abandon | rollback => exact ⟨.nothing, Or.inl rfl⟩
  | seed now campaign_id phone priority max_attempts =>
    obtain ⟨db', hrun, hv⟩ := BorrowerRepo.seed_run now campaign_id phone priority max_attempts s.db
    rw [step, Sys.exec_db, (Txn.commit_of_run hrun).1]
    rcases hv with hv | hv <;> rw [hv] <;> exact ⟨.nothing, Or.inl rfl⟩
  | reserveAndCreate now clock_now lockedAgents lockedBorrowers pick worker campaign_id =>
    rw [step, Sys.allocate_db]
    rcases Txn.commit_cases (SmartDialer.reserveAndCreate now lockedAgents lockedBorrowers pick
      worker campaign_id (reserveUntil clock_now cfg)) s.db with ⟨o, hrun, _⟩ | ⟨hc, _⟩
    · exact (reserveAndCreate_cases hrun).acted
    · rw [hc]; exact .refl _
  | placeCall call_id => rw [step, Sys.placeCall_db]; exact .refl _
  | rejected now call_id =>
    rcases s.settle_cases call_id fun a => recordRejected now a.reservation with
      ⟨att, hatt, _, hdb, _⟩ | hs
    · obtain ⟨db₁, db', hrun, hview, hcall⟩ := recordRejected_run now att.reservation s.db
      rw [step, hdb, (Txn.commit_of_run hrun).1, hview]
      -- the call may have been failed by the reaper before its provider answered
      rcases hcall with ⟨rfl, _⟩ | ⟨c, hc, hrank, hv⟩
      · exact ⟨.nothing, Or.inl rfl⟩
      · obtain ⟨hs, hn⟩ := h.reserved hatt hc hrank
        rw [hv]
        exact ⟨.rejected hc hs hn, Or.inl rfl⟩
    · rw [step, hs]; exact .refl _
  | accepted now clock_now call_id pcid =>
    rcases s.settle_cases call_id fun a =>
        recordInitiated now a.reservation pcid a.worker (dialUntil clock_now cfg) with
      ⟨att, hatt, _, hdb, _⟩ | hs
    · rw [step, hdb]
      rcases Txn.commit_cases (recordInitiated now att.reservation pcid att.worker
        (dialUntil clock_now cfg)) s.db with ⟨_, hrun, _⟩ | ⟨hc, _⟩
      · obtain ⟨db₁, hview, hcall⟩ := recordInitiated_cases hrun
        rw [hview]
        rcases hcall with ⟨rfl, _⟩ | ⟨c, hc, hrank, hv⟩
        · exact ⟨.nothing, Or.inl rfl⟩
        · have hres := (h.reserved hatt hc (by omega)).1
          have hid : att.reservation.call_id = call_id := (h.attempted call_id att hatt).1
          rw [hid] at hc hv
          rw [hv]
          exact ⟨.dialed rfl hc hres, Or.inl rfl⟩
      · rw [hc]; exact .refl _
    · rw [step, hs]; exact .refl _
  | pullback now call_id =>
    refine ⟨?_, Or.inl ?_⟩
    · rw [step, Sys.exec_db, Db.view_calls, Db.view_calls, cancelCandidate_calls]
      exact .pulledBack
    · obtain ⟨b, db', hrun, hv⟩ := cancelCandidate_run now call_id s.db
      rw [step, Sys.exec_db, (Txn.commit_of_run hrun).1]
      rcases hv with ⟨_, rfl⟩ | ⟨c, _, _, _, hv⟩
      · rfl
      · rw [hv, View.setBorrower_provider_events, View.setAgentOf_provider_events,
          View.setCall_provider_events]
  | reap now clock_now registry =>
    refine ⟨?_, Or.inl ?_⟩
    · rw [step, Sys.reap_db, Db.view_calls, Db.view_calls, reap_calls]
      exact .reaped
    · obtain ⟨res, db', hrun, hv⟩ := reap_run now clock_now registry s.db
      rw [step, Sys.reap_db, (Txn.commit_of_run hrun).1, hv, View.reap_provider_events]
  | ingest now provider event_id call_ref etype ts payload =>
    obtain ⟨o, db', hrun, hv⟩ := EventRepo.ingest_run now provider event_id call_ref etype ts
      payload s.db
    rw [step, Sys.exec_db, (Txn.commit_of_run hrun).1]
    rcases hv with ⟨_, _, hv⟩ | ⟨_, _, rfl⟩
    · rw [hv]
      -- the one action that adds to the ledger
      exact ⟨.nothing, Or.inr ⟨now, provider, event_id, call_ref, etype, ts, payload, rfl, rfl⟩⟩
    · exact .refl _
  | fetch now w limit =>
    obtain ⟨rows, hs, _⟩ := s.fetch_cases now w limit
    rw [step, hs]
    exact .refl _
  | read clock_now w =>
    rw [step]
    rcases s.read_cases cfg clock_now w with ⟨_, _, _, _, _, _, _, hs⟩ | hs <;> rw [hs] <;>
      exact .refl _

/-! ### Steps -/

/-- The rows of the calls after a write of the dialer. -/
theorem DialerWrites.sourced {a : Act} {calls calls' : Table CallRow}
    (h : DialerWrites a calls calls')
    {P : ℕ → CallState → Prop} (hsourced : ∀ k c, calls.get? k = some c → c.Sourced (P k)) :
    ∀ k c, calls'.get? k = some c → c.Sourced (P k) := by
  intro k c' hc'
  cases h with
  | nothing => exact hsourced k c' hc'
  | created =>
    rcases Table.cases_of_get?_push hc' with ⟨_, rfl⟩ | hold
    · -- a new row tells nothing
      exact CallRow.sourced_createdRow ..
    · exact hsourced k c' hold
  | dialed _ hc hs =>
    rcases Table.cases_of_get?_alter hc hc' with ⟨rfl, rfl⟩ | ⟨_, hold⟩
    · exact (hsourced _ _ hc).accepted hs ..
    · exact hsourced k c' hold
  | rejected hc hs hn =>
    rcases Table.cases_of_get?_alter hc hc' with ⟨rfl, rfl⟩ | ⟨_, hold⟩
    · exact (hsourced _ _ hc).rejected hs hn _
    · exact hsourced k c' hold
  | pulledBack =>
    obtain ⟨c, hc, hcc⟩ := Table.exists_of_get?_modify hc'
    split at hcc
    · rename_i hp
      rw [hcc]
      exact (hsourced k c hc).cancelled (Bool.and_eq_true_iff.mp hp).2 _
    · rw [hcc]
      exact hsourced k c hc
  | reaped =>
    obtain ⟨c, hc, hcc⟩ := Table.exists_of_get?_modify hc'
    split at hcc
    · rename_i ho
      rw [hcc]
      exact (hsourced k c hc).orphaned ho _
    · rw [hcc]
      exact hsourced k c hc

/-- A dialed call was reserved, and so no event had named it. -/
private theorem CallRow.Reached.dialed {c : CallRow} {s : CallState} (h : c.Reached s)
    (hs : c.state = .RESERVED) (now : Time) (pcid : String) (lease_until : Time) :
    (CallRepo.advancedRow now .INITIATED (some pcid) (some lease_until) none c).Reached s := by
  have hrank : rank s ≤ 1 := by
    have := h.rank_le
    rwa [hs] at this
  refine ⟨?_, ?_, ?_, fun ht => ?_⟩
  · show rank s ≤ 2
    omega
  · rintro rfl
    exact absurd hrank (by decide)
  · rintro rfl
    exact absurd hrank (by decide)
  · have := isTerminal_iff.mp ht
    omega

/-- Every action leaves the calls that events refer to, and what they have reached. -/
theorem step_onward (cfg : Settings) {s : Sys} (h : s.Live) (a : Act) :
    s.db.view.Onward (step cfg s a).db.view := by
  have hevo := (step_progress cfg h a h.healthy).2
  cases step_calls cfg h a with
  | wrote hw => exact hw.onward hevo
  | created hcalls =>
    refine ⟨fun k c hc => ⟨c, ?_, fun _ he => he, le_rfl, fun _ hr => hr⟩⟩
    rw [Db.view_calls] at hc
    rw [Db.view_calls, hcalls, Table.get?_push, if_neg (Table.ne_nextId hc), hc]
  -- dialing sets the reference of the call: what was of it stays of it
  | @dialed j d now pcid lease_until hd hs hcalls =>
    refine ⟨fun k c hc => ?_⟩
    obtain ⟨c', hc', hce⟩ := hevo k c hc
    obtain ⟨c'', hc'', hle⟩ := step_rank_le cfg h a hc
    obtain rfl := Option.some.inj (hc''.symm.trans hc')
    refine ⟨c'', hc', fun e he => he.evolves hce (step_provider cfg h a hc hc'), hle,
      fun t hr => ?_⟩
    rw [Db.view_calls, hcalls] at hc'
    rcases Table.cases_of_get?_alter hd hc' with ⟨rfl, rfl⟩ | ⟨_, hold⟩
    · rw [Db.view_calls, hd, Option.some.injEq] at hc
      exact (hc ▸ hr).dialed hs ..
    · rw [Db.view_calls, hold, Option.some.injEq] at hc
      exact hc ▸ hr

/-- The account is kept over a state in which drains hold only what is still true. -/
structure Sys.Accounted (s : Sys) : Prop where
  kept : s.Kept
  ledger : s.Ledger
  citing : s.Citing
  accounted : s.db.view.Accounted

/-- Nothing has been called, reported or recorded. -/
theorem accounted_init : Sys.init.Accounted where
  kept := kept_init
  ledger := ledger_init
  citing := citing_init
  accounted := ⟨fun _ _ h => (by cases h), fun _ _ _ _ _ _ h => (by cases h),
    fun _ _ h => by cases h⟩

/-- What a drain holds is ready to be applied. -/
theorem Sys.Accounted.ready {s : Sys} (h : s.Accounted) {w : ℕ} {d : Drain}
    (hw : s.drains.get? w = some d) : ∀ p ∈ d.plan, p.Ready s.db.view := by
  intro p hp
  obtain ⟨e, he, hsame⟩ := h.citing.held w d hw p.event (by
    rw [Drain.events]
    exact List.mem_append_left _ (List.mem_map.mpr ⟨p, hp, rfl⟩))
  obtain ⟨e', he', hu⟩ := h.ledger.unapplied w d hw p.event.1 (by
    rw [Drain.locked]
    exact List.mem_append_left _ (List.mem_map.mpr ⟨p, hp, rfl⟩))
  rw [he, Option.some.injEq] at he'
  exact ⟨h.kept.live.planned w d hw p hp, h.citing.cites w d hw p hp, e, he, he' ▸ hu, hsame⟩

/-- **Step.** Every action keeps the invariant. -/
theorem accounted_step (cfg : Settings) {s : Sys} (h : s.Accounted) (a : Act) :
    (step cfg s a).Accounted := by
  refine ⟨kept_step cfg h.kept a, ledger_step h.ledger a,
    citing_step cfg h.kept.live h.citing a, ?_⟩
  -- only a commit marks rows; the other actions write calls, or add a row that waits
  by_cases ha : ∀ w, a ≠ .commit w
  · have hacted := step_acted cfg h.kept ha
    have hmono : ∀ i e, s.db.view.provider_events.get? i = some e →
        (step cfg s a).db.view.provider_events.get? i = some e := by
      intro i e hi
      rcases hacted.events with he | ⟨_, _, _, _, _, _, _, _, he⟩
      · rw [he]; exact hi
      · rw [he, Table.get?_push, if_neg (Table.ne_nextId hi)]; exact hi
    refine h.accounted.onward (step_onward cfg h.kept.live a) (fun i e' he' => ?_) ?_
    · rcases hacted.events with he | ⟨_, _, _, _, _, _, _, _, he⟩
      · rw [he] at he'
        exact Or.inl he'
      · rw [he] at he'
        rcases Table.cases_of_get?_push he' with ⟨_, rfl⟩ | hold
        · exact Or.inr ⟨rfl, rfl, rfl⟩
        · exact Or.inl hold
    · refine hacted.calls.sourced fun k c hc => (h.accounted.sourced k c hc).mono fun t => ?_
      rintro ⟨i, e, hi, hrest⟩
      exact ⟨i, e, hmono i e hi, hrest⟩
  · push Not at ha
    obtain ⟨w, rfl⟩ := ha
    rcases s.commit_cases cfg w with ⟨now, plan, hw, _, hs⟩ | hs
    · rw [step, hs]
      show (Db.view (Txn.commit _ _)).Accounted
      rcases Txn.commit_cases (commitDrain cfg ⟨now, [], plan⟩) s.db with ⟨moved, hrun, _⟩ | ⟨hc, _⟩
      · obtain ⟨db₁, hplan, hview⟩ := commitDrain_run hrun
        -- a drain has locked each of its rows once
        have hnd : (plan.map (·.event.1)).Nodup := by
          simpa [Drain.locked] using h.ledger.nodup w _ hw
        rw [hview]
        exact (applyPlan_accounted hnd h.accounted h.kept.live.healthy (h.ready hw)
          (h.citing.founded w _ hw) hplan).sweep now
      · rw [hc]
        exact h.accounted
    · rw [step, hs]
      exact h.accounted

/-! ### Runs -/

/-- **Run.** The account is kept in every reachable state. -/
theorem accounted_run (cfg : Settings) (acts : List Act) :
    (run (step cfg) Sys.init acts).Accounted :=
  invariant_run (I := Sys.Accounted) (fun _ a h => accounted_step cfg h a) accounted_init acts

/-- **The ledger tells the truth.** In every state reached the marks of a ledger row mean what they
    say, and of the rows that are applied without an anomaly no two report the same state for the
    same call. -/
theorem ledger_truthful (cfg : Settings) (acts : List Act) :
    (∀ i e, (run (step cfg) Sys.init acts).db.provider_events.get? i = some e →
      e.Marked (run (step cfg) Sys.init acts).db.calls) ∧
    ∀ i j e e' k s, (run (step cfg) Sys.init acts).db.provider_events.get? i = some e →
      (run (step cfg) Sys.init acts).db.provider_events.get? j = some e' →
      e.isEffective = true → e'.isEffective = true → e.call_id = some k → e'.call_id = some k →
      e.incoming = some s → e'.incoming = some s → i = j :=
  ⟨(accounted_run cfg acts).accounted.marked, (accounted_run cfg acts).accounted.unique⟩

/-- **The calls are accounted for.** In every state reached a call rang, was answered, was connected
    or ended for a reason that the ledger or the call itself records. -/
theorem calls_sourced (cfg : Settings) (acts : List Act) {k : ℕ} {c : CallRow}
    (hc : (run (step cfg) Sys.init acts).db.calls.get? k = some c) :
    c.Sourced ((run (step cfg) Sys.init acts).db.view.Reported k) :=
  (accounted_run cfg acts).accounted.sourced k c hc

/-- The answer of a call overtakes its ringing, and a call that nobody knows rings too. -/
def overtakenRun : List Act :=
  [.createAgent 0 7 "ext-1", .login 0 1, .seed 0 7 "+15550001" 100 3,
    .reserveAndCreate 0 0 [] [] (some "mock") "w1" 7, .placeCall 1,
    .accepted (secs 1) (secs 1) 1 "pc-1",
    .ingest (secs 2) "mock" "e-2" (some "pc-1") "answered" (secs 2) "",
    .ingest (secs 3) "mock" "e-1" (some "pc-1") "ringing" (secs 1) "",
    .ingest (secs 3) "mock" "e-9" (some "pc-9") "ringing" (secs 1) "",
    .fetch (secs 4) 1 10, .read (secs 4) 1, .read (secs 4) 1, .read (secs 4) 1, .commit 1]

/-- In this run the answer overtakes the ringing: the call is connected, and what its row tells has
    its source in the ledger. -/
theorem calls_sourced_overtakenRun :
    ∃ c, (run (step .default) Sys.init overtakenRun).db.calls.get? 1 = some c ∧
      c.state = .CONNECTED ∧
      c.Sourced ((run (step .default) Sys.init overtakenRun).db.view.Reported 1) := by
  obtain ⟨c, hc, hs⟩ := Option.map_eq_some_iff.mp
    (show ((run (step .default) Sys.init overtakenRun).db.calls.get? 1).map (·.state)
      = some .CONNECTED by decide +kernel)
  exact ⟨c, hc, hs, calls_sourced .default overtakenRun hc⟩

end SmartDialer
