import SmartDialer.Sim.Runner
import SmartDialer.Correctness.Provenance

namespace SmartDialer

open Relational Numeric

/-!
# The totals of a campaign

A simulation reports how many calls were dialed, completed and abandoned so far.  It counts states
of calls, and the ledger has the events that led there; the two never drift apart.

* `Db.reports` — the events of a campaign that were applied and report a state.
* `count_eq_reports` — as many events report an end as calls have come to it.
* `totals_reconcile` — the totals agree with the ledger, they never decrease, and a call is counted
  as completed or abandoned only after it was counted as dialed.
-/

/-- The events that report the state `t` of calls of the campaign and were applied without an
    anomaly. -/
def Db.reports (db : Db) (campaign_id : ℕ) (t : CallState) : ℕ :=
  db.provider_events.count fun _ e => e.isEffective && e.incoming == some t &&
    (e.call_id.bind db.calls.get?).any fun c => c.campaign_id == campaign_id

namespace View.Accounted

variable {db : Db} (h : db.view.Accounted) {k : ℕ} {c : CallRow} {t : CallState}

include h

/-- An event reports only of calls that it refers to, and what it reports has been reached. -/
theorem of_reported (hr : db.view.Reported k t) (hc : db.calls.get? k = some c) :
    c.provider_call_id.isSome = true ∧ c.Reached t := by
  obtain ⟨i, e, hi, heff, hk, ht⟩ := hr
  obtain ⟨happlied, hnone⟩ := Bool.and_eq_true_iff.mp heff
  cases h.marked i e hi with
  | waiting ha => rw [happlied] at ha; cases ha
  | givenUp _ _ hx => rw [hx] at hnone; cases hnone
  | refused _ _ _ _ _ hx => rcases hx with ⟨hx, _⟩ | ⟨hx, _⟩ <;> rw [hx] at hnone <;> cases hnone
  | @effective j d s _ _ hj hd hof hs hreached =>
    obtain rfl : k = j := Option.some.inj (hk.symm.trans hj)
    obtain rfl : t = s := Option.some.inj (ht.symm.trans hs)
    rw [Db.view_calls, hc, Option.some.injEq] at hd
    subst hd
    exact ⟨hof.2.2 ▸ hof.1, hreached⟩

/-- A call is completed exactly when an event has reported it and was applied without an anomaly. -/
theorem completed_iff (hc : db.calls.get? k = some c) :
    c.state = .COMPLETED ↔ db.view.Reported k .COMPLETED := by
  constructor
  · intro hs
    cases (h.sourced k c hc).ended (by rw [hs]; rfl) with
    | reported _ hp => exact hs ▸ hp
    | rejected hs' | expired hs' | pulledBack hs' | unbridged hs' => rw [hs] at hs'; cases hs'
  · exact fun hr => ((h.of_reported hr hc).2.terminal rfl).1

/-- A failed call without a reason of the dialer's own is one that the provider reported. -/
theorem failed_iff (hc : db.calls.get? k = some c) :
    c.state = .FAILED ∧ c.failure_reason = none ↔ db.view.Reported k .FAILED := by
  constructor
  · rintro ⟨hs, hnone⟩
    cases (h.sourced k c hc).ended (by rw [hs]; rfl) with
    | reported _ hp => exact hs ▸ hp
    | rejected _ hr | expired _ hr | pulledBack _ hr => rw [hnone] at hr; cases hr
    | unbridged hs' => rw [hs] at hs'; cases hs'
  · exact fun hr => (h.of_reported hr hc).2.terminal rfl

/-- A call that was completed or abandoned had been dialed. -/
theorem initiated (hc : db.calls.get? k = some c)
    (hs : c.state = .COMPLETED ∨ c.state = .ABANDONED) : c.initiated_at.isSome = true := by
  have hsourced := h.sourced k c hc
  rw [← hsourced.dialed]
  have hterm : c.state.isTerminal = true := by rcases hs with hs | hs <;> rw [hs] <;> rfl
  cases hsourced.ended hterm with
  | reported _ hp => exact (h.of_reported hp hc).1
  | unbridged _ _ _ hp => exact (h.of_reported hp hc).1
  | rejected hs' | expired hs' | pulledBack hs' =>
    rcases hs with hs | hs <;> rw [hs] at hs' <;> cases hs'

/-- **Calls and events.** If the calls under `q` are those that an event reports `t` of, there are
    as many of them as events. -/
theorem count_eq_reports (campaign_id : ℕ) {q : CallRow → Bool}
    (hq : ∀ k c, db.calls.get? k = some c → (q c = true ↔ db.view.Reported k t)) :
    (db.calls.count fun _ c => c.campaign_id == campaign_id && q c) = db.reports campaign_id t := by
  let R : ℕ → ℕ → Prop := fun k i => ∃ e, db.provider_events.get? i = some e ∧
    e.isEffective = true ∧ e.call_id = some k ∧ e.incoming = some t
  apply le_antisymm
  · refine Table.count_le_of_injective R ?_ ?_
    · intro k c hc hp
      rw [Bool.and_eq_true] at hp
      obtain ⟨i, e, hi, heff, hk, ht⟩ := (hq k c hc).mp hp.2
      refine ⟨i, e, ⟨e, hi, heff, hk, ht⟩, hi, ?_⟩
      simp [heff, ht, hk, hc, hp.1]
    · rintro k k' i ⟨e, hi, _, hk, _⟩ ⟨e', hi', _, hk', _⟩
      rw [hi, Option.some.injEq] at hi'
      subst hi'
      exact Option.some.inj (hk.symm.trans hk')
  · refine Table.count_le_of_injective (fun i k => R k i) ?_ ?_
    · intro i e hi hp
      simp only [Bool.and_eq_true, beq_iff_eq] at hp
      obtain ⟨⟨heff, ht⟩, hany⟩ := hp
      cases hbind : e.call_id.bind db.calls.get? with
      | none => rw [hbind] at hany; cases hany
      | some c =>
        rw [hbind, Option.any_some] at hany
        obtain ⟨k, hk, hc⟩ := Option.bind_eq_some_iff.mp hbind
        refine ⟨k, c, ⟨e, hi, heff, hk, ht⟩, hc, ?_⟩
        rw [hany, (hq k c hc).mpr ⟨i, e, hi, heff, hk, ht⟩]
        rfl
    · -- no two events report the same of one call
      rintro i j k ⟨e, hi, heff, hk, ht⟩ ⟨e', hj, heff', hk', ht'⟩
      exact h.unique i j e e' k t hi hj heff heff' hk hk' ht ht'

end View.Accounted

/-- A total grows along with the calls that it counts. -/
private theorem count_le_of_evolves {v v' : View} {campaign_id : ℕ} {q : CallRow → Bool}
    (hevo : v.Evolves v')
    (hq : ∀ k c c', v.calls.get? k = some c → v'.calls.get? k = some c' → c.Evolves c' →
      q c = true → q c' = true) :
    (v.calls.count fun _ c => c.campaign_id == campaign_id && q c)
      ≤ v'.calls.count fun _ c => c.campaign_id == campaign_id && q c := by
  refine Table.count_le_of_injective (fun k i => k = i) ?_ ?_
  · intro k c hc hp
    rw [Bool.and_eq_true] at hp
    obtain ⟨c', hc', hce⟩ := hevo k c hc
    refine ⟨k, c', rfl, hc', ?_⟩
    rw [hce.campaign_id, hp.1, hq k c c' hc hc' hce hp.2]
    rfl
  · rintro k k' i rfl rfl
    rfl

/-- No total decreases. -/
theorem cumQuery_mono {db db' : Db} (h : db.view.Accounted) (h' : db'.view.Accounted)
    (hevo : db.view.Evolves db'.view) (campaign_id : ℕ) :
    (cumQuery campaign_id db).initiated_cum ≤ (cumQuery campaign_id db').initiated_cum ∧
      (cumQuery campaign_id db).connected_cum ≤ (cumQuery campaign_id db').connected_cum ∧
      (cumQuery campaign_id db).abandoned_cum ≤ (cumQuery campaign_id db').abandoned_cum := by
  -- a call that has ended is left alone
  have hend : ∀ {t : CallState}, t.isTerminal = true → ∀ c c' : CallRow, c.Evolves c' →
      (c.state == t) = true → (c'.state == t) = true := by
    intro t ht c c' hce hs
    rw [beq_iff_eq] at hs
    rw [hce.terminal (hs ▸ ht), hs, beq_self_eq_true]
  rw [cumQuery_initiated, cumQuery_initiated, cumQuery_connected, cumQuery_connected,
    cumQuery_abandoned, cumQuery_abandoned]
  refine ⟨count_le_of_evolves hevo fun k c c' hc hc' hce hinit => ?_,
    count_le_of_evolves hevo fun _ c c' _ _ => hend rfl c c',
    count_le_of_evolves hevo fun _ c c' _ _ => hend rfl c c'⟩
  -- a call has its reference from the time when it was dialed
  have href := (h.sourced k c hc).dialed.mpr hinit
  rw [← (h'.sourced k c' hc').dialed, hce.ref href]
  exact href

/-- The calls that ended one way or the other had been dialed. -/
theorem cumQuery_le {db : Db} (h : db.view.Accounted) (campaign_id : ℕ) :
    (cumQuery campaign_id db).connected_cum + (cumQuery campaign_id db).abandoned_cum
      ≤ (cumQuery campaign_id db).initiated_cum := by
  rw [cumQuery_initiated, cumQuery_connected, cumQuery_abandoned]
  calc _ = db.calls.count fun _ c =>
          c.campaign_id == campaign_id && (c.state == .COMPLETED || c.state == .ABANDONED) := by
        symm
        apply Table.count_add
        · intro k c _
          rw [← Bool.or_eq_true, ← Bool.and_or_distrib_left]
        · intro k c _ hs
          rw [Bool.and_eq_true, beq_iff_eq (a := c.state)] at hs
          rw [hs.2]
          exact Bool.and_false _
    _ ≤ _ := by
        refine Table.count_le_of_injective (fun k i => k = i) ?_ ?_
        · -- either end presupposes that the call was placed
          intro k c hc hp
          rw [Bool.and_eq_true, Bool.or_eq_true, beq_iff_eq (a := c.state),
            beq_iff_eq (a := c.state)] at hp
          exact ⟨k, c, rfl, hc, by rw [hp.1, h.initiated hc hp.2]; rfl⟩
        · rintro k k' i rfl rfl
          rfl

/-- **Reconciliation.** In every state reached the ledger holds, applied without an anomaly, one
    report of completion for each call that a row of the CSV file counts as connected, and one of
    failure for each call that failed without a reason of the dialer's own.  The connected and the
    abandoned calls of a row are no more than the dialed ones, and from one row to a later one none
    of the three totals decreases.  What else stands in the rows makes no difference. -/
theorem totals_reconcile (cfg : Settings) (fl : Rounding) (campaign_id : ℕ) (acts more : List Act)
    (tick_i tick_j : ℕ) (time_i time_j : ℚ) (snapshot_i snapshot_j : Snapshot)
    (decision_i decision_j : SafetyDecision) :
    let db := (run (step cfg) Sys.init acts).db
    let later := (run (step cfg) Sys.init (acts ++ more)).db
    let row := simRow fl db campaign_id tick_i time_i snapshot_i decision_i
    let row' := simRow fl later campaign_id tick_j time_j snapshot_j decision_j
    row.calls_connected_cum = db.reports campaign_id .COMPLETED ∧
    (db.calls.count fun _ c => c.campaign_id == campaign_id &&
      (c.state == .FAILED && c.failure_reason == none)) = db.reports campaign_id .FAILED ∧
    row.calls_connected_cum + row.calls_abandoned_cum ≤ row.calls_initiated_cum ∧
    row.calls_initiated_cum ≤ row'.calls_initiated_cum ∧
    row.calls_connected_cum ≤ row'.calls_connected_cum ∧
    row.calls_abandoned_cum ≤ row'.calls_abandoned_cum := by
  intro db later row row'
  have h := accounted_run cfg acts
  have hlater := accounted_run cfg (acts ++ more)
  have hevo : db.view.Evolves later.view := by
    show View.Evolves _ (Sys.db (run _ _ (acts ++ more))).view
    rw [run_append]
    exact evolves_run cfg h.kept.live more
  refine ⟨?_, ?_, cumQuery_le h.accounted campaign_id,
    cumQuery_mono h.accounted hlater.accounted hevo campaign_id⟩
  · -- each completed call has one effective event that says so, and conversely
    show (cumQuery campaign_id db).connected_cum = _
    rw [cumQuery_connected]
    exact h.accounted.count_eq_reports campaign_id fun k c hc => by
      rw [beq_iff_eq]
      exact h.accounted.completed_iff hc
  · exact h.accounted.count_eq_reports campaign_id fun k c hc => by
      rw [Bool.and_eq_true, beq_iff_eq, beq_iff_eq]
      exact h.accounted.failed_iff hc

end SmartDialer
