import SmartDialer.Correctness.Frequency
import SmartDialer.Correctness.Provenance
import SmartDialer.Correctness.Pullback
import SmartDialer.Correctness.RowShapes

namespace SmartDialer

open Relational

/-!
# References between tables

The tables refer to each other by columns that no single transaction keeps in step: a call names its
agent and its borrower, a dialing agent names its call, and the ledger names the call of an event
long after it was delivered.  None of these references ever dangles, and none leads to a row of
another campaign.

* `Sys.Referring` — what is known of the references in every state reached.
* `references_sound` — none of them is broken.
-/

/-- The call that a marked row names. -/
theorem EventRow.Marked.named {calls : Table CallRow} {e : EventRow} (h : e.Marked calls) {k : ℕ}
    (hk : e.call_id = some k) : e.applied = true ∧ ∃ c, calls.get? k = some c ∧ e.IsOf c ∧
      (e.anomaly = none → ∃ t, e.incoming = some t ∧ c.Reached t) := by
  cases h with
  | waiting _ hc => rw [hk] at hc; cases hc
  | givenUp _ hc => rw [hk] at hc; cases hc
  | refused ha hk' hc hof _ hx =>
    obtain rfl := Option.some.inj (hk.symm.trans hk')
    refine ⟨ha, _, hc, hof, fun hnone => ?_⟩
    rcases hx with ⟨hx, _⟩ | ⟨hx, _⟩ <;> rw [hnone] at hx <;> cases hx
  | effective ha _ hk' hc hof hs hreached =>
    obtain rfl := Option.some.inj (hk.symm.trans hk')
    exact ⟨ha, _, hc, hof, fun _ => ⟨_, hs, hreached⟩⟩

/-- Everything that is known of the references. -/
structure Sys.Referring (s : Sys) : Prop extends s.Accounted where
  sameCampaign : s.SameCampaign
  dials : s.floor.Dials fun _ => True
  manned : s.floor.Manned

/-- **Run.** All of it holds in every reachable state. -/
theorem referring_run (cfg : Settings) (acts : List Act) :
    (run (step cfg) Sys.init acts).Referring := by
  refine invariant_run (I := Sys.Referring) (fun s a h => ?_) ?_ acts
  · refine ⟨accounted_step cfg h.toAccounted a, h.sameCampaign.step cfg h.kept.live a, ?_, ?_⟩
    · exact dials_step cfg (fun _ _ _ => trivial) (fun _ _ => trivial) h.kept h.dials
        (Or.inr fun _ _ => trivial)
    · exact (tended_step cfg s a ⟨h.kept, h.manned⟩).manned
  · exact ⟨accounted_init, fun _ _ _ h => (by cases h), fun _ _ h => (by cases h),
      fun _ _ h => by cases h⟩

/-- **References.** In every state reached a call has an agent and a borrower of its campaign, an
    agent with a current call is dialing it as its own, the ledger names only calls that its events
    refer to, and an allocation in flight remembers the agent and the borrower of its call. -/
theorem references_sound (cfg : Settings) (acts : List Act) :
    let s := run (step cfg) Sys.init acts
    (∀ k c, s.db.calls.get? k = some c →
      (∃ i a, c.agent_id = some i ∧ s.db.agents.get? i = some a ∧
        a.campaign_id = c.campaign_id) ∧
      ∃ b, s.db.borrowers.get? c.borrower_id = some b ∧ b.campaign_id = c.campaign_id) ∧
    (∀ i a k, s.db.agents.get? i = some a → a.current_call_id = some k → a.state = .DIALING ∧
      ∃ c, s.db.calls.get? k = some c ∧ c.agent_id = some i ∧ c.campaign_id = a.campaign_id) ∧
    (∀ i e k, s.db.provider_events.get? i = some e → e.call_id = some k → e.applied = true ∧
      ∃ c, s.db.calls.get? k = some c ∧ e.IsOf c) ∧
    ∀ k att, s.attempts.get? k = some att → att.reservation.call_id = k ∧
      ∃ c a, s.db.calls.get? k = some c ∧ c.agent_id = some att.reservation.agent_id ∧
        c.borrower_id = att.reservation.borrower_id ∧
        s.db.agents.get? att.reservation.agent_id = some a := by
  intro s
  have h : s.Referring := referring_run cfg acts
  have hkeyed : s.books.Keyed := (capped_run cfg acts).1
  have hshaped : s.db.view.Shaped := shaped_run cfg acts
  refine ⟨fun k c hc => ⟨?_, hkeyed.borrower k c hc⟩, fun i a k ha hk => ?_,
    fun i e k he hk => ?_, fun k att hatt => ?_⟩
  · obtain ⟨i, hi⟩ := Option.isSome_iff_exists.mp (h.kept.live.healthy.settled k c hc).agent
    obtain ⟨a, ha, hcamp⟩ := h.sameCampaign k c i hc hi
    exact ⟨i, a, hi, ha, hcamp⟩
  · have hs : a.state = .DIALING := by
      have hrow := hshaped.agents i a ha
      unfold AgentRow.Shaped at hrow
      cases hst : a.state <;> rw [hst] at hrow <;> simp_all
    obtain ⟨k', c, hk', hc, hagent, _⟩ := h.dials i a ha hs
    rw [hk, Option.some.injEq] at hk'
    subst hk'
    obtain ⟨a', ha', hcamp⟩ := h.sameCampaign k c i hc hagent
    have haa : a = a' := Option.some.inj (ha.symm.trans ha')
    exact ⟨hs, c, hc, hagent, haa ▸ hcamp.symm⟩
  · obtain ⟨happlied, c, hc, hof, _⟩ := (h.accounted.marked i e he).named hk
    exact ⟨happlied, c, hc, hof⟩
  · obtain ⟨hid, c, hc, hagent, hborrower, _⟩ := h.kept.attempted k att hatt
    obtain ⟨a, ha⟩ := h.manned k att hatt
    exact ⟨hid, c, a, hc, hagent, hborrower, ha⟩

end SmartDialer
