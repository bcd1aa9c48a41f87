import SmartDialer.Correctness.Dialing
import SmartDialer.Correctness.Cancels

namespace SmartDialer

open Relational

/-!
# Recovery of dialing agents

The reaper leaves an agent in `DIALING` alone and frees it with its call, when the orphan sweep
fails the call.  The sweep looks for an expired lease in some of the states; `ADVANCE` clears the
lease of a call that it is given none for, and every event is applied so.

* `reap_agent` — what a tick of the reaper makes of one agent.
* `dialing_recovers_iff` — after all leases have run out a tick recovers the dialing agents exactly
  if no event of their calls has been applied.
-/

/-- All leases in the tables ran out before `t`. -/
structure Sys.LeasesOver (s : Sys) (t : Time) : Prop where
  calls : ∀ k c, s.db.calls.get? k = some c → ∀ e ∈ c.lease_expires_at, e < t
  agents : ∀ i a, s.db.agents.get? i = some a → ∀ e ∈ a.lease_expires_at, e < t

/-- A tick of the reaper leaves nobody dialing: it fails the call of every agent that was, and makes
    the agent available. -/
structure Sys.Recovers (s : Sys) (now now_ts : Time) (registry : Option (List String)) : Prop where
  nobody : ∀ i a', (s.reap now now_ts registry).db.agents.get? i = some a' → a'.state ≠ .DIALING
  failed : ∀ i a, s.db.agents.get? i = some a → a.state = .DIALING →
    ∃ k c c' a', a.current_call_id = some k ∧ s.db.calls.get? k = some c ∧ c.agent_id = some i ∧
      c.state ∉ terminal ∧ (s.reap now now_ts registry).db.calls.get? k = some c' ∧
      c'.state = .FAILED ∧ (s.reap now now_ts registry).db.agents.get? i = some a' ∧
      a'.state = .AVAILABLE

/-! ### One agent -/

/-- The orphans set their agents free and leave the others as they are. -/
private theorem foldl_forced_state (now : Time) (i : ℕ) (l : List (ℕ × CallRow)) (a : AgentRow) :
    let a' := l.foldl (fun a e => if e.2.agent_id = some i
      then AgentRepo.forcedRow now .AVAILABLE none none none a else a) a
    (a'.state = a.state ∨ a'.state = .AVAILABLE) ∧
      ((∃ e ∈ l, e.2.agent_id = some i) → a'.state = .AVAILABLE) := by
  induction l generalizing a with
  | nil =>
    refine ⟨Or.inl rfl, ?_⟩
    rintro ⟨e, he, _⟩
    cases he
  | cons e l ih =>
    simp only [List.foldl_cons, List.exists_mem_cons_iff]
    by_cases hagent : e.2.agent_id = some i
    · -- once free, the agent stays free
      have hfree := (ih (AgentRepo.forcedRow now .AVAILABLE none none none a)).1.elim id id
      rw [if_pos hagent]
      exact ⟨Or.inr hfree, fun _ => hfree⟩
    · obtain ⟨hstate, hfree⟩ := ih a
      rw [if_neg hagent]
      exact ⟨hstate, fun h => hfree (h.resolve_left hagent)⟩

/-- The sweeps at the end of a tick leave an agent available, and set nobody to dial. -/
private theorem sweptAgent_state (now now_ts : Time) (a : AgentRow) :
    (a.state = .AVAILABLE → (sweptAgent now now_ts a).state = .AVAILABLE) ∧
      ((sweptAgent now now_ts a).state = .DIALING → a.state = .DIALING) := by
  -- the two sweeps in turn: RECLAIM of expired leases, then the release of wrap-ups
  let a₁ := if isReclaimed now_ts a then reclaimedRow now a else a
  have h₁ : a₁.state = a.state ∨ (a.state = .RESERVED ∧ a₁.state = .AVAILABLE) := by
    unfold a₁
    split
    · unfold reclaimedRow
      simp only
      split
      · rename_i hs
        exact Or.inr ⟨hs, rfl⟩
      · exact Or.inl rfl
    · exact Or.inl rfl
  have h₂ : (sweptAgent now now_ts a).state = a₁.state ∨
      (sweptAgent now now_ts a).state = .AVAILABLE := by
    show (if isWrapupOver now_ts a₁ then wrapupReleasedRow now a₁ else a₁).state = _ ∨
      (if isWrapupOver now_ts a₁ then wrapupReleasedRow now a₁ else a₁).state = _
    split
    · exact Or.inr rfl
    · exact Or.inl rfl
  constructor
  · intro ha
    rcases h₁ with h₁ | ⟨h₁, _⟩
    · rcases h₂ with h₂ | h₂
      · rw [h₂, h₁, ha]
      · exact h₂
    · rw [ha] at h₁
      cases h₁
  · intro hd
    rcases h₂ with h₂ | h₂
    · rcases h₁ with h₁ | ⟨_, h₁⟩
      · rw [← h₁, ← h₂, hd]
      · rw [h₂, h₁] at hd
        cases hd
    · rw [h₂] at hd
      cases hd

/-- **One agent.** A tick of the reaper sets nobody to dial, and makes the agent of an orphan
    available. -/
theorem reap_agent (s : Sys) (now now_ts : Time) (registry : Option (List String)) (i : ℕ) :
    ∃ g : AgentRow → AgentRow,
      (s.reap now now_ts registry).db.agents.get? i = (s.db.agents.get? i).map g ∧
      (∀ a, (g a).state = .DIALING → a.state = .DIALING) ∧
      ((∃ k c, s.db.calls.get? k = some c ∧ isOrphan now_ts c = true ∧ c.agent_id = some i) →
        ∀ a, (g a).state = .AVAILABLE) := by
  rw [Sys.reap_db, reap_agents, Table.get?_map]
  refine ⟨_, rfl, fun a hd => ?_, ?_⟩
  · have hdialing := (sweptAgent_state now now_ts _).2 hd
    rcases (foldl_forced_state now i _ a).1 with hs | hs
    · rw [← hs, hdialing]
    · rw [hs] at hdialing
      cases hdialing
  · rintro ⟨k, c, hc, ho, hagent⟩ a
    apply (sweptAgent_state now now_ts _).1
    apply (foldl_forced_state now i _ a).2
    exact ⟨(k, c), Table.mem_select.mpr ⟨hc, ho⟩, hagent⟩

/-! ### Runs -/

/-- The call is past `RESERVED`, and while it is initiated it has a lease. -/
def CallRow.Leased (c : CallRow) : Prop :=
  c.state ≠ .RESERVED ∧ (c.state = .INITIATED → c.lease_expires_at.isSome = true)

/-- Whatever happens, the calls of dialing agents are leased. -/
theorem dials_leased_run (cfg : Settings) (acts : List Act) :
    (run (step cfg) Sys.init acts).floor.Dials CallRow.Leased := by
  have hinit : ∀ c : CallRow, c.state = .INITIATED → c.lease_expires_at.isSome = true →
      c.Leased := by
    intro c hc hl
    refine ⟨?_, fun _ => hl⟩
    rw [hc]; decide
  -- a call that rings or has ended is neither RESERVED nor INITIATED
  have hpast : ∀ c : CallRow, c.state = .RINGING ∨ c.state.isTerminal = true → c.Leased := by
    rintro c hc
    constructor
    · intro hs
      rcases hc with hc | hc <;> rw [hs] at hc <;> cases hc
    · intro hs
      rcases hc with hc | hc <;> rw [hs] at hc <;> cases hc
  have hboth := invariant_run (I := fun s : Sys => s.Kept ∧ s.floor.Dials CallRow.Leased)
    (fun s a h => ⟨kept_step cfg h.1 a, dials_step cfg hinit (fun c hc => hpast c (Or.inl hc))
      h.1 h.2 (Or.inr fun c hc => hpast c (Or.inr hc))⟩)
    ⟨kept_init, fun _ _ h => by cases h⟩ acts
  exact hboth.2

/-- One call after a tick of the reaper. -/
private theorem get?_reap_calls (s : Sys) (now now_ts : Time) (registry : Option (List String))
    (k : ℕ) : (s.reap now now_ts registry).db.calls.get? k
      = (s.db.calls.get? k).map fun c => if isOrphan now_ts c then orphanedRow now c else c := by
  rw [Sys.reap_db, reap_calls, Table.get?_modify]

/-- Once all leases have run out, the initiated call of a dialing agent is an orphan. -/
private theorem isOrphan_of_initiated {s : Sys} {now_ts : Time} (hover : s.LeasesOver now_ts)
    {k : ℕ} {c : CallRow} (hc : s.db.calls.get? k = some c) (hset : c.Settled) (hleased : c.Leased)
    (hs : c.state = .INITIATED) : isOrphan now_ts c = true := by
  obtain ⟨e, he⟩ := Option.isSome_iff_exists.mp (hleased.2 hs)
  have hlt : e < now_ts := hover.calls k c hc e he
  have hnone : c.terminal_at = none := hset.terminal_at_none.mpr (by rw [hs]; rfl)
  simp [isOrphan, hnone, he, hs, hlt]

/-- An orphan that a dialing agent dials is initiated. -/
private theorem initiated_of_isOrphan {now_ts : Time} {c : CallRow} (ho : isOrphan now_ts c = true)
    (hset : c.Settled) (hleased : c.Leased) : c.state = .INITIATED := by
  simp only [isOrphan, Bool.and_eq_true, Bool.or_eq_true, beq_iff_eq] at ho
  rcases ho.2 with (hs | hs) | hs
  · exact absurd hs hset.not_queued
  · exact absurd hs hleased.1
  · exact hs

/-- **Recovery.** Once all leases have run out, a tick of the reaper recovers the dialing agents
    exactly if the calls they dial are all still initiated.  A call that rings has no lease:
    `ADVANCE` has cleared it.  So no tick finds it orphaned, and its agent, whose own lease is over,
    stays where it is. -/
theorem dialing_recovers_iff (cfg : Settings) (acts : List Act) (now now_ts : Time)
    (registry : Option (List String))
    (hover : (run (step cfg) Sys.init acts).LeasesOver now_ts) :
    (run (step cfg) Sys.init acts).Recovers now now_ts registry ↔
      ∀ i a, (run (step cfg) Sys.init acts).db.agents.get? i = some a → a.state = .DIALING →
        ∀ k c, a.current_call_id = some k →
          (run (step cfg) Sys.init acts).db.calls.get? k = some c → c.state = .INITIATED := by
  have hdials := dials_leased_run cfg acts
  have hset : ∀ k c, (run (step cfg) Sys.init acts).db.calls.get? k = some c → c.Settled :=
    (live_run cfg acts).healthy.settled
  generalize run (step cfg) Sys.init acts = s at hover hdials hset ⊢
  constructor
  · intro h i a ha hd k c hk hc
    obtain ⟨k', c', c'', _, hk', hc', _, hlive, hc'', hfail, _⟩ := h.failed i a ha hd
    obtain ⟨k₀, c₀, hk₀, hc₀, _, hleased⟩ := hdials i a ha hd
    rw [hk, Option.some.injEq] at hk' hk₀
    subst hk' hk₀
    rw [hc, Option.some.injEq] at hc'
    have hc₁ : c = c₀ := Option.some.inj (hc.symm.trans hc₀)
    subst hc' hc₁
    -- only the sweep can have failed a live call
    have ho : isOrphan now_ts c = true := by
      by_contra hno
      rw [get?_reap_calls, hc, Option.map_some, if_neg hno, Option.some.injEq] at hc''
      rw [← hc''] at hfail
      rw [hfail] at hlive
      exact hlive (by decide)
    exact initiated_of_isOrphan ho (hset k c hc) hleased
  · intro h
    -- the call of a dialing agent is an orphan
    have horphan : ∀ i a, s.db.agents.get? i = some a → a.state = .DIALING → ∃ k c,
        a.current_call_id = some k ∧ s.db.calls.get? k = some c ∧ c.agent_id = some i ∧
        c.state = .INITIATED ∧ isOrphan now_ts c = true := by
      intro i a ha hd
      obtain ⟨k, c, hk, hc, hagent, hleased⟩ := hdials i a ha hd
      have hs := h i a ha hd k c hk hc
      exact ⟨k, c, hk, hc, hagent, hs, isOrphan_of_initiated hover hc (hset k c hc) hleased hs⟩
    constructor
    · intro i a' ha' hd
      obtain ⟨g, hget, hdial, hfree⟩ := reap_agent s now now_ts registry i
      rw [hget, Option.map_eq_some_iff] at ha'
      obtain ⟨a, ha, rfl⟩ := ha'
      obtain ⟨k, c, _, hc, hagent, _, ho⟩ := horphan i a ha (hdial a hd)
      rw [hfree ⟨k, c, hc, ho, hagent⟩ a] at hd
      cases hd
    · intro i a ha hd
      obtain ⟨g, hget, _, hfree⟩ := reap_agent s now now_ts registry i
      obtain ⟨k, c, hk, hc, hagent, hs, ho⟩ := horphan i a ha hd
      refine ⟨k, c, orphanedRow now c, g a, hk, hc, hagent, by rw [hs]; decide, ?_, rfl, ?_,
        hfree ⟨k, c, hc, ho, hagent⟩ a⟩
      · rw [get?_reap_calls, hc, Option.map_some, if_pos ho]
      · rw [hget, ha]
        rfl

/-- The worker dies right after the provider has accepted. -/
def acceptedOnly : List Act :=
  [.createAgent 0 7 "ext-1", .login 0 1, .seed 0 7 "+15550001" 100 3,
    .reserveAndCreate 0 0 [] [] (some "mock") "w1" 7, .placeCall 1,
    .accepted (secs 1) (secs 1) 1 "pc-1"]

/-- The provider reports that the phone rings, and nothing more. -/
def rangOnly : List Act :=
  acceptedOnly ++ [.ingest (secs 2) "mock" "ev-1" (some "pc-1") "ringing" (secs 2) "",
    .fetch (secs 3) 1 200, .read (secs 3) 1, .commit 1]

/-- A call that never rang: a minute later its agent is available again. -/
theorem dialing_recovers_acceptedOnly :
    (run (step .default) Sys.init acceptedOnly).Recovers (secs 60) (secs 60) none := by
  refine (dialing_recovers_iff .default acceptedOnly (secs 60) (secs 60) none
    ⟨by decide +kernel, by decide +kernel⟩).mpr ?_
  have hcall : ∀ k c, (run (step .default) Sys.init acceptedOnly).db.calls.get? k = some c →
      c.state = .INITIATED := by decide +kernel
  exact fun _ _ _ _ k c _ hc => hcall k c hc

/-- An hour later the agent is still dialing. -/
theorem rangOnly_not_recovers :
    (run (step .default) Sys.init rangOnly).LeasesOver (secs 3600) ∧
      ¬ (run (step .default) Sys.init rangOnly).Recovers (secs 3600) (secs 3600) none := by
  refine ⟨⟨by decide +kernel, by decide +kernel⟩, fun h => ?_⟩
  have hagent : (((run (step .default) Sys.init rangOnly).reap (secs 3600) (secs 3600)
      none).db.agents.get? 1).map (·.state) = some .DIALING := by decide +kernel
  obtain ⟨a, ha, hs⟩ := Option.map_eq_some_iff.mp hagent
  exact h.nobody 1 a ha hs

end SmartDialer
