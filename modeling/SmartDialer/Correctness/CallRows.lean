import SmartDialer.Repo.Calls

namespace SmartDialer

open Relational

/-!
# Rows of `calls`

What one row looks like, and what one statement does to it.

* `CallRow.Ok` — the columns that depend on the state agree with it, in every row image.
* `CallRow.Settled` — what a row looks like between two transactions.
* `CallRow.Evolves` — what becomes of a row over time: it keeps its identity, and a terminal row
  stays as it is.
* `legalNext_of_rank` — for the calls that events concern and the states they claim, the rank
  guard of `ADVANCE` is as strong as the table of legal transitions.
-/

/-! ### Predicates -/

namespace CallRow

/-- A legal transition between two images of a row. -/
def Edge (c c' : CallRow) : Prop := c'.state ∈ legalNext c.state

/-- The columns that depend on the state agree with it. -/
structure Ok (c : CallRow) : Prop where
  rank_eq : c.state_rank = rank c.state
  terminal_iff : c.terminal_at.isSome = true ↔ c.state.isTerminal = true

/-- A call is created reserved, and a live call has a provider reference exactly when it has
    been dialed. -/
structure Sound (c : CallRow) : Prop extends Ok c where
  not_queued : c.state ≠ .QUEUED
  dialed : c.provider_call_id.isSome = true → c.state ≠ .RESERVED
  undialed : c.provider_call_id = none → c.state = .RESERVED ∨ c.state.isTerminal = true
  agent : c.agent_id.isSome = true

/-- Between two transactions no call waits in `ANSWERED`. -/
structure Settled (c : CallRow) : Prop extends Sound c where
  not_answered : c.state ≠ .ANSWERED

/-- A later image of the same call: its identity stays, a reference once given stays, and a
    terminal row stays as it is. -/
structure Evolves (c c' : CallRow) : Prop where
  campaign_id : c'.campaign_id = c.campaign_id
  agent_id : c'.agent_id = c.agent_id
  borrower_id : c'.borrower_id = c.borrower_id
  attempt_no : c'.attempt_no = c.attempt_no
  idempotency_key : c'.idempotency_key = c.idempotency_key
  ref : c.provider_call_id.isSome = true → c'.provider_call_id = c.provider_call_id
  terminal : c.state.isTerminal = true → c' = c

/-- A row that was not written is still an image of the same call. -/
theorem Evolves.refl (c : CallRow) : c.Evolves c :=
  ⟨rfl, rfl, rfl, rfl, rfl, fun _ => rfl, fun _ => rfl⟩

/-- Images of a call are compared across any number of writes. -/
theorem Evolves.trans {c₁ c₂ c₃ : CallRow} (h₁ : c₁.Evolves c₂) (h₂ : c₂.Evolves c₃) :
    c₁.Evolves c₃ where
  campaign_id := h₂.campaign_id.trans h₁.campaign_id
  agent_id := h₂.agent_id.trans h₁.agent_id
  borrower_id := h₂.borrower_id.trans h₁.borrower_id
  attempt_no := h₂.attempt_no.trans h₁.attempt_no
  idempotency_key := h₂.idempotency_key.trans h₁.idempotency_key
  ref := fun h => (h₂.ref (by rw [h₁.ref h]; exact h)).trans (h₁.ref h)
  terminal := fun h => by
    have h₁₂ := h₁.terminal h
    rw [h₁₂] at h₂
    exact h₂.terminal h

/-- A settled call that has no terminal timestamp is live. -/
theorem Ok.terminal_at_none {c : CallRow} (h : c.Ok) :
    c.terminal_at = none ↔ c.state.isTerminal = false := by
  rw [← Option.not_isSome_iff_eq_none, h.terminal_iff, Bool.not_eq_true]

end CallRow

/-! ### Statements -/

/-- A state with a legal successor is not terminal. -/
theorem live_of_edge {s t : CallState} (h : t ∈ legalNext s) : s.isTerminal = false := by
  cases hs : s.isTerminal with
  | false => rfl
  | true => rw [legalNext_of_isTerminal hs] at h; cases h

/-- Dialed states and the states that a drain applies: the rank decides the legality. -/
theorem legalNext_of_rank {s t : CallState} (hq : s ≠ .QUEUED) (hr : s ≠ .RESERVED)
    (ha : s ≠ .ANSWERED) (ht : t = .RINGING ∨ t = .ANSWERED ∨ t.isTerminal = true)
    (h : rank s < rank t) : t ∈ legalNext s := by
  cases s <;> cases t <;> simp_all [CallState.isTerminal, rank, terminalRank, legalNext, terminal]

namespace CallRepo

/-- An advanced row agrees with its new state. -/
theorem ok_advancedRow {c : CallRow} (h : c.Ok) {state : CallState} (hs : state ∈ legalNext c.state)
    (now : Time) (pcid : Option String) (lease_until : Option Time) (reason : Option String) :
    (advancedRow now state pcid lease_until reason c).Ok where
  rank_eq := rfl
  terminal_iff := by
    have hnone := h.terminal_at_none.mpr (live_of_edge hs)
    simp only [advancedRow, hnone]
    cases state <;> simp [rank, CallState.isTerminal, terminalRank]

/-- A row advanced along an edge is sound, provided a call that is dialed gets a reference. -/
theorem sound_advancedRow {c : CallRow} (h : c.Sound) {state : CallState}
    (hs : state ∈ legalNext c.state) (now : Time) (pcid : Option String)
    (lease_until : Option Time) (reason : Option String)
    (hp : state = .INITIATED → pcid.isSome = true) :
    (advancedRow now state pcid lease_until reason c).Sound where
  toOk := ok_advancedRow h.toOk hs now pcid lease_until reason
  not_queued := by
    rintro rfl
    cases hc : c.state <;> rw [hc] at hs <;> revert hs <;> decide
  dialed := by
    intro _ hr
    change state = .RESERVED at hr
    subst hr
    exact h.not_queued (by cases hc : c.state <;> rw [hc] at hs <;> revert hs <;> decide)
  undialed := by
    -- without a reference before and after, the edge leaves `RESERVED` for a terminal state
    intro hnone
    change c.provider_call_id.or pcid = none at hnone
    rw [Option.or_eq_none_iff] at hnone
    rcases h.undialed hnone.1 with hr | ht
    · rw [hr] at hs
      rcases List.mem_cons.mp hs with rfl | hterm
      · rw [hnone.2] at hp
        exact absurd (hp rfl) (by decide)
      · exact Or.inr (mem_terminal.mp hterm)
    · rw [live_of_edge hs] at ht
      cases ht
  agent := h.agent

/-- `ADVANCE` along a legal edge leaves a settled row, unless it stops in `ANSWERED`. -/
theorem settled_advancedRow {c : CallRow} (h : c.Sound) {state : CallState}
    (hs : state ∈ legalNext c.state) (hna : state ≠ .ANSWERED) (now : Time) (pcid : Option String)
    (lease_until : Option Time) (reason : Option String)
    (hp : state = .INITIATED → pcid.isSome = true) :
    (advancedRow now state pcid lease_until reason c).Settled :=
  ⟨sound_advancedRow h hs now pcid lease_until reason hp, hna⟩

/-- `ADVANCE` never writes to a call that has ended, since no edge leads out of a terminal state. -/
theorem evolves_advancedRow {c : CallRow} {state : CallState} (hs : state ∈ legalNext c.state)
    (now : Time) (pcid : Option String) (lease_until : Option Time) (reason : Option String) :
    c.Evolves (advancedRow now state pcid lease_until reason c) where
  campaign_id := rfl
  agent_id := rfl
  borrower_id := rfl
  attempt_no := rfl
  idempotency_key := rfl
  ref := fun h => Option.or_of_isSome h
  terminal := fun ht => by rw [live_of_edge hs] at ht; cases ht

/-- A call that ends without an event: a settled row with a terminal state and its columns. -/
private theorem settled_of_ended {c c' : CallRow} (h : c.Settled) (hs : c'.state.isTerminal = true)
    (hrank : c'.state_rank = 6) (ht : c'.terminal_at.isSome = true)
    (hagent : c'.agent_id = c.agent_id) : c'.Settled where
  rank_eq := by
    rw [hrank]
    have := isTerminal_iff.mp hs
    have := rank_le_terminalRank c'.state
    unfold terminalRank at this
    omega
  terminal_iff := by rw [ht, hs]
  not_queued := fun h => by rw [h] at hs; exact absurd hs (by decide)
  not_answered := fun h => by rw [h] at hs; exact absurd hs (by decide)
  dialed := fun _ h => by rw [h] at hs; exact absurd hs (by decide)
  undialed := fun _ => Or.inr hs
  agent := by rw [hagent]; exact h.agent

/-- Cancelling a call keeps its columns in line with its state. -/
theorem settled_cancelledRow {c : CallRow} (h : c.Settled) (now : Time) (reason : String) :
    (cancelledRow now reason c).Settled := settled_of_ended h rfl rfl rfl rfl

/-- The row that a call starts from is settled. -/
theorem settled_createdRow (now : Time) (campaign_id agent_id borrower_id : ℕ) (provider : String)
    (attempt_no : ℕ) (idem worker : String) (lease_until : Time) :
    (createdRow now campaign_id agent_id borrower_id provider attempt_no idem worker
      lease_until).Settled where
  rank_eq := rfl
  terminal_iff := by simp [createdRow, CallState.isTerminal, rank, terminalRank]
  not_queued := by simp [createdRow]
  not_answered := by simp [createdRow]
  dialed := fun h => by cases h
  undialed := fun _ => Or.inl rfl
  agent := rfl

/-- A live call that is cancelled is still the same call. -/
theorem evolves_cancelledRow {c : CallRow} (hl : c.state.isTerminal = false) (now : Time)
    (reason : String) : c.Evolves (cancelledRow now reason c) :=
  ⟨rfl, rfl, rfl, rfl, rfl, fun _ => rfl, fun ht => by rw [hl] at ht; cases ht⟩

end CallRepo

/-- Failing an orphan keeps its columns in line with its state. -/
theorem settled_orphanedRow {c : CallRow} (h : c.Settled) (now : Time) :
    (orphanedRow now c).Settled := CallRepo.settled_of_ended h rfl rfl rfl rfl

/-- A live call that is failed as an orphan is still the same call. -/
theorem evolves_orphanedRow {c : CallRow} (hl : c.state.isTerminal = false) (now : Time) :
    c.Evolves (orphanedRow now c) :=
  ⟨rfl, rfl, rfl, rfl, rfl, fun _ => rfl, fun ht => by rw [hl] at ht; cases ht⟩

/-- A call that counts as ringing has not ended. -/
theorem live_of_isRinging {s : CallState} (h : s.isRinging = true) : s.isTerminal = false := by
  cases s <;> revert h <;> decide

/-- A call that counts as ringing has been dialed. -/
theorem ne_reserved_of_isRinging {s : CallState} (h : s.isRinging = true) : s ≠ .RESERVED := by
  cases s <;> revert h <;> decide

/-- An orphan is a live call. -/
theorem live_of_isOrphan {c : CallRow} {now_ts : Time} (h : isOrphan now_ts c = true) :
    c.state.isTerminal = false := by
  unfold isOrphan at h
  simp only [Bool.and_eq_true, Bool.or_eq_true, beq_iff_eq] at h
  rcases h.2 with (hs | hs) | hs <;> rw [hs] <;> rfl

end SmartDialer
