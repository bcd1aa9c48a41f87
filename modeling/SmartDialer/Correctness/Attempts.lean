import SmartDialer.Correctness.Moves

namespace SmartDialer

open Relational

/-!
# Attempts and their calls

An attempt that is still to run its second transaction remembers the agent, the borrower and the
call of the first one.  `Floor.Attends` says that this memory is right, and what state the call can
be in by now:

* `Floor.Attempted` — reserved, or ended by the reaper meanwhile; this holds in every run;
* `Floor.Prompt` — still reserved, as long as the reaper fails no call with such an attempt.
-/

/-- Every attempt in flight has its call, for its agent and borrower, in a state in `Q`. -/
def Floor.Attends (Q : CallState → Prop) (F : Floor) : Prop :=
  ∀ i att, F.attempts.get? i = some att → att.reservation.call_id = i ∧
    ∃ c, F.calls.get? i = some c ∧ c.agent_id = some att.reservation.agent_id ∧
      c.borrower_id = att.reservation.borrower_id ∧ Q c.state

/-- The call of an attempt is reserved, or has ended. -/
def Floor.Attempted (F : Floor) : Prop := F.Attends fun s => s = .RESERVED ∨ s.isTerminal = true

/-- The call of an attempt is reserved. -/
def Floor.Prompt (F : Floor) : Prop := F.Attends fun s => s = .RESERVED

/-- No attempt in flight is for this call. -/
def Floor.Unattended (F : Floor) (call_id : ℕ) : Prop :=
  ∀ i att, F.attempts.get? i = some att → att.reservation.call_id ≠ call_id

namespace Floor.Attends

variable {Q : CallState → Prop} {F : Floor}

/-- The call of an attempt. -/
theorem call (h : F.Attends Q) {i : ℕ} {att : Attempt} (hatt : F.attempts.get? i = some att) :
    ∃ c, F.calls.get? att.reservation.call_id = some c ∧
      c.agent_id = some att.reservation.agent_id ∧ c.borrower_id = att.reservation.borrower_id ∧
      Q c.state := by
  obtain ⟨hid, hc⟩ := h i att hatt
  rw [hid]
  exact hc

/-- Attempts may go as long as the calls stay. -/
private theorem mono {F' : Floor} (h : F.Attends Q) (hc : F'.calls = F.calls)
    (ha : ∀ i att, F'.attempts.get? i = some att →
      ∃ att₀, F.attempts.get? i = some att₀ ∧ att.reservation = att₀.reservation) :
    F'.Attends Q := by
  intro i att hatt
  obtain ⟨att₀, hatt₀, hres⟩ := ha i att hatt
  rw [hres, hc]
  exact h i att₀ hatt₀

/-- A call may change when no attempt is for it, or when it stays in `Q`. -/
private theorem alter {F' : Floor} (h : F.Attends Q) {k : ℕ} {c : CallRow} {f : CallRow → CallRow}
    (hc : F.calls.get? k = some c) (hf : c.Evolves (f c)) (hcalls : F'.calls = F.calls.alter k f)
    (ha : ∀ i att, F'.attempts.get? i = some att → F.attempts.get? i = some att)
    (hQ : ∀ att, F'.attempts.get? k = some att → Q (f c).state) : F'.Attends Q := by
  intro i att hatt
  obtain ⟨hid, d, hd, hagent, hborrower, hs⟩ := h i att (ha i att hatt)
  refine ⟨hid, ?_⟩
  rw [hcalls, Table.get?_alter]
  by_cases hik : i = k
  · subst hik
    rw [hd, Option.some.injEq] at hc
    subst hc
    rw [if_pos rfl, hd]
    exact ⟨f d, rfl, hf.agent_id.trans hagent, hf.borrower_id.trans hborrower, hQ att hatt⟩
  · rw [if_neg hik]
    exact ⟨d, hd, hagent, hborrower, hs⟩

/-- **Step.** A move keeps the memory of the attempts right, unless it fails a call that is
    attended and `Q` is not about ended calls. -/
theorem step {F' : Floor} {m : Move} (hres : Q .RESERVED)
    (hQ : ∀ s, Q s → s = .RESERVED ∨ s.isTerminal = true)
    (horphan : ∀ i, m = .orphaned i → F.Unattended i ∨ ∀ s : CallState, s.isTerminal = true → Q s)
    (h : F.Attends Q) (hm : F.Step m F') : F'.Attends Q := by
  -- a live call that is past `RESERVED` is attended by nobody
  have hdialed : ∀ {k c}, F.calls.get? k = some c → c.state.isTerminal = false →
      c.state ≠ .RESERVED → ∀ att, F.attempts.get? k ≠ some att := by
    intro k c hc hlive hne att hatt
    obtain ⟨_, d, hd, _, _, hs⟩ := h k att hatt
    rw [hd, Option.some.injEq] at hc
    subst hc
    rcases hQ _ hs with hr | ht
    · exact hne hr
    · rw [hlive] at ht; cases ht
  -- a second transaction ends its attempt, and the other attempts are for other calls
  have herase : ∀ {k att}, F.attempts.get? k = some att →
      ∀ att', (F.attempts.erase k).get? att.reservation.call_id ≠ some att' := by
    intro k att hatt att' h'
    exact (Table.get?_of_get?_erase h').1 (h k att hatt).1
  have hsub : ∀ {k : ℕ} i att, (F.attempts.erase k).get? i = some att →
      F.attempts.get? i = some att := fun _ _ hatt => (Table.get?_of_get?_erase hatt).2
  cases hm with
  | hired | staffed | seeded | unreserved | unclaimed | reclaimed | wrapupOver | unlocked => exact h
  | allotted =>
    intro i att hatt
    rcases Table.cases_of_get?_insertAt hatt with hold | ⟨hi, rfl, _⟩
    · -- the new call has a fresh id, so no attempt was filed under it
      obtain ⟨hid, c, hc, hmem⟩ := h i att hold
      refine ⟨hid, c, ?_, hmem⟩
      rw [Table.get?_push, if_neg (Table.ne_nextId hc), hc]
    · refine ⟨hi.symm, ?_⟩
      rw [Table.get?_push, if_pos hi]
      exact ⟨_, rfl, rfl, rfl, hres⟩
  | placed =>
    refine h.mono rfl fun i att hatt => ?_
    rw [Table.get?_modify, Option.map_eq_some_iff] at hatt
    obtain ⟨att₀, hatt₀, rfl⟩ := hatt
    refine ⟨att₀, hatt₀, ?_⟩
    split <;> rfl
  | forgotten => exact h.mono rfl fun i att hatt => ⟨att, hsub i att hatt, rfl⟩
  | dialed hatt hc hs =>
    refine h.alter hc (CallRepo.evolves_advancedRow ?_ _ _ _ _) rfl hsub
      fun att' h' => absurd h' (herase hatt att')
    rw [hs]
    decide
  | dialedLate => exact h.mono rfl fun i att hatt => ⟨att, hsub i att hatt, rfl⟩
  | refused hatt hc _ hf =>
    exact h.alter hc hf rfl hsub fun att' h' => absurd h' (herase hatt att')
  | refusedLate => exact h.mono rfl fun i att hatt => ⟨att, hsub i att hatt, rfl⟩
  | rang hc hs hf =>
    exact h.alter hc hf rfl (fun _ _ ha => ha) fun att ha =>
      absurd ha (hdialed hc (by rw [hs]; rfl) (by rw [hs]; decide) att)
  | connected hc hs _ hf =>
    exact h.alter hc hf rfl (fun _ _ ha => ha) fun att ha =>
      absurd ha (hdialed hc (live_of_isRinging hs) (ne_reserved_of_isRinging hs) att)
  | ended hc hlive hdial _ hf =>
    exact h.alter hc hf rfl (fun _ _ ha => ha) fun att ha =>
      absurd ha (hdialed hc hlive hdial att)
  | orphaned hc _ _ hf hend =>
    refine h.alter hc hf rfl (fun _ _ ha => ha) fun att ha => ?_
    rcases horphan _ rfl with hnone | hterm
    · exact absurd (h _ att ha).1 (hnone _ att ha)
    · exact hterm _ hend

end Floor.Attends

/-- **Step.** The calls of the attempts in flight are reserved or have ended, whatever happens. -/
theorem Floor.Attempted.step {F F' : Floor} {m : Move} (h : F.Attempted) (hm : F.Step m F') :
    F'.Attempted :=
  Floor.Attends.step (Or.inl rfl) (fun _ hs => hs) (fun _ _ => Or.inr fun _ hs => Or.inr hs) h hm

/-- **Step.** They are reserved as long as no attended call is failed by the reaper. -/
theorem Floor.Prompt.step {F F' : Floor} {m : Move}
    (horphan : ∀ i, m = .orphaned i → F.Unattended i) (h : F.Prompt) (hm : F.Step m F') :
    F'.Prompt :=
  Floor.Attends.step rfl (fun _ hs => Or.inl hs) (fun i hi => Or.inl (horphan i hi)) h hm

/-- In a prompt floor no second transaction comes too late. -/
theorem Floor.Prompt.not_late {F F' : Floor} {m : Move} (h : F.Prompt) (hm : F.Step m F') :
    m ≠ .dialedLate ∧ ∀ att, m ≠ .refusedLate att := by
  cases hm with
  | dialedLate hatt hlate =>
    obtain ⟨c, hc, _, _, hs⟩ := Floor.Attends.call h hatt
    exact absurd hs (hlate c hc)
  | refusedLate hatt hlate =>
    obtain ⟨c, hc, _, _, hs⟩ := Floor.Attends.call h hatt
    have hterm := hlate c hc
    rw [hs] at hterm
    exact absurd hterm (by decide)
  | _ => exact ⟨(fun h => by cases h), fun _ h => by cases h⟩

end SmartDialer
