import SmartDialer.Correctness.Trip

namespace SmartDialer

open Numeric Relational

/-!
# The probes of a half-open breaker

`half_open_probes` is what the answer of a half-open breaker is compared with, but `probes` counts
the results that were recorded, not the questions that were answered with yes.  Until a failed
result, or as many good ones as the bound, every question is:

* `admitted_eq_asked` — so the number of calls that are let through is that of the questions;
* `admitted_le_iff` — and it is within the bound just if the questions are.
-/

namespace CircuitBreaker

variable (fl : Rounding)

/-- One for a question that is answered with yes. -/
def yes (b : CircuitBreaker) (c : ℚ × Call) : ℕ :=
  match c.2 with
  | .allow => (b.allow fl c.1).1.toNat
  | .record _ => 0

/-- The questions answered with yes while the breaker is half-open. -/
def admitted (b : CircuitBreaker) : List (ℚ × Call) → ℕ
  | [] => 0
  | c :: calls =>
    if b.state = .half_open then b.yes fl c + admitted (b.call fl c) calls else 0

/-- The questions before the first failed result, or before the result number `quota`. -/
def asked (quota : ℤ) : List (ℚ × Call) → ℕ
  | [] => 0
  | (_, .allow) :: calls => asked quota calls + 1
  | (_, .record ok) :: calls => if ok = false ∨ quota ≤ 1 then 0 else asked (quota - 1) calls

variable {fl} {b : CircuitBreaker} {now : ℚ}

/-- Outside half-open no probe is let through. -/
theorem admitted_of_ne (h : b.state ≠ .half_open) (calls : List (ℚ × Call)) :
    b.admitted fl calls = 0 := by
  cases calls with
  | nil => rfl
  | cons c calls => exact if_neg h

/-- A half-open breaker answers by the results it has seen, and is left as it is. -/
theorem allow_of_half_open (h : b.state = .half_open) :
    b.allow fl now = (decide (b.probes < b.half_open_probes), b) := by
  unfold allow
  rw [h]

/-- Leaving open is answered with yes. -/
theorem allow_leaves_open (h : b.state = .open) (hnext : (b.allow fl now).2.state = .half_open) :
    b.allow fl now = (true, { b with state := .half_open, probes := 0 }) := by
  unfold allow at hnext ⊢
  simp only [h] at hnext ⊢
  split
  · rfl
  · rename_i hnow
    rw [if_neg hnow, h] at hnext
    cases hnext

/-- A result either ends the half-open state or uses up one of the probes. -/
theorem record_half_open_cases (fl : Rounding) (h : b.state = .half_open) (now : ℚ) (ok : Bool) :
    ((ok = false ∨ b.half_open_probes - b.probes ≤ 1) ∧
        (b.record fl now ok).state ≠ .half_open) ∨
      (¬ (ok = false ∨ b.half_open_probes - b.probes ≤ 1) ∧
        (b.record fl now ok).state = .half_open ∧
        (b.record fl now ok).half_open_probes = b.half_open_probes ∧
        (b.record fl now ok).probes = b.probes + 1) := by
  rw [record_of_half_open h]
  split
  · rename_i hok
    exact Or.inl ⟨Or.inl hok, BreakerState.noConfusion⟩
  · rename_i hok
    split
    · rename_i hlast
      refine Or.inl ⟨Or.inr (by omega), BreakerState.noConfusion⟩
    · rename_i hmore
      refine Or.inr ⟨?_, h, rfl, rfl⟩
      rintro (hfail | hquota)
      · exact hok hfail
      · omega

/-- **All questions are answered with yes** as long as the breaker is half-open. -/
theorem admitted_eq_asked (fl : Rounding) (h : b.state = .half_open)
    (hquota : b.probes < b.half_open_probes) (calls : List (ℚ × Call)) :
    b.admitted fl calls = asked (b.half_open_probes - b.probes) calls := by
  induction calls generalizing b with
  | nil => rfl
  | cons c calls ih =>
    obtain ⟨t, kind⟩ := c
    unfold admitted
    rw [if_pos h]
    cases kind with
    | allow =>
      have hsame : b.call fl (t, .allow) = b := by
        show (b.allow fl t).2 = b
        rw [allow_of_half_open h]
      have hyes : b.yes fl (t, .allow) = 1 := by
        show (b.allow fl t).1.toNat = 1
        rw [allow_of_half_open h, decide_eq_true hquota]
        rfl
      rw [hsame, hyes, ih h hquota, asked]
      omega
    | record ok =>
      show 0 + admitted fl (b.record fl t ok) calls = _
      rcases record_half_open_cases fl h t ok with
        ⟨hend, hstate⟩ | ⟨hmore, hstate, hbound, hprobes⟩
      · rw [asked, if_pos hend, admitted_of_ne hstate]
      · -- one probe less is left, and at least one
        rw [asked, if_neg hmore, ih hstate (by omega), hbound, hprobes, Nat.zero_add]
        congr 1
        omega

/-- Neither question nor result changes the parameter. -/
theorem call_half_open_probes (c : ℚ × Call) :
    (b.call fl c).half_open_probes = b.half_open_probes := by
  obtain ⟨t, kind⟩ := c
  cases kind with
  | allow =>
    show (b.allow fl t).2.half_open_probes = _
    unfold allow
    split
    · split <;> rfl
    · rfl
    · rfl
  | record ok =>
    show (b.record fl t ok).half_open_probes = _
    cases hs : b.state with
    | closed =>
      rw [record_of_closed hs]
      split <;> rfl
    | «open» =>
      rw [record_of_open hs]
      rfl
    | half_open =>
      rw [record_of_half_open hs]
      split
      · rfl
      · split <;> rfl

/-- The parameter is that of the start after any number of calls. -/
theorem run_half_open_probes (b : CircuitBreaker) (calls : List (ℚ × Call)) :
    (run (call fl) b calls).half_open_probes = b.half_open_probes := by
  apply invariant_run (I := fun b' : CircuitBreaker =>
    b'.half_open_probes = b.half_open_probes) _ rfl calls
  intro b' c h
  rw [call_half_open_probes, h]

/-- **Probes.** Whenever a breaker leaves open, at any time and after any calls: until it is closed
    or open again it lets no more than `half_open_probes` calls through exactly if it is not asked
    more often, the question that made it half-open included, before the first failed result or the
    last one it waits for.  Probes are counted when their results are recorded, not when they are
    let through, so questions asked in between are all granted. -/
theorem admitted_le_iff (fl : Rounding) (window_s threshold : ℚ) (min_calls : ℤ) (cooldown_s : ℚ)
    (half_open_probes : ℤ) (calls : List (ℚ × Call)) (now : ℚ) (more : List (ℚ × Call)) :
    let b := run (call fl) (new window_s threshold min_calls cooldown_s half_open_probes) calls
    b.state = .open → (b.allow fl now).2.state = .half_open →
      (((b.yes fl (now, .allow) + admitted fl (b.allow fl now).2 more : ℕ) : ℤ)
          ≤ half_open_probes ↔ 1 + (asked half_open_probes more : ℤ) ≤ half_open_probes) := by
  intro b hopen hhalf
  have hbound : b.half_open_probes = half_open_probes := run_half_open_probes _ _
  have hallow := allow_leaves_open hopen hhalf
  have hyes : b.yes fl (now, .allow) = 1 := by
    show (b.allow fl now).1.toNat = 1
    rw [hallow]
    rfl
  rw [hyes, hallow]
  by_cases hpos : 0 < half_open_probes
  · have hadmitted := admitted_eq_asked fl (b := { b with state := .half_open, probes := 0 }) rfl
      (hbound ▸ hpos) more
    rw [hadmitted]
    show ((1 + asked (b.half_open_probes - 0) more : ℕ) : ℤ) ≤ _ ↔ _
    rw [hbound, sub_zero]
    push_cast
    exact Iff.rfl
  · -- the first probe is one too many already
    constructor <;> intro hle <;> omega

/-- Twenty failures at once. -/
def outage : List (ℚ × Call) := List.replicate 20 (0, .record false)

/-- Three questions and then three good results. -/
theorem admitted_le_iff_three :
    let b := run (call .exact) default outage
    let more : List (ℚ × Call) := [(16, .allow), (17, .allow), (18, .record true),
      (18, .record true), (18, .record true), (19, .allow)]
    ((b.yes .exact (16, .allow) + admitted .exact (b.allow .exact 16).2 more : ℕ) : ℤ) ≤ 3 :=
  (admitted_le_iff .exact 10 (1 / 4) 10 15 3 outage 16 _ (by decide +kernel)
    (by decide +kernel)).mpr (by decide +kernel)

/-- Five allocations ask before the first of them has a result, and all are let through. -/
theorem admitted_exceeds :
    let b := run (call .exact) default outage
    let more : List (ℚ × Call) := List.replicate 4 (16, .allow)
    b.state = .open ∧ (b.allow .exact 16).2.state = .half_open ∧ b.half_open_probes = 3 ∧
      ¬ ((b.yes .exact (16, .allow) + admitted .exact (b.allow .exact 16).2 more : ℕ) : ℤ)
        ≤ b.half_open_probes := by
  decide +kernel

end CircuitBreaker

end SmartDialer
