import Mathlib.Logic.Function.Basic
import Mathlib.Tactic.Common

namespace Relational

/-!
# Matchings

Two parties keep their own record of who is paired with whom: a party of the first kind knows
what it is `busy` with, one of the second kind knows its partner and the phase the pair is in
(`live`).  The records match when they agree about every pair, in both directions.  A matching
is changed in three ways only:

* `Matching.link` pairs two free parties;
* `Matching.shift` moves a pair on to another phase;
* `Matching.unlink` sets both parties of a pair free.
-/

variable {A C P : Type}

/-- The two records describe the same pairs, in the same phases. -/
structure Matching (busy : A → Option P) (live : C → Option (A × P)) : Prop where
  /-- The partner of a live party is busy in the phase of the pair. -/
  agrees : ∀ c a p, live c = some (a, p) → busy a = some p
  /-- Nobody has two partners. -/
  unique : ∀ c c' a p p', live c = some (a, p) → live c' = some (a, p') → c = c'
  /-- Whoever is busy has a partner. -/
  covered : ∀ a p, busy a = some p → ∃ c, live c = some (a, p)

namespace Matching

variable {busy : A → Option P} {live : C → Option (A × P)}

/-- A party that no live one names is free. -/
theorem free (h : Matching busy live) {a : A} (ha : ∀ c p, live c ≠ some (a, p)) :
    busy a = none := by
  cases hb : busy a with
  | none => rfl
  | some p =>
    obtain ⟨c, hc⟩ := h.covered a p hb
    exact absurd hc (ha c p)

variable [DecidableEq A] [DecidableEq C]

/-- A free agent and a free job are joined.  No other pair is touched, since neither of the two was
    part of one. -/
theorem link (h : Matching busy live) {a : A} {c : C} (ha : busy a = none) (hc : live c = none)
    (p : P) :
    Matching (Function.update busy a (some p)) (Function.update live c (some (a, p))) := by
  -- nobody else names the free party
  have hfree : ∀ c' q, live c' ≠ some (a, q) := by
    intro c' q hc'
    rw [h.agrees c' a q hc'] at ha
    cases ha
  constructor
  · intro c' b q hl
    by_cases hcc : c' = c
    · subst hcc
      rw [Function.update_self] at hl
      cases hl
      exact Function.update_self ..
    · rw [Function.update_of_ne hcc] at hl
      have hba : b ≠ a := fun hba => hfree c' q (hba ▸ hl)
      rw [Function.update_of_ne hba]
      exact h.agrees c' b q hl
  · intro c₁ c₂ b q₁ q₂ h₁ h₂
    by_cases hc₁ : c₁ = c <;> by_cases hc₂ : c₂ = c
    · rw [hc₁, hc₂]
    · subst hc₁
      rw [Function.update_self] at h₁
      rw [Function.update_of_ne hc₂] at h₂
      cases h₁
      exact absurd h₂ (hfree c₂ q₂)
    · subst hc₂
      rw [Function.update_self] at h₂
      rw [Function.update_of_ne hc₁] at h₁
      cases h₂
      exact absurd h₁ (hfree c₁ q₁)
    · rw [Function.update_of_ne hc₁] at h₁
      rw [Function.update_of_ne hc₂] at h₂
      exact h.unique c₁ c₂ b q₁ q₂ h₁ h₂
  · intro b q hb
    by_cases hba : b = a
    · subst hba
      rw [Function.update_self] at hb
      cases hb
      exact ⟨c, Function.update_self ..⟩
    · rw [Function.update_of_ne hba] at hb
      obtain ⟨c', hc'⟩ := h.covered b q hb
      have hcc : c' ≠ c := by
        rintro rfl
        rw [hc] at hc'
        cases hc'
      exact ⟨c', by rw [Function.update_of_ne hcc, hc']⟩

/-- A pair is parted, from the side of the job: the matching tells which agent to set free. -/
theorem unlink (h : Matching busy live) {a : A} {c : C} {p : P} (hc : live c = some (a, p)) :
    Matching (Function.update busy a none) (Function.update live c none) := by
  constructor
  · intro c' b q hl
    by_cases hcc : c' = c
    · subst hcc
      rw [Function.update_self] at hl
      cases hl
    · rw [Function.update_of_ne hcc] at hl
      have hba : b ≠ a := fun hba => hcc (h.unique c' c a q p (hba ▸ hl) hc)
      rw [Function.update_of_ne hba]
      exact h.agrees c' b q hl
  · intro c₁ c₂ b q₁ q₂ h₁ h₂
    by_cases hc₁ : c₁ = c
    · subst hc₁; rw [Function.update_self] at h₁; cases h₁
    by_cases hc₂ : c₂ = c
    · subst hc₂; rw [Function.update_self] at h₂; cases h₂
    rw [Function.update_of_ne hc₁] at h₁
    rw [Function.update_of_ne hc₂] at h₂
    exact h.unique c₁ c₂ b q₁ q₂ h₁ h₂
  · intro b q hb
    by_cases hba : b = a
    · subst hba; rw [Function.update_self] at hb; cases hb
    · rw [Function.update_of_ne hba] at hb
      obtain ⟨c', hc'⟩ := h.covered b q hb
      have hcc : c' ≠ c := by
        rintro rfl
        rw [hc] at hc'
        cases hc'
        exact hba rfl
      exact ⟨c', by rw [Function.update_of_ne hcc, hc']⟩

/-- A pair goes on to another phase on both sides at once. -/
theorem shift (h : Matching busy live) {a : A} {c : C} {p : P} (hc : live c = some (a, p)) (q : P) :
    Matching (Function.update busy a (some q)) (Function.update live c (some (a, q))) := by
  have hlink := (h.unlink hc).link (Function.update_self ..) (Function.update_self ..) q
  rwa [Function.update_idem, Function.update_idem] at hlink

end Matching

end Relational
