import Mathlib.Logic.Function.Basic
import Mathlib.Tactic.Common

namespace Relational

/-!
# Rosters

Two parties keep their own record of who is paired with whom, and a party of the first kind may be
away.  What it says is its `post`: nothing while it is away, and otherwise what it is busy with, if
anything.  A party of the second kind does not learn of an absence: it goes on naming its partner
(`live`), and the records agree about those who are there.

* `Roster.alter` — a pair changes; `Roster.link`, `Roster.shift` and `Roster.unlink` are its cases.
* `Roster.leave`, `Roster.come` — a party goes away, or comes back when nobody names it.
-/

variable {A C P : Type}

/-- The two records describe the same pairs, as far as the first kind is there. -/
structure Roster (post : A → Option (Option P)) (live : C → Option (A × P)) : Prop where
  /-- The partner of a live party is busy in the phase of the pair, unless it is away. -/
  agrees : ∀ c a p, live c = some (a, p) → ∀ q, post a = some q → q = some p
  /-- Nobody has two partners, not even while away. -/
  unique : ∀ c c' a p p', live c = some (a, p) → live c' = some (a, p') → c = c'
  /-- Whoever is busy has a partner. -/
  covered : ∀ a p, post a = some (some p) → ∃ c, live c = some (a, p)

namespace Roster

variable {post : A → Option (Option P)} {live : C → Option (A × P)}

/-- Nobody names a party that is there and free. -/
theorem unnamed (h : Roster post live) {a : A} (ha : post a = some none) (c : C) (p : P) :
    live c ≠ some (a, p) := by
  intro hc
  cases h.agrees c a p hc none ha

variable [DecidableEq A]

/-- A party goes away. -/
theorem leave (h : Roster post live) (a : A) : Roster (Function.update post a none) live := by
  refine ⟨fun c b p hc q hq => ?_, h.unique, fun b p hb => ?_⟩
  · by_cases hba : b = a
    · rw [hba, Function.update_self] at hq
      cases hq
    · rw [Function.update_of_ne hba] at hq
      exact h.agrees c b p hc q hq
  · by_cases hba : b = a
    · rw [hba, Function.update_self] at hb
      cases hb
    · rw [Function.update_of_ne hba] at hb
      exact h.covered b p hb

/-- A party that nobody names comes back. -/
theorem come (h : Roster post live) {a : A} (ha : ∀ c p, live c ≠ some (a, p)) :
    Roster (Function.update post a (some none)) live := by
  refine ⟨fun c b p hc q hq => ?_, h.unique, fun b p hb => ?_⟩
  · have hba : b ≠ a := fun hba => ha c p (hba ▸ hc)
    rw [Function.update_of_ne hba] at hq
    exact h.agrees c b p hc q hq
  · by_cases hba : b = a
    · rw [hba, Function.update_self] at hb
      cases hb
    · rw [Function.update_of_ne hba] at hb
      exact h.covered b p hb

variable [DecidableEq C]

/-- The records of one pair change, and nobody else names the first of them. -/
theorem alter (h : Roster post live) {a : A} {c : C} {x : Option (Option P)} {l : Option (A × P)}
    (hothers : ∀ c' p, c' ≠ c → live c' ≠ some (a, p))
    (hold : ∀ b p, live c = some (b, p) → b = a)
    (hnew : ∀ b p, l = some (b, p) → b = a ∧ ∀ q, x = some q → q = some p)
    (hbusy : ∀ p, x = some (some p) → l = some (a, p)) :
    Roster (Function.update post a x) (Function.update live c l) := by
  refine ⟨fun c' b p hc' q hq => ?_, fun c₁ c₂ b p₁ p₂ h₁ h₂ => ?_, fun b p hb => ?_⟩
  · by_cases hcc : c' = c
    · rw [hcc, Function.update_self] at hc'
      obtain ⟨rfl, hagree⟩ := hnew b p hc'
      rw [Function.update_self] at hq
      exact hagree q hq
    · rw [Function.update_of_ne hcc] at hc'
      have hba : b ≠ a := fun hba => hothers c' p hcc (hba ▸ hc')
      rw [Function.update_of_ne hba] at hq
      exact h.agrees c' b p hc' q hq
  · by_cases hc₁ : c₁ = c <;> by_cases hc₂ : c₂ = c
    · rw [hc₁, hc₂]
    · rw [hc₁, Function.update_self] at h₁
      rw [Function.update_of_ne hc₂] at h₂
      exact absurd ((hnew b p₁ h₁).1 ▸ h₂) (hothers c₂ p₂ hc₂)
    · rw [hc₂, Function.update_self] at h₂
      rw [Function.update_of_ne hc₁] at h₁
      exact absurd ((hnew b p₂ h₂).1 ▸ h₁) (hothers c₁ p₁ hc₁)
    · rw [Function.update_of_ne hc₁] at h₁
      rw [Function.update_of_ne hc₂] at h₂
      exact h.unique c₁ c₂ b p₁ p₂ h₁ h₂
  · by_cases hba : b = a
    · rw [hba, Function.update_self] at hb
      exact ⟨c, by rw [Function.update_self, hbusy p hb, hba]⟩
    · rw [Function.update_of_ne hba] at hb
      obtain ⟨c', hc'⟩ := h.covered b p hb
      have hcc : c' ≠ c := fun hcc => hba (hold b p (hcc ▸ hc'))
      exact ⟨c', by rw [Function.update_of_ne hcc, hc']⟩

/-- Two free parties are paired. -/
theorem link (h : Roster post live) {a : A} {c : C} (ha : post a = some none) (hc : live c = none)
    (p : P) :
    Roster (Function.update post a (some (some p))) (Function.update live c (some (a, p))) := by
  refine h.alter (fun c' q _ => h.unnamed ha c' q) (fun b q hb => ?_) (fun b q hb => ?_)
    fun q hq => ?_
  · rw [hc] at hb
    cases hb
  · cases hb
    exact ⟨rfl, fun _ hq => (Option.some.inj hq).symm⟩
  · cases hq
    rfl

section

variable {a : A} {c : C} {p : P} {x : Option (Option P)}

/-- A pair moves on to another phase; the first of them is there now, or there is none. -/
theorem shift (h : Roster post live) (hc : live c = some (a, p)) {q : P}
    (hx : x = none ∨ x = some (some q)) :
    Roster (Function.update post a x) (Function.update live c (some (a, q))) := by
  refine h.alter (fun c' r hne hc' => hne (h.unique c' c a r p hc' hc)) (fun b r hb => ?_)
    (fun b r hb => ?_) fun r hr => ?_
  · rw [hc] at hb
    cases hb
    rfl
  · cases hb
    refine ⟨rfl, fun r hr => ?_⟩
    rcases hx with rfl | rfl
    · cases hr
    · exact (Option.some.inj hr).symm
  · rcases hx with rfl | rfl
    · cases hr
    · cases hr
      rfl

/-- Both parties of a pair are set free; the first of them is there now, or there is none. -/
theorem unlink (h : Roster post live) (hc : live c = some (a, p))
    (hx : x = none ∨ x = some none) :
    Roster (Function.update post a x) (Function.update live c none) := by
  refine h.alter (fun c' r hne hc' => hne (h.unique c' c a r p hc' hc)) (fun b r hb => ?_)
    (fun b r hb => ?_) fun r hr => ?_
  · rw [hc] at hb
    cases hb
    rfl
  · cases hb
  · rcases hx with rfl | rfl <;> cases hr

end

end Roster

end Relational
