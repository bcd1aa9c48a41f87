import Mathlib.Data.List.Basic

namespace Relational

/-!
# Exchanged neighbours

`Exchanged l l'` says that `l'` is `l` with some disjoint pairs of neighbours exchanged: what a
buffer makes of a sequence that holds an entry back, at most, until the next one has passed.

* `Exchanged.perm` — nothing is lost and nothing added.
* `Exchanged.displacement` — and no entry is more than one place away from where it was.
-/

variable {α : Type}

/-- The same list, but for exchanges of neighbours in places that do not overlap: no element moves
    further than by one. -/
inductive Exchanged : List α → List α → Prop where
  | nil : Exchanged [] []
  | keep {l l' : List α} (a : α) (h : Exchanged l l') : Exchanged (a :: l) (a :: l')
  | swap {l l' : List α} (a b : α) (h : Exchanged l l') : Exchanged (a :: b :: l) (b :: a :: l')

namespace Exchanged

variable {l l' k k' : List α}

/-- Nothing need be exchanged. -/
theorem refl (l : List α) : Exchanged l l := by
  induction l with
  | nil => exact .nil
  | cons a l ih => exact .keep a ih

/-- Exchanges in two pieces of a list do not meet, so they are exchanges in the whole. -/
theorem append (hk : Exchanged k k') (hl : Exchanged l l') : Exchanged (k ++ l) (k' ++ l') := by
  induction hk with
  | nil => exact hl
  | keep a _ ih => exact .keep a ih
  | swap a b _ ih => exact .swap a b ih

/-- Nothing is lost or doubled by exchanges. -/
theorem perm (h : Exchanged l l') : l'.Perm l := by
  induction h with
  | nil => exact .refl []
  | keep a _ ih => exact ih.cons a
  | swap a b _ ih => exact (List.Perm.swap a b _).trans ((ih.cons b).cons a)

/-- Positions in a list behind one entry that stays. -/
def keepFirst (σ : ℕ → ℕ) : ℕ → ℕ
  | 0 => 0
  | i + 1 => σ i + 1

/-- Positions in a list behind two entries that are exchanged. -/
def swapFirst (σ : ℕ → ℕ) : ℕ → ℕ
  | 0 => 1
  | 1 => 0
  | i + 2 => σ i + 2

/-- The positions are exchanged with neighbouring ones, two by two. -/
theorem displacement (h : Exchanged l l') :
    ∃ σ : ℕ → ℕ, (∀ i, σ (σ i) = i) ∧ (∀ i, σ i ≤ i + 1 ∧ i ≤ σ i + 1) ∧
      ∀ i, l'[i]? = l[σ i]? := by
  induction h with
  | nil => exact ⟨id, fun _ => rfl, fun i => by simp, fun _ => rfl⟩
  | keep a _ ih =>
    obtain ⟨σ, hinv, hnear, hget⟩ := ih
    refine ⟨keepFirst σ, fun i => ?_, fun i => ?_, fun i => ?_⟩ <;> rcases i with _ | i
    · rfl
    · exact congrArg (· + 1) (hinv i)
    · simp [keepFirst]
    · have := hnear i
      simp only [keepFirst]
      omega
    · rfl
    · simp [keepFirst, hget]
  | swap a b _ ih =>
    obtain ⟨σ, hinv, hnear, hget⟩ := ih
    refine ⟨swapFirst σ, fun i => ?_, fun i => ?_, fun i => ?_⟩ <;> rcases i with _ | _ | i
    · rfl
    · rfl
    · exact congrArg (· + 2) (hinv i)
    · simp [swapFirst]
    · simp [swapFirst]
    · have := hnear i
      simp only [swapFirst]
      omega
    · rfl
    · rfl
    · simp [swapFirst, hget]

end Exchanged

end Relational
