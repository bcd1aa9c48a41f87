import Mathlib.Data.List.TakeWhile
import Mathlib.Algebra.Order.Field.Rat
import Mathlib.Tactic.Linarith
import Mathlib.Tactic.FieldSimp

namespace Relational

/-!
# Sliding windows

A window keeps the end of a log: entries are appended at its back and dropped from its front once
they are old, and only now and then.  `Window old t log kept` says that nothing else was dropped
than what is old at `t`.  On a log whose entries grow old in order, dropping the old ones from the
front is filtering (`Window.dropWhile_eq_filter`), however irregularly that was done before.

`fraction p l` is the part of a list that satisfies `p`.  Entries that should not be in a list make
no difference to it just if it is the same for them (`fraction_append_eq_right_iff`).
-/

variable {α τ : Type} {old : τ → α → Bool}

/-- `kept` is an end of the log, and all before it is old at `t`. -/
def Window (old : τ → α → Bool) (t : τ) (log kept : List α) : Prop :=
  ∃ gone, log = gone ++ kept ∧ ∀ a ∈ gone, old t a

namespace Window

variable {t t' : τ} {log kept : List α}

/-- A log that was never cut is its own window. -/
theorem refl (t : τ) (log : List α) : Window old t log log := ⟨[], rfl, by simp⟩

/-- What is old stays old. -/
theorem later (h : Window old t log kept) (hold : ∀ a, old t a → old t' a) :
    Window old t' log kept := by
  obtain ⟨gone, hlog, hgone⟩ := h
  exact ⟨gone, hlog, fun a ha => hold a (hgone a ha)⟩

/-- A new entry comes into the window and into the log at the same end. -/
theorem append (h : Window old t log kept) (new : List α) :
    Window old t (log ++ new) (kept ++ new) := by
  obtain ⟨gone, rfl, hgone⟩ := h
  exact ⟨gone, List.append_assoc gone kept new, hgone⟩

/-- Dropping what is old from the front leaves a window: what was dropped before is old, too. -/
theorem dropWhile (h : Window old t log kept) : Window old t log (kept.dropWhile (old t)) := by
  obtain ⟨gone, rfl, hgone⟩ := h
  refine ⟨gone ++ kept.takeWhile (old t), ?_, fun a ha => ?_⟩
  · rw [List.append_assoc, List.takeWhile_append_dropWhile]
  · rcases List.mem_append.mp ha with ha | ha
    · exact hgone a ha
    · exact List.mem_takeWhile_imp ha

end Window

/-- Where the entries grow old in order, the front holds all the old ones. -/
theorem dropWhile_eq_filter {p : α → Bool} {l : List α} (h : l.Pairwise fun a b => p b → p a) :
    l.dropWhile p = l.filter fun a => !p a := by
  induction l with
  | nil => rfl
  | cons a l ih =>
    obtain ⟨hhead, htail⟩ := List.pairwise_cons.mp h
    by_cases ha : p a
    · rw [List.dropWhile_cons_of_pos ha, ih htail, List.filter_cons_of_neg (by simp [ha])]
    · -- the first entry that is not old shields the ones behind it
      rw [List.dropWhile_cons_of_neg ha, eq_comm, List.filter_eq_self]
      intro b hb
      rcases List.mem_cons.mp hb with rfl | hb
      · simp [ha]
      · have hpb : ¬ p b := fun hpb => ha (hhead b hb hpb)
        simp [hpb]

/-- A trimmed window holds exactly the entries of the log that are not old. -/
theorem Window.dropWhile_eq_filter {t : τ} {log kept : List α} (h : Window old t log kept)
    (hsorted : log.Pairwise fun a b => old t b → old t a) :
    kept.dropWhile (old t) = log.filter fun a => !old t a := by
  obtain ⟨gone, rfl, hgone⟩ := h
  have hnone : (gone.filter fun a => !old t a) = [] := by
    rw [List.filter_eq_nil_iff]
    intro a ha
    simp [hgone a ha]
  rw [Relational.dropWhile_eq_filter (List.pairwise_append.mp hsorted).2.1, List.filter_append,
    hnone, List.nil_append]

/-! ### Fractions -/

/-- The fraction of the entries that satisfy `p`; it is 0 if there are none. -/
def fraction (p : α → Bool) (l : List α) : ℚ := l.countP p / l.length

section

variable {p : α → Bool} {k l : List α}

/-- By convention an empty window has the share zero. -/
@[simp] theorem fraction_nil (p : α → Bool) : fraction p [] = 0 := by simp [fraction]

/-- The share is zero when no entry counts, an empty window included. -/
theorem fraction_eq_zero_iff : fraction p l = 0 ↔ ∀ a ∈ l, ¬ p a := by
  unfold fraction
  cases l with
  | nil => simp
  | cons a l =>
    rw [div_eq_zero_iff, Nat.cast_eq_zero, Nat.cast_eq_zero, List.countP_eq_zero]
    simp

/-- A share is at most one. -/
theorem fraction_le_one : fraction p l ≤ 1 :=
  div_le_one_of_le₀ (by exact_mod_cast List.countP_le_length) (Nat.cast_nonneg _)

/-- The order of the entries does not matter. -/
theorem fraction_perm (h : k.Perm l) : fraction p k = fraction p l := by
  unfold fraction
  rw [h.countP_eq, h.length_eq]

/-- More entries leave the fraction as it is just if it is the same among them. -/
theorem fraction_append_eq_right_iff :
    fraction p (k ++ l) = fraction p l ↔ (k ≠ [] → fraction p k = fraction p l) := by
  by_cases hk : k = []
  · simp [hk]
  by_cases hl : l = []
  · simp [hk, hl]
  have hn : (k.length : ℚ) ≠ 0 := by simpa using hk
  have hm : (l.length : ℚ) ≠ 0 := by simpa using hl
  have hsum : (k.length : ℚ) + l.length ≠ 0 := by positivity
  unfold fraction
  rw [List.countP_append, List.length_append]
  push_cast
  rw [div_eq_div_iff hsum hm, imp_iff_right hk, div_eq_div_iff hn hm]
  constructor <;> intro h <;> linarith

/-- The fraction of a list in terms of its two parts. -/
theorem fraction_filter (q : α → Bool) :
    fraction p l = fraction p (l.filter (fun a => !q a) ++ l.filter q) :=
  fraction_perm (List.perm_append_comm.trans (List.filter_append_perm q l)).symm

end

end Relational
