import SmartDialer.Lib.Run
import Mathlib.Data.List.Sort

namespace Relational

/-!
# Agendas

A priority queue over a linear order of keys, as the list of its entries with the least one first.
Entries are taken from the front; `push` adds one.  Keys are not repeated, so the order of the
entries is strict, and what has been taken and what is left form one list that stays in order.

* `pairwise_push`: pushing a fresh key keeps the order.
* `pairwise_append_push`: also behind a prefix of entries that came before.

The last part is about systems that work an agenda off.  `spent_run`: where every step costs one
unit of a measure, and new work pays for itself, the measure is used up after enough steps.
-/

section

variable {α K : Type} [LinearOrder K] (κ : α → K)

/-- A new entry, put behind all that have a smaller key. -/
def push (a : α) (q : List α) : List α := q.orderedInsert (fun a b => κ a ≤ κ b) a

variable {κ} {a : α} {q : List α}

/-- Wherever the new entry goes, the agenda has what it had and the entry. -/
theorem push_perm : (push κ a q).Perm (a :: q) := List.perm_orderedInsert _ a q

/-- An entry is on the agenda after a push if it was before, or is the new one. -/
@[simp] theorem mem_push {b : α} : b ∈ push κ a q ↔ b = a ∨ b ∈ q := List.mem_orderedInsert _

/-- A push makes the agenda longer by one, also when an equal entry is there. -/
@[simp] theorem length_push : (push κ a q).length = q.length + 1 := push_perm.length_eq

/-- Pushing a fresh key keeps the order. -/
theorem pairwise_push (hq : q.Pairwise fun a b => κ a < κ b) (hfresh : ∀ b ∈ q, κ b ≠ κ a) :
    (push κ a q).Pairwise fun a b => κ a < κ b := by
  induction q with
  | nil => exact List.pairwise_singleton _ a
  | cons b q ih =>
    obtain ⟨hb, hq⟩ := List.pairwise_cons.mp hq
    have hne : κ b ≠ κ a := hfresh b (by simp)
    unfold push
    rw [List.orderedInsert_cons]
    split
    · rename_i hle
      have hlt : κ a < κ b := lt_of_le_of_ne hle hne.symm
      refine List.pairwise_cons.mpr ⟨fun c hc => ?_, List.pairwise_cons.mpr ⟨hb, hq⟩⟩
      obtain rfl | hc := List.mem_cons.mp hc
      · exact hlt
      · exact hlt.trans (hb c hc)
    · rename_i hle
      refine List.pairwise_cons.mpr ⟨fun c hc => ?_, ih hq fun c hc => hfresh c (by simp [hc])⟩
      obtain rfl | hc := mem_push.mp hc
      · exact not_le.mp hle
      · exact hb c hc

/-- The same behind a prefix of entries that came before. -/
theorem pairwise_append_push {past : List α} (h : (past ++ q).Pairwise fun a b => κ a < κ b)
    (hpast : ∀ b ∈ past, κ b < κ a) (hfresh : ∀ b ∈ q, κ b ≠ κ a) :
    (past ++ push κ a q).Pairwise fun a b => κ a < κ b := by
  obtain ⟨hp, hq, hcross⟩ := List.pairwise_append.mp h
  refine List.pairwise_append.mpr ⟨hp, pairwise_push hq hfresh, fun b hb c hc => ?_⟩
  obtain rfl | hc := mem_push.mp hc
  · exact hpast b hb
  · exact hcross b hb c hc

end

/-! ### Working off -/

/-- **Progress.** The measure `μ` is used up after enough steps.  Every step lowers it by one, but
    may raise it by `k` for each unit that it adds to `β`. -/
theorem spent_run {σ α : Type} {step : σ → α → σ} {I : σ → Prop} {μ β : σ → ℕ} {k : ℕ}
    (hI : ∀ s a, I s → I (step s a))
    (hstep : ∀ s a, I s → μ s ≠ 0 → μ (step s a) + 1 + k * β s ≤ μ s + k * β (step s a))
    (hrest : ∀ s a, I s → μ s = 0 → μ (step s a) = 0) {s : σ} (hs : I s) (acts : List α)
    (hlen : μ s + k * β (run step s acts) ≤ acts.length + k * β s) : μ (run step s acts) = 0 := by
  induction acts generalizing s with
  | nil =>
    rw [run_nil, List.length_nil] at hlen
    rw [run_nil]
    omega
  | cons a acts ih =>
    by_cases hμ : μ s = 0
    · -- nothing is left to do, and nothing new comes
      exact (invariant_run (I := fun s => I s ∧ μ s = 0)
        (fun s b h => ⟨hI s b h.1, hrest s b h.1 h.2⟩) ⟨hs, hμ⟩ (a :: acts)).2
    · rw [run_cons] at hlen ⊢
      have hcost := hstep s a hs hμ
      rw [List.length_cons] at hlen
      exact ih (hI s a hs) (by omega)

end Relational
