import SmartDialer.Lib.Table
import Mathlib.Data.List.Chain

namespace Relational

/-!
# Histories of a table

A history lists the row images that have been written to a table, with their keys, oldest first.
`History edge t vs` says that under every key the images follow one another by `edge` and that
the last one is the row the table holds.  Both ways to write a row keep it: `History.push` for a
new row, `History.alter` for an update along an edge.
-/

universe u

variable {ρ : Type u}

/-- The images written under a key, oldest first. -/
def images (vs : List (ℕ × ρ)) (k : ℕ) : List ρ := (vs.filter fun e => e.1 == k).map Prod.snd

/-- The images of a key grow when the last write is to that key, and only then. -/
theorem images_concat (vs : List (ℕ × ρ)) (j : ℕ) (r : ρ) (k : ℕ) :
    images (vs ++ [(j, r)]) k = if k = j then images vs k ++ [r] else images vs k := by
  unfold images
  rw [List.filter_append, List.map_append]
  by_cases h : k = j
  · subst h; simp
  · have h' : ¬ j = k := fun h' => h h'.symm
    simp [h, h']

/-- The images under every key form a chain that ends in the stored row. -/
structure History (edge : ρ → ρ → Prop) (t : Table ρ) (vs : List (ℕ × ρ)) : Prop where
  chain : ∀ k, (images vs k).IsChain edge
  last : ∀ k, (images vs k).getLast? = t.get? k

namespace History

variable {edge : ρ → ρ → Prop} {t : Table ρ} {vs : List (ℕ × ρ)}

/-- An empty table has no history. -/
theorem empty : History edge (Table.empty : Table ρ) [] :=
  ⟨fun _ => List.isChain_nil, fun _ => rfl⟩

/-- A chain goes on with an image that the last one has an edge to. -/
private theorem isChain_concat {l : List ρ} (hl : l.IsChain edge) {r : ρ}
    (hr : ∀ s, l.getLast? = some s → edge s r) : (l ++ [r]).IsChain edge := by
  rw [List.isChain_append]
  refine ⟨hl, List.isChain_singleton r, fun x hx y hy => ?_⟩
  rw [List.head?_cons, Option.mem_some_iff] at hy
  exact hy ▸ hr x hx

/-- A row may be created in any state: the first image of a key follows no other. -/
theorem push (h : History edge t vs) (r : ρ) : History edge (t.push r) (vs ++ [(t.nextId, r)]) := by
  constructor
  · intro k
    rw [images_concat]
    split
    · rename_i hk
      subst hk
      apply isChain_concat (h.chain _)
      intro s hs
      rw [h.last, Table.get?_nextId] at hs
      cases hs
    · exact h.chain k
  · intro k
    rw [images_concat, Table.get?_push]
    split
    · rw [List.getLast?_concat]
    · exact h.last k

/-- A row may be written again if an edge leads from its last image to the new one. -/
theorem alter (h : History edge t vs) {k : ℕ} {r : ρ} {f : ρ → ρ} (hr : t.get? k = some r)
    (hf : edge r (f r)) : History edge (t.alter k f) (vs ++ [(k, f r)]) := by
  constructor
  · intro i
    rw [images_concat]
    split
    · rename_i hi
      subst hi
      apply isChain_concat (h.chain _)
      intro s hs
      rw [h.last, hr, Option.some.injEq] at hs
      exact hs ▸ hf
    · exact h.chain i
  · intro i
    rw [images_concat, Table.get?_alter]
    split
    · rw [List.getLast?_concat, hr]
      rfl
    · exact h.last i

end History

end Relational
