import Mathlib.Data.List.Count
import Mathlib.Data.List.Perm.Subperm
import Mathlib.Data.Finset.Card
import Mathlib.Order.Interval.Finset.Nat
import Mathlib.Tactic.Ring
import SmartDialer.Lib.Table

namespace Relational

/-!
# Counting rows

`count p` is `count(*)` under a filter.  The lemmas say how a count moves with an insertion and
with an update, and bound it by a set of labels (`count_le_of_label`).  `total` is `sum(column)`.
-/

universe u

namespace Table

variable {ρ : Type u}

/-- The number of rows that satisfy `p`. -/
def count (t : Table ρ) (p : ℕ → ρ → Bool) : ℕ := t.rows.countP fun e => p e.1 e.2

/-! ### Counting -/

/-- There is nothing to count in an empty table. -/
@[simp] theorem count_empty (p : ℕ → ρ → Bool) : (empty : Table ρ).count p = 0 := rfl

/-- A pushed row is counted when it satisfies the filter. -/
@[simp] theorem count_push (t : Table ρ) (r : ρ) (p : ℕ → ρ → Bool) :
    (t.push r).count p = t.count p + if p t.nextId r then 1 else 0 := by
  simp [count, push, List.countP_append, List.countP_cons]

/-- Filters that agree on the stored rows count the same. -/
theorem count_congr {t : Table ρ} {p q : ℕ → ρ → Bool}
    (h : ∀ k r, t.get? k = some r → p k r = q k r) : t.count p = t.count q := by
  apply List.countP_congr
  intro e he
  rw [h e.1 e.2 (mem_rows.mp he)]

/-- Rows that are rewritten one by one are counted by what they are rewritten to. -/
theorem count_map {τ : Type u} (t : Table ρ) (g : ℕ → ρ → τ) (p : ℕ → τ → Bool) :
    (t.map g).count p = t.count fun k r => p k (g k r) := by
  simp only [count, map, List.countP_map, Function.comp_def]

/-- The rows under one filter are those under two disjoint ones. -/
theorem count_add {t : Table ρ} {p q r : ℕ → ρ → Bool}
    (h : ∀ k s, t.get? k = some s → (p k s = true ↔ q k s = true ∨ r k s = true))
    (hd : ∀ k s, t.get? k = some s → q k s = true → r k s = false) :
    t.count p = t.count q + t.count r := by
  have hrows : ∀ e ∈ t.rows, (p e.1 e.2 = true ↔ q e.1 e.2 = true ∨ r e.1 e.2 = true) ∧
      (q e.1 e.2 = true → r e.1 e.2 = false) := fun e he =>
    ⟨h e.1 e.2 (mem_rows.mp he), hd e.1 e.2 (mem_rows.mp he)⟩
  unfold count
  generalize t.rows = l at hrows
  induction l with
  | nil => rfl
  | cons e l ih =>
    rw [List.forall_mem_cons] at hrows
    obtain ⟨⟨hor, hdisj⟩, hrest⟩ := hrows
    simp only [List.countP_cons, ih hrest]
    cases hq : q e.1 e.2 <;> cases hr : r e.1 e.2 <;> simp_all <;> omega

/-- Tables in which every key is counted alike count the same. -/
theorem count_eq_of_get? {t t' : Table ρ} {p q : ρ → Bool}
    (h : ∀ k, (t'.get? k).map q = (t.get? k).map p) :
    (t'.count fun _ r => q r) = t.count fun _ r => p r := by
  have hmem : ∀ (u : Table ρ) (g : ρ → Bool) (k : ℕ),
      k ∈ (u.select fun _ r => g r).map Prod.fst ↔ (u.get? k).map g = some true := by
    intro u g k
    rw [List.mem_map, Option.map_eq_some_iff]
    constructor
    · rintro ⟨⟨i, r⟩, he, rfl⟩
      exact ⟨r, mem_select.mp he⟩
    · rintro ⟨r, hr⟩
      exact ⟨(k, r), mem_select.mpr hr, rfl⟩
  have hperm : ((t'.select fun _ r => q r).map Prod.fst).Perm
      ((t.select fun _ r => p r).map Prod.fst) := by
    rw [List.perm_ext_iff_of_nodup (select_nodup _ _) (select_nodup _ _)]
    intro k
    rw [hmem, hmem, h k]
  have hlen := hperm.length_eq
  rw [List.length_map, List.length_map] at hlen
  unfold count
  rw [List.countP_eq_length_filter, List.countP_eq_length_filter]
  exact hlen

/-- A filter that no stored row satisfies counts nothing. -/
theorem count_eq_zero_iff {t : Table ρ} {p : ℕ → ρ → Bool} :
    t.count p = 0 ↔ ∀ k r, t.get? k = some r → p k r = false := by
  rw [count, List.countP_eq_zero]
  constructor
  · intro h k r hr
    simpa using h (k, r) (mem_rows.mpr hr)
  · intro h e he
    simpa using h e.1 e.2 (mem_rows.mp he)

/-- The selected rows that satisfy a further filter are the rows that satisfy both. -/
theorem countP_select (t : Table ρ) (q p : ℕ → ρ → Bool) :
    (t.select q).countP (fun e => p e.1 e.2) = t.count fun k r => q k r && p k r := by
  rw [select, List.countP_filter, count]
  exact List.countP_congr fun e _ => by rw [Bool.and_comm]

/-- **Pigeonhole.** Rows labelled by distinct numbers between one and `m` are at most `m`. -/
theorem count_le_of_label {t : Table ρ} {p : ℕ → ρ → Bool} {m : ℕ} (g : ρ → ℕ)
    (hrange : ∀ k r, t.get? k = some r → p k r = true → 1 ≤ g r ∧ g r ≤ m)
    (hinj : ∀ k r k' r', t.get? k = some r → p k r = true → t.get? k' = some r' →
      p k' r' = true → g r = g r' → k = k') :
    t.count p ≤ m := by
  have hkeys : ((t.select p).map Prod.fst).Nodup := select_nodup t p
  have hlabels : ((t.select p).map fun e => g e.2).Nodup := by
    rw [List.nodup_map_iff_inj_on (List.Nodup.of_map Prod.fst hkeys)]
    intro e he e' he' hg
    obtain ⟨hr, hp⟩ := mem_select.mp he
    obtain ⟨hr', hp'⟩ := mem_select.mp he'
    have hk := hinj _ _ _ _ hr hp hr' hp' hg
    rw [← hk, hr, Option.some.injEq] at hr'
    exact Prod.ext hk hr'
  have hsub : ((t.select p).map fun e => g e.2).toFinset ⊆ Finset.Icc 1 m := by
    intro n hn
    rw [List.mem_toFinset, List.mem_map] at hn
    obtain ⟨e, he, rfl⟩ := hn
    obtain ⟨hr, hp⟩ := mem_select.mp he
    exact Finset.mem_Icc.mpr (hrange _ _ hr hp)
  have hcard := Finset.card_le_card hsub
  rw [List.toFinset_card_of_nodup hlabels, List.length_map, Nat.card_Icc] at hcard
  rw [count, List.countP_eq_length_filter]
  exact hcard.trans (by omega)

/-- Rows that find different rows in another table are no more than those. -/
theorem count_le_of_injective {τ : Type u} {t : Table ρ} {u : Table τ} {p : ρ → Bool}
    {q : τ → Bool} (R : ℕ → ℕ → Prop)
    (hfind : ∀ k r, t.get? k = some r → p r = true →
      ∃ i b, R k i ∧ u.get? i = some b ∧ q b = true)
    (hinj : ∀ k k' i, R k i → R k' i → k = k') :
    (t.count fun _ r => p r) ≤ u.count fun _ b => q b := by
  have hkeys : ∀ k ∈ (t.select fun _ r => p r).map Prod.fst,
      ∃ i, R k i ∧ i ∈ (u.select fun _ b => q b).map Prod.fst := by
    intro k hk
    obtain ⟨⟨k, r⟩, he, rfl⟩ := List.mem_map.mp hk
    obtain ⟨hr, hp⟩ := mem_select.mp he
    obtain ⟨i, b, hR, hb, hq⟩ := hfind k r hr hp
    exact ⟨i, hR, List.mem_map.mpr ⟨(i, b), mem_select.mpr ⟨hb, hq⟩, rfl⟩⟩
  choose! g hg using hkeys
  have hnodup : (((t.select fun _ r => p r).map Prod.fst).map g).Nodup := by
    rw [List.nodup_map_iff_inj_on (select_nodup t fun _ r => p r)]
    intro k hk k' hk' heq
    apply hinj k k' (g k) (hg k hk).1
    rw [heq]
    exact (hg k' hk').1
  have hsub : ((t.select fun _ r => p r).map Prod.fst).map g ⊆
      (u.select fun _ b => q b).map Prod.fst := by
    intro i hi
    obtain ⟨k, hk, rfl⟩ := List.mem_map.mp hi
    exact (hg k hk).2
  have hlen := (hnodup.subperm hsub).length_le
  rw [List.length_map, List.length_map, List.length_map] at hlen
  unfold count
  rw [List.countP_eq_length_filter, List.countP_eq_length_filter]
  exact hlen

/-- The change of a count under an update is the sum of the changes of the updated rows. -/
theorem count_modify_int (t : Table ρ) (q : ℕ → ρ → Bool) (f : ρ → ρ) (p : ρ → Bool) :
    ((t.modify q f).count fun _ r => p r : ℤ) = t.count (fun _ r => p r)
      + ((t.select q).map fun e =>
          (if p (f e.2) then (1 : ℤ) else 0) - if p e.2 then 1 else 0).sum := by
  unfold count modify select
  simp only
  generalize t.rows = l
  induction l with
  | nil => rfl
  | cons e l ih =>
    simp only [List.map_cons, List.countP_cons, List.filter_cons]
    cases hq : q e.1 e.2
    · simp only [Bool.false_eq_true, if_false, Nat.cast_add, ih]
      ring
    · simp only [if_true, List.map_cons, List.sum_cons, Nat.cast_add, ih]
      cases p (f e.2) <;> cases p e.2 <;> simp <;> ring

/-- The change of a count under the update of one row. -/
theorem count_alter {t : Table ρ} {k : ℕ} {r : ρ} (f : ρ → ρ) (p : ρ → Bool)
    (hr : t.get? k = some r) :
    ((t.alter k f).count fun _ s => p s) + (if p r then 1 else 0)
      = (t.count fun _ s => p s) + if p (f r) then 1 else 0 := by
  have hsel : t.select (fun i _ => i == k) = [(k, r)] := by
    have := select_key t k fun _ => true
    simpa [hr, Option.filter] using this
  have h := count_modify_int t (fun i _ => i == k) f p
  rw [hsel] at h
  rw [alter]
  simp only [List.map_cons, List.map_nil, List.sum_cons, List.sum_nil] at h
  cases hp : p r <;> cases hq : p (f r) <;> simp [hp, hq] at h ⊢ <;> omega

/-! ### Sums -/

/-- The sum of `g` over the rows. -/
def total (t : Table ρ) (g : ρ → ℤ) : ℤ := (t.rows.map fun e => g e.2).sum

/-- A new row adds its own value to the total, since its key is fresh. -/
@[simp] theorem total_push (t : Table ρ) (r : ρ) (g : ρ → ℤ) :
    (t.push r).total g = t.total g + g r := by
  simp [total, push]

end Table

end Relational
