import Mathlib.Data.Finset.Dedup
import Mathlib.Data.Finset.Order
import Mathlib.Data.List.Nodup
import Mathlib.Logic.Function.Basic
import Mathlib.Tactic.Common

namespace Relational

/-!
# Keyed tables

A table is a finite list of rows under distinct natural-number keys, the way a relation
with a serial primary key looks to its statements:

* `push` is an `INSERT` that draws the next serial key, `insertAt` an `INSERT` under a
  given key with `ON CONFLICT DO NOTHING`;
* `modify p f` is an `UPDATE` that sets the rows selected by `p`, `select p` is the
  `SELECT` of the same rows;
* `alter k` is an `UPDATE … WHERE id = k`.

The key column is kept apart from the row, so an update cannot change it and the
distinctness of keys is a field of the structure.  Everything later is stated through
`get?`, the lookup by key.
-/

universe u v

/-- A relation with a primary key: rows under pairwise distinct keys. -/
structure Table (ρ : Type u) where
  /-- The rows with their keys, in insertion order. -/
  rows : List (ℕ × ρ)
  /-- The primary key is unique. -/
  nodup : (rows.map Prod.fst).Nodup

namespace Table

variable {ρ : Type u}

/-- Tables are equal when their rows and their next keys are. -/
instance [DecidableEq ρ] : DecidableEq (Table ρ) := fun t t' =>
  decidable_of_iff (t.rows = t'.rows)
    ⟨fun h => by cases t; cases t'; simpa using h, fun h => h ▸ rfl⟩

/-! ### Operations -/

/-- The table without rows. -/
def empty : Table ρ := ⟨[], List.nodup_nil⟩

/-- The row stored under a key. -/
def get? (t : Table ρ) (k : ℕ) : Option ρ := t.rows.lookup k

/-- The rows that satisfy `p`, with their keys. -/
def select (t : Table ρ) (p : ℕ → ρ → Bool) : List (ℕ × ρ) := t.rows.filter fun e => p e.1 e.2

/-- Apply `f` to every row that satisfies `p`. -/
def modify (t : Table ρ) (p : ℕ → ρ → Bool) (f : ρ → ρ) : Table ρ where
  rows := t.rows.map fun e => (e.1, if p e.1 e.2 then f e.2 else e.2)
  nodup := by simpa [List.map_map, Function.comp_def] using t.nodup

/-- Apply `f` to the row under a key. -/
def alter (t : Table ρ) (k : ℕ) (f : ρ → ρ) : Table ρ := t.modify (fun i _ => i == k) f

/-- The next serial key: above every key in use. -/
def nextId (t : Table ρ) : ℕ := (t.rows.map Prod.fst).foldr max 0 + 1

/-- Every key in use is below the next serial key. -/
theorem lt_nextId {t : Table ρ} {k : ℕ} (hk : k ∈ t.rows.map Prod.fst) : k < t.nextId := by
  unfold nextId
  generalize t.rows.map Prod.fst = ks at hk
  induction ks with
  | nil => simp at hk
  | cons a l ih =>
    rcases List.mem_cons.mp hk with rfl | hl
    · simp only [List.foldr_cons]; omega
    · have := ih hl
      simp only [List.foldr_cons]; omega

/-- Store a row under the next serial key. -/
def push (t : Table ρ) (r : ρ) : Table ρ where
  rows := t.rows ++ [(t.nextId, r)]
  nodup := by
    rw [List.map_append, List.map_singleton]
    apply List.Nodup.append t.nodup (List.nodup_singleton _)
    intro k hk hk'
    rw [List.mem_singleton] at hk'
    exact absurd (lt_nextId hk) (by omega)

/-- Store a row under a given key, unless the key is taken. -/
def insertAt (t : Table ρ) (k : ℕ) (r : ρ) : Table ρ :=
  if h : k ∈ t.rows.map Prod.fst then t else
    { rows := t.rows ++ [(k, r)]
      nodup := by
        rw [List.map_append, List.map_singleton]
        apply List.Nodup.append t.nodup (List.nodup_singleton _)
        intro j hj hj'
        rw [List.mem_singleton] at hj'
        subst hj'
        exact h hj }

/-- The table of what `g` says of each row. -/
def map {τ : Type v} (t : Table ρ) (g : ℕ → ρ → τ) : Table τ where
  rows := t.rows.map fun e => (e.1, g e.1 e.2)
  nodup := by simpa [List.map_map, Function.comp_def] using t.nodup

/-- Drop the row under a key. -/
def erase (t : Table ρ) (k : ℕ) : Table ρ where
  rows := t.rows.filter fun e => e.1 != k
  nodup := t.nodup.sublist (List.filter_sublist.map _)

/-! ### Lookup -/

/-- On distinct keys, looking a key up finds exactly the entry of the list. -/
private theorem lookup_eq_some_iff {l : List (ℕ × ρ)} (hl : (l.map Prod.fst).Nodup) {k : ℕ}
    {r : ρ} : l.lookup k = some r ↔ (k, r) ∈ l := by
  induction l with
  | nil => simp
  | cons e l ih =>
    obtain ⟨j, s⟩ := e
    rw [List.map_cons, List.nodup_cons] at hl
    by_cases h : k = j
    · subst h
      have hnot : (k, r) ∉ l := fun hm => hl.1 (List.mem_map.mpr ⟨(k, r), hm, rfl⟩)
      simp [hnot, eq_comm]
    · have hb : (k == j) = false := by simpa using h
      simp [List.lookup_cons, hb, h, ih hl.2]

/-- The entries of the table are the pairs its lookup relates. -/
theorem mem_rows {t : Table ρ} {k : ℕ} {r : ρ} : (k, r) ∈ t.rows ↔ t.get? k = some r :=
  (lookup_eq_some_iff t.nodup).symm

/-- A key is absent exactly when its lookup fails. -/
theorem get?_eq_none_iff {t : Table ρ} {k : ℕ} : t.get? k = none ↔ k ∉ t.rows.map Prod.fst := by
  constructor
  · intro h hk
    obtain ⟨⟨j, r⟩, hr, rfl⟩ := List.mem_map.mp hk
    rw [mem_rows.mp hr] at h
    cases h
  · intro h
    cases hr : t.get? k with
    | none => rfl
    | some r => exact absurd (List.mem_map.mpr ⟨(k, r), mem_rows.mpr hr, rfl⟩) h

/-- A table has no rows when no key has one. -/
theorem rows_eq_nil_iff {t : Table ρ} : t.rows = [] ↔ ∀ k r, t.get? k ≠ some r := by
  rw [List.eq_nil_iff_forall_not_mem]
  exact ⟨fun h k r hr => h (k, r) (mem_rows.mpr hr), fun h e he => h e.1 e.2 (mem_rows.mp he)⟩

/-- No key has a row in the empty table. -/
@[simp] theorem get?_empty (k : ℕ) : (empty : Table ρ).get? k = none := rfl

/-- The selected rows are the stored ones that satisfy the filter. -/
theorem mem_select {t : Table ρ} {p : ℕ → ρ → Bool} {k : ℕ} {r : ρ} :
    (k, r) ∈ t.select p ↔ t.get? k = some r ∧ p k r = true := by
  rw [select, List.mem_filter, mem_rows]

/-- The selected rows have distinct keys. -/
theorem select_nodup (t : Table ρ) (p : ℕ → ρ → Bool) : ((t.select p).map Prod.fst).Nodup :=
  t.nodup.sublist (List.filter_sublist.map _)

/-- No row is selected exactly when every stored row fails the filter. -/
theorem select_eq_nil_iff {t : Table ρ} {p : ℕ → ρ → Bool} :
    t.select p = [] ↔ ∀ k r, t.get? k = some r → p k r = false := by
  rw [select, List.filter_eq_nil_iff]
  constructor
  · intro h k r hr
    simpa using h (k, r) (mem_rows.mpr hr)
  · intro h e he
    simpa using h e.1 e.2 (mem_rows.mp he)

/-- Rewriting every row under its key rewrites what the lookup finds. -/
private theorem lookup_map_row {τ : Type v} (l : List (ℕ × ρ)) (g : ℕ → ρ → τ) (k : ℕ) :
    (l.map fun e => (e.1, g e.1 e.2)).lookup k = (l.lookup k).map (g k) := by
  induction l with
  | nil => rfl
  | cons e l ih =>
    obtain ⟨j, s⟩ := e
    by_cases h : k = j
    · subst h; simp
    · have hb : (k == j) = false := by simpa using h
      simp [List.lookup_cons, hb, ih]

/-- An update of all rows that pass a test, read at one key. -/
@[simp] theorem get?_modify (t : Table ρ) (p : ℕ → ρ → Bool) (f : ρ → ρ) (k : ℕ) :
    (t.modify p f).get? k = (t.get? k).map fun r => if p k r then f r else r :=
  lookup_map_row t.rows (fun k r => if p k r then f r else r) k

/-- An update of every row, read at one key. -/
@[simp] theorem get?_map {τ : Type v} (t : Table ρ) (g : ℕ → ρ → τ) (k : ℕ) :
    (t.map g).get? k = (t.get? k).map (g k) :=
  lookup_map_row t.rows g k

/-- An update of one row, read at one key: the other keys see nothing of it. -/
@[simp] theorem get?_alter (t : Table ρ) (k : ℕ) (f : ρ → ρ) (i : ℕ) :
    (t.alter k f).get? i = if i = k then (t.get? k).map f else t.get? i := by
  rw [alter, get?_modify]
  by_cases h : i = k
  · subst h; simp
  · simp [h]

/-- Appending an entry under a free key extends the lookup at that key only. -/
private theorem lookup_append_singleton {l : List (ℕ × ρ)} {j : ℕ} {r : ρ}
    (hj : j ∉ l.map Prod.fst) (k : ℕ) :
    (l ++ [(j, r)]).lookup k = if k = j then some r else l.lookup k := by
  induction l with
  | nil =>
    by_cases h : k = j
    · subst h; simp
    · have hb : (k == j) = false := by simpa using h
      simp [List.lookup_cons, hb, h]
  | cons e l ih =>
    obtain ⟨i, s⟩ := e
    rw [List.map_cons, List.mem_cons, not_or] at hj
    by_cases h : k = i
    · subst h
      have hkj : ¬ k = j := fun e => hj.1 e.symm
      simp [hkj]
    · have hb : (k == i) = false := by simpa using h
      simp [List.lookup_cons, hb, ih hj.2]

/-- Dropping the entries under a key empties the lookup at that key only. -/
private theorem lookup_filter_key (l : List (ℕ × ρ)) (j k : ℕ) :
    (l.filter fun e => e.1 != j).lookup k = if k = j then none else l.lookup k := by
  induction l with
  | nil => simp
  | cons e l ih =>
    obtain ⟨i, s⟩ := e
    by_cases hij : i = j
    · subst hij
      by_cases hk : k = i
      · subst hk; simp [ih]
      · have hb : (k == i) = false := by simpa using hk
        simp [List.lookup_cons, hb, hk, ih]
    · by_cases hk : k = i
      · subst hk; simp [hij]
      · have hb : (k == i) = false := by simpa using hk
        simp [List.lookup_cons, hij, hb, ih]

/-- The next serial key is free. -/
@[simp] theorem get?_nextId (t : Table ρ) : t.get? t.nextId = none := by
  rw [get?_eq_none_iff]
  exact fun h => Nat.lt_irrefl _ (lt_nextId h)

/-- A stored row is not under the next serial key. -/
theorem ne_nextId {t : Table ρ} {k : ℕ} {r : ρ} (h : t.get? k = some r) : k ≠ t.nextId := by
  rintro rfl
  rw [get?_nextId] at h
  cases h

/-- An insertion, read at one key: the new row is at the next key, where none was. -/
@[simp] theorem get?_push (t : Table ρ) (r : ρ) (k : ℕ) :
    (t.push r).get? k = if k = t.nextId then some r else t.get? k :=
  lookup_append_singleton (fun h => Nat.lt_irrefl _ (lt_nextId h)) k

/-- `INSERT … ON CONFLICT DO NOTHING` keeps a stored row and otherwise stores the new one. -/
theorem get?_insertAt (t : Table ρ) (j : ℕ) (r : ρ) (k : ℕ) :
    (t.insertAt j r).get? k = if k = j then some ((t.get? j).getD r) else t.get? k := by
  unfold insertAt
  split
  · rename_i h
    by_cases hk : k = j
    · subst hk
      obtain ⟨s, hs⟩ := Option.ne_none_iff_exists'.mp (fun hn => (get?_eq_none_iff.mp hn) h)
      simp [hs]
    · simp [hk]
  · rename_i h
    have hn : t.get? j = none := get?_eq_none_iff.mpr h
    rw [hn]
    exact lookup_append_singleton h k

/-- A deletion, read at one key. -/
@[simp] theorem get?_erase (t : Table ρ) (j k : ℕ) :
    (t.erase j).get? k = if k = j then none else t.get? k :=
  lookup_filter_key t.rows j k

/-! ### Rows after a write -/

/-- A row after an update is a row before it, updated if it was selected. -/
theorem exists_of_get?_modify {t : Table ρ} {p : ℕ → ρ → Bool} {f : ρ → ρ} {k : ℕ} {r' : ρ}
    (h : (t.modify p f).get? k = some r') :
    ∃ r, t.get? k = some r ∧ r' = if p k r then f r else r := by
  rw [get?_modify, Option.map_eq_some_iff] at h
  obtain ⟨r, hr, rfl⟩ := h
  exact ⟨r, hr, rfl⟩

/-- Behind a row after an update of one key there is a row before it. -/
theorem exists_of_get?_alter {t : Table ρ} {j : ℕ} {f : ρ → ρ} {k : ℕ} {r' : ρ}
    (h : (t.alter j f).get? k = some r') :
    ∃ r, t.get? k = some r ∧ r' = if k = j then f r else r := by
  obtain ⟨r, hr, heq⟩ := exists_of_get?_modify h
  refine ⟨r, hr, ?_⟩
  rw [heq]
  simp only [beq_iff_eq]

/-- A row after an update of one stored row is that row updated, or another row. -/
theorem cases_of_get?_alter {t : Table ρ} {j : ℕ} {f : ρ → ρ} {r : ρ} (hr : t.get? j = some r)
    {k : ℕ} {r' : ρ} (h : (t.alter j f).get? k = some r') :
    (k = j ∧ r' = f r) ∨ (k ≠ j ∧ t.get? k = some r') := by
  rw [get?_alter] at h
  split at h
  · rename_i hk
    rw [hr, Option.map_some, Option.some.injEq] at h
    exact Or.inl ⟨hk, h.symm⟩
  · rename_i hk
    exact Or.inr ⟨hk, h⟩

/-- A row after an insertion is the new one under its key, or a row before it. -/
theorem cases_of_get?_push {t : Table ρ} {r : ρ} {k : ℕ} {r' : ρ}
    (h : (t.push r).get? k = some r') : (k = t.nextId ∧ r' = r) ∨ t.get? k = some r' := by
  rw [get?_push] at h
  split at h
  · rename_i hk
    cases h
    exact Or.inl ⟨hk, rfl⟩
  · exact Or.inr h

/-- A row after an insertion under a given key is a row before it or, under a key that was free, the
    new one. -/
theorem cases_of_get?_insertAt {t : Table ρ} {j : ℕ} {r : ρ} {k : ℕ} {r' : ρ}
    (h : (t.insertAt j r).get? k = some r') :
    t.get? k = some r' ∨ (k = j ∧ r' = r ∧ t.get? j = none) := by
  rw [get?_insertAt] at h
  split at h
  · rename_i hk
    cases hold : t.get? j with
    | none =>
      rw [hold, Option.getD_none, Option.some.injEq] at h
      exact Or.inr ⟨hk, h.symm, rfl⟩
    | some s =>
      rw [hold, Option.getD_some] at h
      exact Or.inl (by rw [hk, hold]; exact h)
  · exact Or.inl h

/-- A row after a deletion is another row before it. -/
theorem get?_of_get?_erase {t : Table ρ} {j k : ℕ} {r : ρ} (h : (t.erase j).get? k = some r) :
    k ≠ j ∧ t.get? k = some r := by
  rw [get?_erase] at h
  split at h
  · cases h
  · rename_i hk
    exact ⟨hk, h⟩

/-- An update that leaves a column alone leaves every row in place with the same value there. -/
theorem exists_get?_modify {t : Table ρ} {p : ℕ → ρ → Bool} {f : ρ → ρ} {β : Type v} {g : ρ → β}
    (hf : ∀ r, g (f r) = g r) (k : ℕ) (r : ρ) (hr : t.get? k = some r) :
    ∃ r', (t.modify p f).get? k = some r' ∧ g r' = g r := by
  refine ⟨if p k r then f r else r, by rw [get?_modify, hr]; rfl, ?_⟩
  split
  · exact hf r
  · rfl

/-! ### Equal tables -/

/-- Two tables with the same keys in the same order and the same lookups are equal. -/
theorem ext_get? {t t' : Table ρ} (hk : t.rows.map Prod.fst = t'.rows.map Prod.fst)
    (h : ∀ k, t.get? k = t'.get? k) : t = t' := by
  have hrows : t.rows = t'.rows := by
    apply List.ext_getElem
    · simpa using congrArg List.length hk
    · -- entry by entry: the keys agree, and both entries are what their lookup finds
      intro n hn hn'
      have hfst : t.rows[n].1 = t'.rows[n].1 := by
        have := congrArg (fun l => l[n]?) hk
        simpa [hn, hn'] using this
      have hr : t.get? t.rows[n].1 = some t.rows[n].2 := mem_rows.mp (List.getElem_mem hn)
      have hr' : t'.get? t'.rows[n].1 = some t'.rows[n].2 := mem_rows.mp (List.getElem_mem hn')
      rw [h, hfst, hr', Option.some.injEq] at hr
      exact Prod.ext hfst hr.symm
  cases t; cases t'
  simpa using hrows

/-- An update of rows leaves the keys, in their order. -/
@[simp] theorem keys_modify (t : Table ρ) (p : ℕ → ρ → Bool) (f : ρ → ρ) :
    (t.modify p f).rows.map Prod.fst = t.rows.map Prod.fst := by
  simp [modify, List.map_map, Function.comp_def]

/-- An update of every row leaves the keys, in their order. -/
@[simp] theorem keys_map {τ : Type v} (t : Table ρ) (g : ℕ → ρ → τ) :
    (t.map g).rows.map Prod.fst = t.rows.map Prod.fst := by
  simp [map, List.map_map, Function.comp_def]

/-- Tables with the same keys, and with the same to say of the row under each, say the same. -/
theorem map_congr_get? {τ : Type v} {t t' : Table ρ} {g g' : ℕ → ρ → τ}
    (hk : t.rows.map Prod.fst = t'.rows.map Prod.fst)
    (h : ∀ k, (t.get? k).map (g k) = (t'.get? k).map (g' k)) : t.map g = t'.map g' := by
  apply ext_get? (by rw [keys_map, keys_map, hk])
  intro k
  rw [get?_map, get?_map, h k]

/-- Only what a function does to the rows that are there matters. -/
theorem map_congr {τ : Type v} {t : Table ρ} {g g' : ℕ → ρ → τ}
    (h : ∀ k r, t.get? k = some r → g k r = g' k r) : t.map g = t.map g' := by
  apply map_congr_get? rfl
  intro k
  cases hr : t.get? k with
  | none => rfl
  | some r => exact congrArg some (h k r hr)

/-- Two tables made of one are the same exactly if they say the same of each row. -/
theorem map_eq_map_iff {τ : Type v} {t : Table ρ} {g g' : ℕ → ρ → τ} :
    t.map g = t.map g' ↔ ∀ k r, t.get? k = some r → g k r = g' k r := by
  constructor
  · intro h k r hr
    have hk := congrArg (fun u => u.get? k) h
    simpa only [get?_map, hr, Option.map_some, Option.some.injEq] using hk
  · exact map_congr

/-- Updating every row to itself does nothing. -/
@[simp] theorem map_self (t : Table ρ) : (t.map fun _ r => r) = t := by
  apply ext_get? (keys_map _ _)
  intro k
  rw [get?_map, Option.map_id']

/-- Two updates of every row are one. -/
theorem map_map {τ : Type v} {υ : Type u} (t : Table ρ) (g : ℕ → ρ → τ) (h : ℕ → τ → υ) :
    (t.map g).map h = t.map fun k r => h k (g k r) := by
  simp only [map, List.map_map, Function.comp_def]

/-- An update says of each row what becomes of it. -/
theorem modify_eq_map (t : Table ρ) (p : ℕ → ρ → Bool) (f : ρ → ρ) :
    t.modify p f = t.map fun k r => if p k r then f r else r := rfl

/-- Two updates of one row are one. -/
theorem alter_alter (t : Table ρ) (k : ℕ) (f g : ρ → ρ) :
    (t.alter k f).alter k g = t.alter k fun r => g (f r) := by
  refine ext_get? (by simp only [alter, keys_modify]) fun i => ?_
  simp only [get?_alter]
  split
  · rw [if_pos trivial, Option.map_map]; rfl
  · rfl

/-- Updating a row to itself does nothing. -/
@[simp] theorem alter_id (t : Table ρ) (k : ℕ) : t.alter k id = t := by
  refine ext_get? (keys_modify _ _ _) fun i => ?_
  rw [get?_alter, Option.map_id_fun]
  split
  · rename_i hi
    rw [hi]
    rfl
  · rfl

/-- Updates of one row that agree on it are the same. -/
theorem alter_congr {t : Table ρ} {k : ℕ} {r : ρ} {f g : ρ → ρ} (hr : t.get? k = some r)
    (h : f r = g r) : t.alter k f = t.alter k g := by
  refine ext_get? (by simp only [alter, keys_modify]) fun i => ?_
  rw [get?_alter, get?_alter]
  split
  · rw [hr, Option.map_some, Option.map_some, h]
  · rfl

/-- Filters that agree on the stored rows update the same. -/
theorem modify_congr {t : Table ρ} {p q : ℕ → ρ → Bool} (f : ρ → ρ)
    (h : ∀ k r, t.get? k = some r → p k r = q k r) : t.modify p f = t.modify q f := by
  refine ext_get? (by rw [keys_modify, keys_modify]) fun k => ?_
  rw [get?_modify, get?_modify]
  cases hr : t.get? k with
  | none => rfl
  | some r => simp [h k r hr]

/-- An update that selects no row changes nothing. -/
theorem modify_eq_self {t : Table ρ} {p : ℕ → ρ → Bool} (f : ρ → ρ)
    (h : ∀ k r, t.get? k = some r → p k r = false) : t.modify p f = t := by
  refine ext_get? (keys_modify _ _ _) fun k => ?_
  rw [get?_modify]
  cases hr : t.get? k with
  | none => rfl
  | some r => simp [h k r hr]

/-- Under a guarded key the guard decides about the one row. -/
theorem modify_key_of_pos {t : Table ρ} {k : ℕ} {r : ρ} {g : ρ → Bool} (f : ρ → ρ)
    (hr : t.get? k = some r) (hg : g r = true) :
    t.modify (fun i s => i == k && g s) f = t.alter k f := by
  apply modify_congr f
  intro i s hs
  by_cases h : i = k
  · subst h
    rw [hr, Option.some.injEq] at hs
    simp [← hs, hg]
  · simp [h]

/-- An update of one key under a condition does nothing when the row there fails it. -/
theorem modify_key_of_neg {t : Table ρ} {k : ℕ} {g : ρ → Bool} (f : ρ → ρ)
    (hg : ∀ r, t.get? k = some r → g r = false) : t.modify (fun i s => i == k && g s) f = t := by
  apply modify_eq_self f
  intro i s hs
  by_cases h : i = k
  · subst h
    simp [hg s hs]
  · simp [h]

/-- A guarded key selects one row or none. -/
theorem select_key (t : Table ρ) (k : ℕ) (g : ρ → Bool) :
    t.select (fun i s => i == k && g s) = ((t.get? k).filter g).toList.map fun r => (k, r) := by
  unfold select get?
  have hnd := t.nodup
  generalize t.rows = l at hnd
  induction l with
  | nil => rfl
  | cons e l ih =>
    obtain ⟨j, s⟩ := e
    rw [List.map_cons, List.nodup_cons] at hnd
    by_cases h : k = j
    · -- the keys are distinct, so nothing is selected from the rest
      subst h
      have hz : (l.filter fun e => e.1 == k && g e.2) = [] := by
        rw [List.filter_eq_nil_iff]
        intro x hx hxk
        simp only [Bool.and_eq_true, beq_iff_eq] at hxk
        exact hnd.1 (List.mem_map.mpr ⟨x, hx, hxk.1⟩)
      cases hg : g s <;> simp [hz, hg, Option.filter]
    · have hb : (k == j) = false := by simpa using h
      have hb' : (j == k) = false := by simpa using fun e => h e.symm
      simp [List.lookup_cons, hb, hb', ih hnd.2]

/-- A query for one key under a condition finds the row there when it passes. -/
theorem select_key_of_pos {t : Table ρ} {k : ℕ} {r : ρ} {g : ρ → Bool} (hr : t.get? k = some r)
    (hg : g r = true) : t.select (fun i s => i == k && g s) = [(k, r)] := by
  rw [select_key, hr, Option.filter_some_pos hg]
  rfl

/-- It finds nothing when the row there fails, or there is none. -/
theorem select_key_of_neg {t : Table ρ} {k : ℕ} {g : ρ → Bool}
    (hg : ∀ r, t.get? k = some r → g r = false) : t.select (fun i s => i == k && g s) = [] := by
  rw [select_key]
  cases hr : t.get? k with
  | none => rfl
  | some r => rw [Option.filter_some_neg (by simp [hg r hr])]; rfl

/-- Updates one after the other leave the keys, too. -/
private theorem keys_foldl_alter (f : ρ → ρ) (l : List (ℕ × ρ)) (t : Table ρ) :
    (l.foldl (fun t e => t.alter e.1 f) t).rows.map Prod.fst = t.rows.map Prod.fst := by
  induction l generalizing t with
  | nil => rfl
  | cons e l ih => rw [List.foldl_cons, ih, alter, keys_modify]

/-- Updating rows with distinct keys by the same function updates each of them once. -/
private theorem get?_foldl_alter_of_nodup (f : ρ → ρ) (l : List (ℕ × ρ))
    (hl : (l.map Prod.fst).Nodup) (t : Table ρ) (k : ℕ) :
    (l.foldl (fun t e => t.alter e.1 f) t).get? k =
      if k ∈ l.map Prod.fst then (t.get? k).map f else t.get? k := by
  induction l generalizing t with
  | nil => rfl
  | cons e l ih =>
    rw [List.map_cons, List.nodup_cons] at hl
    rw [List.foldl_cons, ih hl.2, get?_alter, List.map_cons]
    -- the first row is not met again in the rest
    by_cases h : k = e.1
    · subst h; simp [hl.1]
    · rw [if_neg h]; simp only [List.mem_cons, h, false_or]

/-- A stored row is among the selected ones exactly when it satisfies the filter. -/
theorem mem_keys_select {t : Table ρ} {p : ℕ → ρ → Bool} {k : ℕ} {r : ρ} (hr : t.get? k = some r) :
    k ∈ (t.select p).map Prod.fst ↔ p k r = true := by
  rw [List.mem_map]
  constructor
  · rintro ⟨⟨j, s⟩, hs, rfl⟩
    obtain ⟨hs, hp⟩ := mem_select.mp hs
    simp only at hr
    rw [hs, Option.some.injEq] at hr
    exact hr ▸ hp
  · exact fun hp => ⟨(k, r), mem_select.mpr ⟨hr, hp⟩, rfl⟩

/-- **Bulk updates.** An update of the selected rows is the sequence of the updates of each. -/
theorem foldl_alter_select (t : Table ρ) (p : ℕ → ρ → Bool) (f : ρ → ρ) :
    (t.select p).foldl (fun t e => t.alter e.1 f) t = t.modify p f := by
  refine ext_get? (by rw [keys_foldl_alter, keys_modify]) fun k => ?_
  rw [get?_foldl_alter_of_nodup f _ (select_nodup t p), get?_modify]
  cases hr : t.get? k with
  | none => simp
  | some r =>
    have hiff := mem_keys_select (p := p) hr
    cases hp : p k r <;> simp [hiff, hp]

/-! ### Bounded quantifiers -/

/-- What holds of every stored row can be decided by going through the rows. -/
instance decidableForall {P : ℕ → ρ → Prop} [∀ k r, Decidable (P k r)] (t : Table ρ) :
    Decidable (∀ k r, t.get? k = some r → P k r) :=
  decidable_of_iff (∀ e ∈ t.rows, P e.1 e.2)
    ⟨fun h k r hr => h (k, r) (mem_rows.mpr hr), fun h e he => h e.1 e.2 (mem_rows.mp he)⟩

/-! ### Columns -/

/-- A nullable column of a table: what `g` computes of the row under each key. -/
def column {β : Type v} (t : Table ρ) (g : ℕ → ρ → Option β) (k : ℕ) : Option β :=
  (t.get? k).bind (g k)

/-- A column has a value at a key when the row there has it. -/
theorem column_eq_some_iff {β : Type v} {t : Table ρ} {g : ℕ → ρ → Option β} {k : ℕ} {b : β} :
    t.column g k = some b ↔ ∃ r, t.get? k = some r ∧ g k r = some b := Option.bind_eq_some_iff

/-- The column at a key that has a row. -/
theorem column_of_get? {β : Type v} {t : Table ρ} (g : ℕ → ρ → Option β) {k : ℕ} {r : ρ}
    (hr : t.get? k = some r) : t.column g k = g k r := by
  rw [column, hr]
  rfl

/-- An update of one row that sets the column there. -/
theorem column_alter {β : Type v} {t : Table ρ} (g : ℕ → ρ → Option β) {k : ℕ} {f : ρ → ρ}
    {b : Option β} (hf : ∀ r, t.get? k = some r → g k (f r) = b) (hk : t.get? k = none → b = none) :
    (t.alter k f).column g = Function.update (t.column g) k b := by
  funext i
  unfold column
  rw [get?_alter]
  by_cases h : i = k
  · subst h
    rw [if_pos rfl, Function.update_self]
    cases hr : t.get? i with
    | none => exact (hk hr).symm
    | some r => exact hf r hr
  · rw [if_neg h, Function.update_of_ne h]

/-- An update that sets the column of no row it selects. -/
theorem column_modify {β : Type v} {t : Table ρ} (g : ℕ → ρ → Option β) {p : ℕ → ρ → Bool}
    {f : ρ → ρ} (hf : ∀ k r, t.get? k = some r → p k r = true → g k (f r) = g k r) :
    (t.modify p f).column g = t.column g := by
  funext i
  unfold column
  rw [get?_modify]
  cases hr : t.get? i with
  | none => rfl
  | some r =>
    show g i (if p i r then f r else r) = g i r
    split
    · rename_i hp
      exact hf i r hr hp
    · rfl

/-- A new row sets the column under its key. -/
theorem column_push {β : Type v} (t : Table ρ) (g : ℕ → ρ → Option β) (r : ρ) :
    (t.push r).column g = Function.update (t.column g) t.nextId (g t.nextId r) := by
  funext i
  unfold column
  rw [get?_push]
  by_cases h : i = t.nextId
  · subst h
    rw [if_pos rfl, Function.update_self]
    rfl
  · rw [if_neg h, Function.update_of_ne h]

/-- A free key has no value in any column. -/
theorem column_nextId {β : Type v} (t : Table ρ) (g : ℕ → ρ → Option β) :
    t.column g t.nextId = none := by
  rw [column, get?_nextId]
  rfl

/-! ### Every row -/

section

variable {P : ρ → Prop} {t : Table ρ}

/-- What holds of all rows still holds after an update, if it does of the rows that are written. -/
theorem forall_get?_modify (h : ∀ k r, t.get? k = some r → P r) {p : ℕ → ρ → Bool} {f : ρ → ρ}
    (hf : ∀ k r, t.get? k = some r → p k r = true → P (f r)) (k : ℕ) (r : ρ)
    (hr : (t.modify p f).get? k = some r) : P r := by
  obtain ⟨r₀, hr₀, rfl⟩ := exists_of_get?_modify hr
  split
  · rename_i hp
    exact hf k r₀ hr₀ hp
  · exact h k r₀ hr₀

/-- The same for an update of one key: only the row there has to be looked at. -/
theorem forall_get?_alter (h : ∀ k r, t.get? k = some r → P r) {j : ℕ} {f : ρ → ρ}
    (hf : ∀ r, t.get? j = some r → P (f r)) (k : ℕ) (r : ρ)
    (hr : (t.alter j f).get? k = some r) : P r := by
  obtain ⟨r₀, hr₀, rfl⟩ := exists_of_get?_alter hr
  split
  · rename_i hk
    exact hf r₀ (hk ▸ hr₀)
  · exact h k r₀ hr₀

/-- The same for an insertion: only the new row has to be looked at. -/
theorem forall_get?_push (h : ∀ k r, t.get? k = some r → P r) {r : ρ} (hr : P r) (k : ℕ) (r' : ρ)
    (hr' : (t.push r).get? k = some r') : P r' := by
  rcases cases_of_get?_push hr' with ⟨_, rfl⟩ | hold
  · exact hr
  · exact h k r' hold

/-- There is always a time after all that are on record. -/
theorem exists_after {τ : Type v} [LinearOrder τ] [NoMaxOrder τ] [Nonempty τ] (t : Table ρ)
    (g : ρ → Option τ) : ∃ now, ∀ k r, t.get? k = some r → ∀ e ∈ g r, e < now := by
  obtain ⟨last, hlast⟩ := Finset.exists_le (t.rows.filterMap fun e => g e.2).toFinset
  obtain ⟨now, hnow⟩ := exists_gt last
  refine ⟨now, fun k r hr e he => (hlast e ?_).trans_lt hnow⟩
  rw [List.mem_toFinset, List.mem_filterMap]
  exact ⟨(k, r), mem_rows.mpr hr, he⟩

end

/-! ### Unique indexes -/

/-- A unique index: no two rows share a key value, where `none` (SQL's `NULL`) is no value. -/
def UniqueOn {κ : Type v} (t : Table ρ) (key : ρ → Option κ) : Prop :=
  ∀ i r j s, t.get? i = some r → t.get? j = some s → key r ≠ none → key r = key s → i = j

/-- A unique index can be checked: there are finitely many pairs of rows. -/
instance {κ : Type v} [DecidableEq κ] (t : Table ρ) (key : ρ → Option κ) :
    Decidable (t.UniqueOn key) :=
  decidable_of_iff
    (∀ e ∈ t.rows, ∀ e' ∈ t.rows, key e.2 ≠ none → key e.2 = key e'.2 → e.1 = e'.1)
    ⟨fun h i r j s hr hs => h (i, r) (mem_rows.mpr hr) (j, s) (mem_rows.mpr hs),
     fun h e he e' he' => h e.1 e.2 e'.1 e'.2 (mem_rows.mp he) (mem_rows.mp he')⟩

/-- An empty table violates no unique index. -/
theorem uniqueOn_empty {κ : Type v} (key : ρ → Option κ) : (empty : Table ρ).UniqueOn key := by
  intro i r j s hr
  rw [get?_empty] at hr
  cases hr

/-- An update that leaves the indexed columns of the rows it selects alone keeps the index. -/
theorem UniqueOn.modify {κ : Type v} {t : Table ρ} {key : ρ → Option κ} (h : t.UniqueOn key)
    {p : ℕ → ρ → Bool} {f : ρ → ρ}
    (hf : ∀ k r, t.get? k = some r → p k r = true → key (f r) = key r) :
    (t.modify p f).UniqueOn key := by
  have hkey : ∀ k r, t.get? k = some r → key (if p k r then f r else r) = key r := by
    intro k r hr; split
    · rename_i hp; exact hf k r hr hp
    · rfl
  intro i r j s hr hs hne heq
  rw [get?_modify, Option.map_eq_some_iff] at hr hs
  obtain ⟨r₀, hr₀, rfl⟩ := hr
  obtain ⟨s₀, hs₀, rfl⟩ := hs
  rw [hkey i r₀ hr₀] at hne heq
  rw [hkey j s₀ hs₀] at heq
  exact h i r₀ j s₀ hr₀ hs₀ hne heq

/-- An update of one row keeps the index when no other row has its new key value. -/
theorem UniqueOn.alter {κ : Type v} {t : Table ρ} {key : ρ → Option κ} (h : t.UniqueOn key)
    {k : ℕ} {r : ρ} {f : ρ → ρ} (hr : t.get? k = some r)
    (hfree : ∀ j s, j ≠ k → t.get? j = some s → key s ≠ key (f r)) :
    (t.alter k f).UniqueOn key := by
  intro i a j b ha hb hne heq
  rcases cases_of_get?_alter hr ha with ⟨hi, rfl⟩ | ⟨hi, ha⟩ <;>
    rcases cases_of_get?_alter hr hb with ⟨hj, rfl⟩ | ⟨hj, hb⟩
  · rw [hi, hj]
  · exact absurd heq.symm (hfree j b hj hb)
  · exact absurd heq (hfree i a hi ha)
  · exact h i a j b ha hb hne heq

/-- A new row keeps the index when no stored row has its key value. -/
theorem UniqueOn.push {κ : Type v} {t : Table ρ} {key : ρ → Option κ} (h : t.UniqueOn key) {r : ρ}
    (hr : ∀ j s, t.get? j = some s → key s ≠ key r) : (t.push r).UniqueOn key := by
  intro i a j b ha hb hne heq
  rw [get?_push] at ha hb
  split at ha <;> split at hb
  · rename_i hi hj; rw [hi, hj]
  · cases ha; exact absurd heq.symm (hr j b hb)
  · cases hb; exact absurd heq (hr i a ha)
  · exact h i a j b ha hb hne heq

/-- A new row without a key value keeps the index. -/
theorem UniqueOn.push_none {κ : Type v} {t : Table ρ} {key : ρ → Option κ} (h : t.UniqueOn key)
    {r : ρ} (hr : key r = none) : (t.push r).UniqueOn key := by
  intro i a j b ha hb hne heq
  rw [get?_push] at ha hb
  split at ha
  · cases ha; exact absurd hr hne
  · split at hb
    · cases hb; rw [heq] at hne; exact absurd hr hne
    · exact h i a j b ha hb hne heq

end Table

end Relational
