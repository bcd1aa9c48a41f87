import Mathlib.Logic.Relation

namespace Relational

/-!
# Transactions

A transaction over a state is a program that either commits, with a result and the state it
leaves, or aborts with an error.  An aborted transaction has no effect at all, so the state
is lost on an error and `commit` falls back to the state before.

A program that cannot fail is described by its run, `x.run s = .ok (a, s')`; `run_bind_of_ok`
composes such descriptions, and `run_bind_ok` takes a committed run apart.
-/

/-- Programs over the state `σ` that commit with a result or abort with an error. -/
abbrev Txn (ε σ α : Type) := StateT σ (Except ε) α

namespace Txn

variable {ε σ α β : Type}

/-- A sequence commits exactly when both of its parts do, one after the other. -/
theorem run_bind_ok {x : Txn ε σ α} {f : α → Txn ε σ β} {s s' : σ} {b : β} :
    (x >>= f).run s = .ok (b, s') ↔ ∃ a s₁, x.run s = .ok (a, s₁) ∧ (f a).run s₁ = .ok (b, s') := by
  rw [StateT.run_bind]
  constructor
  · intro h
    cases hx : x.run s with
    | error e => rw [hx] at h; cases h
    | ok p => rw [hx] at h; exact ⟨p.1, p.2, rfl, h⟩
  · rintro ⟨a, s₁, hx, hf⟩
    rw [hx]; exact hf

/-- The rest of a sequence runs from the state that its first part left. -/
theorem run_bind_of_ok {x : Txn ε σ α} {f : α → Txn ε σ β} {s s₁ : σ} {a : α}
    (h : x.run s = .ok (a, s₁)) : (x >>= f).run s = (f a).run s₁ := by
  rw [StateT.run_bind, h]
  rfl

/-- A pure result commits and leaves the state. -/
theorem run_pure_ok {a b : α} {s s' : σ} :
    (pure a : Txn ε σ α).run s = .ok (b, s') ↔ b = a ∧ s' = s := by
  rw [StateT.run_pure]
  exact ⟨fun h => by cases h; exact ⟨rfl, rfl⟩, fun ⟨h, h'⟩ => by rw [h, h']; rfl⟩

/-- The state that a transaction leaves behind: rolled back when it aborts. -/
def commit (x : Txn ε σ α) (s : σ) : σ :=
  match x.run s with
  | .ok (_, s') => s'
  | .error _ => s

/-- What a committed transaction returns. -/
def result (x : Txn ε σ α) (s : σ) : Option α :=
  match x.run s with
  | .ok (a, _) => some a
  | .error _ => none

/-- The result and the final state of a transaction that commits. -/
theorem commit_of_run {x : Txn ε σ α} {s s' : σ} {a : α} (h : x.run s = .ok (a, s')) :
    x.commit s = s' ∧ x.result s = some a := by
  simp [commit, result, h]

/-- A transaction either commits its run or leaves the state as it was. -/
theorem commit_cases (x : Txn ε σ α) (s : σ) :
    (∃ a, x.run s = .ok (a, x.commit s) ∧ x.result s = some a) ∨
      (x.commit s = s ∧ x.result s = none) := by
  unfold commit result
  cases h : x.run s with
  | error e => exact Or.inr ⟨rfl, rfl⟩
  | ok p => exact Or.inl ⟨p.1, rfl, rfl⟩

/-- Transactions that run alike from a state commit alike there. -/
theorem commit_congr {x y : Txn ε σ α} {s : σ} (h : x.run s = y.run s) :
    x.commit s = y.commit s := by
  unfold commit
  rw [h]

/-- What a sequence returns has no part in the state it leaves. -/
theorem commit_bind_pure {γ : Type} (x : Txn ε σ α) (f : α → Txn ε σ β) (g : α → β → γ) (s : σ) :
    (x >>= fun a => f a >>= fun b => pure (g a b)).commit s = (x >>= f).commit s := by
  cases hx : x.run s with
  | error e =>
    unfold commit
    rw [StateT.run_bind, StateT.run_bind, hx]
    rfl
  | ok p =>
    obtain ⟨a, s₁⟩ := p
    unfold commit
    rw [run_bind_of_ok hx, run_bind_of_ok hx, StateT.run_bind]
    cases (f a).run s₁ with
    | error e => rfl
    | ok q => rfl

/-- A loop over programs that cannot fail acts as the fold of their effects on a view. -/
theorem forM_run {ν : Type} (view : σ → ν) {f : α → Txn ε σ PUnit} {g : ν → α → ν}
    (hf : ∀ a s, ∃ s', (f a).run s = .ok (⟨⟩, s') ∧ view s' = g (view s) a) (l : List α) (s : σ) :
    ∃ s', (forM l f).run s = .ok (⟨⟩, s') ∧ view s' = l.foldl g (view s) := by
  induction l generalizing s with
  | nil => exact ⟨s, rfl, rfl⟩
  | cons a l ih =>
    obtain ⟨s₁, h₁, hv₁⟩ := hf a s
    obtain ⟨s₂, h₂, hv₂⟩ := ih s₁
    refine ⟨s₂, ?_, ?_⟩
    · rw [List.forM_cons, run_bind_of_ok h₁, h₂]
    · rw [hv₂, hv₁, List.foldl_cons]

/-! ### What every committed run does -/

/-- Every committed run of the program relates the states around it. -/
def Within (R : σ → σ → Prop) (x : Txn ε σ α) : Prop :=
  ∀ s a s', x.run s = .ok (a, s') → R s s'

section

variable {R : σ → σ → Prop}

/-- A transaction that only returns something is within every reflexive relation. -/
theorem within_pure (hr : ∀ s, R s s) (a : α) : (pure a : Txn ε σ α).Within R := by
  intro s b s' h
  obtain ⟨_, rfl⟩ := run_pure_ok.mp h
  exact hr _

/-- A transaction in two parts is within a relation when each part is, whatever the first one
    returns. -/
theorem Within.bind (ht : ∀ s₁ s₂ s₃, R s₁ s₂ → R s₂ s₃ → R s₁ s₃) {x : Txn ε σ α}
    {f : α → Txn ε σ β} (hx : x.Within R) (hf : ∀ a, (f a).Within R) : (x >>= f).Within R := by
  intro s b s' h
  obtain ⟨a, s₁, h₁, h₂⟩ := run_bind_ok.mp h
  exact ht _ _ _ (hx s a s₁ h₁) (hf a s₁ b s' h₂)

/-- So is a loop, by induction on what it runs through. -/
theorem Within.forM (hr : ∀ s, R s s) (ht : ∀ s₁ s₂ s₃, R s₁ s₂ → R s₂ s₃ → R s₁ s₃)
    {f : α → Txn ε σ PUnit} (hf : ∀ a, (f a).Within R) (l : List α) :
    (forM l f).Within R := by
  induction l with
  | nil => exact within_pure hr _
  | cons a l ih =>
    rw [List.forM_cons]
    exact (hf a).bind ht fun _ => ih

/-- A transaction relates the state before it to the one after it, also when it aborts. -/
theorem Within.commit (hr : ∀ s, R s s) {x : Txn ε σ α} (hx : x.Within R) (s : σ) :
    R s (x.commit s) := by
  rcases commit_cases x s with ⟨a, h, _⟩ | ⟨h, _⟩
  · exact hx s a _ h
  · rw [h]
    exact hr s

end

end Txn

end Relational
