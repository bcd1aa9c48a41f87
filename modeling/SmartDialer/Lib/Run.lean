import Mathlib.Data.List.Basic

namespace Relational

/-!
# Runs of a transition system

A system is given by a total step function `step : σ → α → σ`; an action that is not enabled
leaves the state as it is.  A run is the fold of the step function over a list of actions, so
every interleaving of the parties' actions is a list, and every reachable state the end of one.

* `invariant_run`: what the initial state has and every step keeps, every reachable state has.
* `Along G s acts`: every step of the run from `s` meets the condition `G`, evaluated in the
  state before the step; `invariant_along` is the induction for runs under such a condition.
* `Reaches`: what such a run reaches; `Reaches.append` puts runs together.
* `forall_prefix_iff_along`: when such a condition decides each step, it decides whole runs;
  `observed_iff_along` is the same for a property that need not be inductive.
* `related_run`: a reflexive and transitive relation kept by every step relates the two ends
  of a run.
-/

variable {σ α : Type}

/-- The state at the end of a run. -/
def run (step : σ → α → σ) (s : σ) (acts : List α) : σ := acts.foldl step s

variable {step : σ → α → σ}

/-- A run without actions ends where it begins. -/
@[simp] theorem run_nil (s : σ) : run step s [] = s := rfl

/-- The first action of a run is taken first. -/
@[simp] theorem run_cons (s : σ) (a : α) (acts : List α) :
    run step s (a :: acts) = run step (step s a) acts := rfl

/-- Two runs in a row are one run of both their actions. -/
theorem run_append (s : σ) (as bs : List α) :
    run step s (as ++ bs) = run step (run step s as) bs := by
  unfold run
  exact List.foldl_append

/-- The last step of a run. -/
theorem run_concat (s : σ) (as : List α) (a : α) :
    run step s (as ++ [a]) = step (run step s as) a := run_append s as [a]

/-- Every step of a run meets a condition on the state before it and its action. -/
def Along (step : σ → α → σ) (G : σ → α → Prop) : σ → List α → Prop
  | _, [] => True
  | s, a :: acts => G s a ∧ Along step G (step s a) acts

/-- A condition that can be tested in each state can be tested along a run, by making the run. -/
instance decidableAlong {G : σ → α → Prop} [∀ s a, Decidable (G s a)] :
    ∀ (s : σ) (acts : List α), Decidable (Along step G s acts)
  | _, [] => inferInstanceAs (Decidable True)
  | s, a :: acts =>
    have := decidableAlong (G := G) (step s a) acts
    inferInstanceAs (Decidable (G s a ∧ Along step G (step s a) acts))

/-- A condition is met along two runs in a row when it is met along each, the second from where the
    first ends. -/
theorem along_append {G : σ → α → Prop} {s : σ} {as bs : List α} :
    Along step G s (as ++ bs) ↔ Along step G s as ∧ Along step G (run step s as) bs := by
  induction as generalizing s with
  | nil => simp [Along]
  | cons a as ih => simp only [List.cons_append, Along, run_cons, ih, and_assoc]

/-- No condition is met along every run. -/
theorem along_true (s : σ) (acts : List α) : Along step (fun _ _ => True) s acts := by
  induction acts generalizing s with
  | nil => trivial
  | cons a acts ih => exact ⟨trivial, ih (step s a)⟩

/-- A weaker condition is met along the same run. -/
theorem Along.mono {G H : σ → α → Prop} (h : ∀ s a, G s a → H s a) {s : σ} {acts : List α}
    (hG : Along step G s acts) : Along step H s acts := by
  induction acts generalizing s with
  | nil => trivial
  | cons a acts ih => exact ⟨h s a hG.1, ih hG.2⟩

/-- A condition on the actions alone. -/
theorem along_of_forall {P : α → Prop} (s : σ) {acts : List α} (h : ∀ a ∈ acts, P a) :
    Along step (fun _ a => P a) s acts := by
  induction acts generalizing s with
  | nil => trivial
  | cons a acts ih => exact ⟨h a (by simp), ih (step s a) fun b hb => h b (by simp [hb])⟩

/-- Two conditions that are both met along a run. -/
theorem Along.and {G H : σ → α → Prop} {s : σ} {acts : List α} (hG : Along step G s acts)
    (hH : Along step H s acts) : Along step (fun s a => G s a ∧ H s a) s acts := by
  induction acts generalizing s with
  | nil => trivial
  | cons a acts ih => exact ⟨⟨hG.1, hH.1⟩, ih hG.2 hH.2⟩

/-- Conditions that agree on the states with an invariant agree along runs. -/
theorem along_congr {G H : σ → α → Prop} {I : σ → Prop} (hI : ∀ s a, I s → I (step s a))
    (h : ∀ s a, I s → (G s a ↔ H s a)) {s : σ} (hs : I s) (acts : List α) :
    Along step G s acts ↔ Along step H s acts := by
  induction acts generalizing s with
  | nil => exact Iff.rfl
  | cons a acts ih => exact and_congr (h s a hs) (ih (hI s a hs))

/-- **Invariants of conditioned runs.** What every step that meets the condition keeps holds
    at the end of a run whose steps all meet it. -/
theorem invariant_along {G : σ → α → Prop} {I : σ → Prop}
    (hstep : ∀ s a, I s → G s a → I (step s a)) {s : σ} {acts : List α} (hs : I s)
    (hG : Along step G s acts) : I (run step s acts) := by
  induction acts generalizing s with
  | nil => exact hs
  | cons a acts ih => exact ih (hstep s a hs hG.1) hG.2

/-- **Invariants.** What every step keeps holds at the end of every run. -/
theorem invariant_run {I : σ → Prop} (hstep : ∀ s a, I s → I (step s a)) {s : σ} (hs : I s)
    (acts : List α) : I (run step s acts) := by
  induction acts generalizing s with
  | nil => exact hs
  | cons a acts ih => exact ih (hstep s a hs)

/-- **Run relations.** A reflexive and transitive relation kept by every step from a state
    with the invariant relates the two ends of a run. -/
theorem related_run {I : σ → Prop} {R : σ → σ → Prop} (hr : ∀ s, R s s)
    (ht : ∀ a b c, R a b → R b c → R a c) (hI : ∀ s a, I s → I (step s a))
    (hstep : ∀ s a, I s → R s (step s a)) {s : σ} (hs : I s) (acts : List α) :
    R s (run step s acts) := by
  induction acts generalizing s with
  | nil => exact hr s
  | cons a acts ih => exact ht _ _ _ (hstep s a hs) (ih (hI s a hs))

/-- **Safety of runs.** A property holds in every state of a run exactly when every step meets the
    condition that decides whether it is kept. -/
theorem forall_prefix_iff_along {G : σ → α → Prop} {I J : σ → Prop}
    (hI : ∀ s a, I s → I (step s a)) (hstep : ∀ s a, I s → J s → (J (step s a) ↔ G s a)) {s : σ}
    (hs : I s) (hJ : J s) (acts : List α) :
    (∀ pre, pre <+: acts → J (run step s pre)) ↔ Along step G s acts := by
  induction acts generalizing s with
  | nil =>
    refine ⟨fun _ => trivial, fun _ pre hpre => ?_⟩
    rw [List.prefix_nil.mp hpre]
    exact hJ
  | cons a acts ih =>
    constructor
    · intro h
      have hfirst : J (step s a) := h [a] ⟨acts, rfl⟩
      have hrest := (ih (hI s a hs) hfirst).mp fun pre hpre =>
        h (a :: pre) (List.cons_prefix_cons.mpr ⟨rfl, hpre⟩)
      exact ⟨(hstep s a hs hJ).mp hfirst, hrest⟩
    · rintro ⟨hfirst, hrest⟩ pre hpre
      cases pre with
      | nil => exact hJ
      | cons b pre =>
        obtain ⟨rfl, htail⟩ := List.cons_prefix_cons.mp hpre
        have hkeep := (hstep s b hs hJ).mpr hfirst
        exact (ih (hI s b hs) hkeep).mpr hrest pre htail

/-- **Observed safety.** The condition keeps an invariant that entails the property, and where it is
    not met the property shows it. -/
theorem observed_iff_along {G : σ → α → Prop} {I K : σ → Prop}
    (hI : ∀ s a, I s → G s a → I (step s a)) (hK : ∀ s, I s → K s)
    (hG : ∀ s a, I s → K (step s a) → G s a) {s : σ} (hs : I s) (acts : List α) :
    (∀ pre, pre <+: acts → K (run step s pre)) ↔ Along step G s acts := by
  constructor
  · intro h
    induction acts generalizing s with
    | nil => trivial
    | cons a acts ih =>
      have hfirst : G s a := hG s a hs (h [a] ⟨acts, rfl⟩)
      refine ⟨hfirst, ih (hI s a hs hfirst) fun pre hpre => ?_⟩
      exact h (a :: pre) (List.cons_prefix_cons.mpr ⟨rfl, hpre⟩)
  · rintro h pre ⟨post, rfl⟩
    exact hK _ (invariant_along hI hs (along_append.mp h).1)

/-- The state is reached from `s₀` by a run whose steps meet the condition. -/
def Reaches (step : σ → α → σ) (G : σ → α → Prop) (s₀ s : σ) : Prop :=
  ∃ acts, Along step G s₀ acts ∧ run step s₀ acts = s

/-- A state is reached from itself, without an action. -/
theorem Reaches.refl {G : σ → α → Prop} (s : σ) : Reaches step G s s := ⟨[], trivial, rfl⟩

/-- What is reached may go on by any run that meets the condition. -/
theorem Reaches.append {G : σ → α → Prop} {s₀ s : σ} (h : Reaches step G s₀ s) {acts : List α}
    (hG : Along step G s acts) : Reaches step G s₀ (run step s acts) := by
  obtain ⟨before, hbefore, rfl⟩ := h
  exact ⟨before ++ acts, along_append.mpr ⟨hbefore, hG⟩, run_append s₀ before acts⟩

/-- What is reached from what is reached is reached. -/
theorem Reaches.trans {G : σ → α → Prop} {s₀ s s' : σ} (h : Reaches step G s₀ s)
    (h' : Reaches step G s s') : Reaches step G s₀ s' := by
  obtain ⟨acts, hG, rfl⟩ := h'
  exact h.append hG

/-- What holds at the end of all such runs holds in what they reach. -/
theorem Reaches.of_run {G : σ → α → Prop} {P : σ → Prop} {s₀ s : σ} (h : Reaches step G s₀ s)
    (hP : ∀ acts, Along step G s₀ acts → P (run step s₀ acts)) : P s := by
  obtain ⟨acts, hG, rfl⟩ := h
  exact hP acts hG

/-- **Measures.** What is left to do can be done, if it can always be made less. -/
theorem Reaches.descend {G : σ → α → Prop} {I P : σ → Prop} (μ : σ → ℕ)
    (hone : ∀ s, I s → ¬ P s → ∃ s', Reaches step G s s' ∧ I s' ∧ μ s' < μ s) {s : σ}
    (hs : I s) : ∃ s', Reaches step G s s' ∧ I s' ∧ P s' := by
  induction h : μ s using Nat.strongRecOn generalizing s with
  | ind n ih =>
    by_cases hP : P s
    · exact ⟨s, .refl s, hs, hP⟩
    · obtain ⟨s₁, hfirst, hs₁, hlt⟩ := hone s hs hP
      obtain ⟨s', hrest, hs', hP'⟩ := ih (μ s₁) (h ▸ hlt) hs₁ rfl
      exact ⟨s', hfirst.trans hrest, hs', hP'⟩

/-- **Jobs.** If each job can be done without undoing another one, all of them can be done. -/
theorem Reaches.each {κ : Type*} {G : σ → α → Prop} {I : σ → Prop} {Done : σ → κ → Prop}
    (hone : ∀ s k, I s → ∃ s', Reaches step G s s' ∧ I s' ∧ Done s' k ∧ ∀ j, Done s j → Done s' j)
    {s : σ} (hs : I s) (ks : List κ) (hrest : ∀ k, k ∉ ks → Done s k) :
    ∃ s', Reaches step G s s' ∧ I s' ∧ ∀ k, Done s' k := by
  induction ks generalizing s with
  | nil => exact ⟨s, .refl s, hs, fun k => hrest k List.not_mem_nil⟩
  | cons k ks ih =>
    obtain ⟨s₁, hfirst, hs₁, hk, hkeep⟩ := hone s k hs
    obtain ⟨s', hlater, hs', hall⟩ := ih hs₁ fun j hj => by
      by_cases hjk : j = k
      · exact hjk ▸ hk
      · exact hkeep j (hrest j (by simp [hjk, hj]))
    exact ⟨s', hfirst.trans hlater, hs', hall⟩

/-- Run relations under a condition on the steps. -/
theorem related_along {G : σ → α → Prop} {I : σ → Prop} {R : σ → σ → Prop} (hr : ∀ s, R s s)
    (ht : ∀ a b c, R a b → R b c → R a c) (hI : ∀ s a, I s → G s a → I (step s a))
    (hstep : ∀ s a, I s → G s a → R s (step s a)) {s : σ} {acts : List α} (hs : I s)
    (hG : Along step G s acts) : R s (run step s acts) := by
  induction acts generalizing s with
  | nil => exact hr s
  | cons a acts ih => exact ht _ _ _ (hstep s a hs hG.1) (ih (hI s a hs hG.1) hG.2)

end Relational
