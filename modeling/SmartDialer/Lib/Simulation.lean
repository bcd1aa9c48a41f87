import SmartDialer.Lib.Run
import Mathlib.Logic.Relation

namespace Relational

/-!
# Simulation by guarded moves

An abstract machine is a relation `Move x m y` with labels `m`.  `Path Move H` relates the ends
of a sequence of moves each of which meets the condition `H` in the state before it.  A system
simulates the machine along an abstraction `abs` when each of its steps is such a path: one step
may be many moves, or none.

* `Path.invariant`, `Path.related` — what every guarded move keeps, a path keeps.
* `Path.map` — one machine refines another move by move.
* `invariant_of_simulation`, `related_of_simulation` — hence a run of the system keeps it too.
-/

variable {σ α φ μ : Type}

/-- Sequences of moves that meet a condition on the state before each of them. -/
def Path (Move : φ → μ → φ → Prop) (H : φ → μ → Prop) : φ → φ → Prop :=
  Relation.ReflTransGen fun x y => ∃ m, H x m ∧ Move x m y

variable {Move : φ → μ → φ → Prop} {H : φ → μ → Prop}

/-- A path without moves. -/
theorem Path.refl (x : φ) : Path Move H x x := Relation.ReflTransGen.refl

/-- A permitted move is a path. -/
theorem Path.single {x y : φ} {m : μ} (hH : H x m) (h : Move x m y) : Path Move H x y :=
  Relation.ReflTransGen.single ⟨m, hH, h⟩

/-- Paths are put together end to end. -/
theorem Path.trans {x y z : φ} (h₁ : Path Move H x y) (h₂ : Path Move H y z) : Path Move H x z :=
  Relation.ReflTransGen.trans h₁ h₂

/-- What every guarded move keeps, a path keeps. -/
theorem Path.invariant {I : φ → Prop} (hI : ∀ x m y, I x → H x m → Move x m y → I y) {x y : φ}
    (h : Path Move H x y) (hx : I x) : I y := by
  induction h with
  | refl => exact hx
  | tail _ hstep ih =>
    obtain ⟨m, hH, hm⟩ := hstep
    exact hI _ m _ ih hH hm

/-- A reflexive and transitive relation that every guarded move from the invariant keeps relates
    the two ends of a path. -/
theorem Path.related {I : φ → Prop} {R : φ → φ → Prop} (hr : ∀ x, R x x)
    (ht : ∀ x y z, R x y → R y z → R x z) (hI : ∀ x m y, I x → H x m → Move x m y → I y)
    (hR : ∀ x m y, I x → H x m → Move x m y → R x y) {x y : φ} (h : Path Move H x y) (hx : I x) :
    R x y := by
  induction h with
  | refl => exact hr x
  | tail hpath hstep ih =>
    obtain ⟨m, hH, hm⟩ := hstep
    exact ht _ _ _ ih (hR _ m _ (Path.invariant hI hpath hx) hH hm)

/-- **Refinement.** A machine whose guarded moves are paths of another one refines it. -/
theorem Path.map {φ' μ' : Type} {Move' : φ' → μ' → φ' → Prop} {H' : φ' → μ' → Prop} (abs : φ → φ')
    {I : φ → Prop} (hI : ∀ x m y, I x → H x m → Move x m y → I y)
    (hsim : ∀ x m y, I x → H x m → Move x m y → Path Move' H' (abs x) (abs y)) {x y : φ}
    (h : Path Move H x y) (hx : I x) : Path Move' H' (abs x) (abs y) :=
  h.related (R := fun x y => Path Move' H' (abs x) (abs y)) (fun x => .refl (abs x))
    (fun _ _ _ => .trans) hI hsim hx

section

variable {step : σ → α → σ} {abs : σ → φ} {L : σ → Prop} {G : σ → α → Prop}

/-- **Simulation, invariants.** An invariant of the machine holds along every run of a system
    that simulates it. -/
theorem invariant_of_simulation (hL : ∀ s a, L s → G s a → L (step s a))
    (hsim : ∀ s a, L s → G s a → Path Move H (abs s) (abs (step s a))) {I : φ → Prop}
    (hI : ∀ x m y, I x → H x m → Move x m y → I y) {s : σ} {acts : List α} (hs : L s)
    (hx : I (abs s)) (hG : Along step G s acts) : I (abs (run step s acts)) := by
  have hinv := invariant_along (I := fun s => L s ∧ I (abs s))
    (fun s a h hg => ⟨hL s a h.1 hg, (hsim s a h.1 hg).invariant hI h.2⟩) ⟨hs, hx⟩ hG
  exact hinv.2

/-- **Simulation, relations.** A relation that the moves of the machine keep relates the two ends
    of every run of a system that simulates it. -/
theorem related_of_simulation (hL : ∀ s a, L s → G s a → L (step s a))
    (hsim : ∀ s a, L s → G s a → Path Move H (abs s) (abs (step s a))) {I : φ → Prop}
    {R : φ → φ → Prop} (hr : ∀ x, R x x) (ht : ∀ x y z, R x y → R y z → R x z)
    (hI : ∀ x m y, I x → H x m → Move x m y → I y)
    (hR : ∀ x m y, I x → H x m → Move x m y → R x y) {s : σ} {acts : List α} (hs : L s)
    (hx : I (abs s)) (hG : Along step G s acts) : R (abs s) (abs (run step s acts)) := by
  have hrel := related_along (I := fun s => L s ∧ I (abs s))
    (R := fun s s' => R (abs s) (abs s')) (fun s => hr (abs s)) (fun _ _ _ => ht _ _ _)
    (fun s a h hg => ⟨hL s a h.1 hg, (hsim s a h.1 hg).invariant hI h.2⟩)
    (fun s a h hg => (hsim s a h.1 hg).related hr ht hI hR h.2) ⟨hs, hx⟩ hG
  exact hrel

end

end Relational
