import SmartDialer.Lib.Run
import Mathlib.Data.List.Induction

namespace Relational

/-!
# Countdowns

A timer that an event sets to `N`, also while it is running, and that every tick, the one of the
event included, counts down by one.  `lt_run_countdown`: after a history of ticks the timer
stands above `m` when some event in it is less than `N - m` ticks away from the tick to come.
-/

/-- One tick of a timer, with or without the event that sets it. -/
def countdown (N c : ℕ) (event : Bool) : ℕ := (if event then N else c) - 1

/-- **Window.** The timer after a history of ticks, by the events in it. -/
theorem lt_run_countdown (N : ℕ) (events : List Bool) (m : ℕ) :
    m < run (countdown N) 0 events ↔
      ∃ j, events[j]? = some true ∧ events.length + m < j + N := by
  induction events using List.reverseRecOn generalizing m with
  | nil => simp
  | append_singleton events b ih =>
    rw [run_concat, List.length_append, List.length_singleton]
    cases b with
    | true =>
      -- the last event is the nearest one, and it has just used up one tick
      show m < N - 1 ↔ _
      constructor
      · intro h
        exact ⟨events.length, by simp, by omega⟩
      · rintro ⟨j, hj, hN⟩
        have hlt := (List.getElem?_eq_some_iff.mp hj).1
        rw [List.length_append, List.length_singleton] at hlt
        omega
    | false =>
      show m < run (countdown N) 0 events - 1 ↔ _
      have hev : ∀ j : ℕ, (events ++ [false])[j]? = some true ↔ events[j]? = some true := by
        intro j
        rw [List.getElem?_append]
        split
        · rfl
        · rename_i hj
          rw [List.getElem?_eq_none (by omega : events.length ≤ j)]
          cases hk : j - events.length <;> simp
      simp only [hev]
      rw [Nat.lt_sub_iff_add_lt, ih (m + 1)]
      simp only [show events.length + (m + 1) = events.length + 1 + m by omega]

end Relational
