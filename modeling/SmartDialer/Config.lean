import SmartDialer.Lib.Rounding

namespace SmartDialer

open Numeric

/-!
# `config.py`

The limits of the safety controller.  A `SafetyLimits` can only be what the constructor makes of
its arguments, so it carries what `__post_init__` establishes.
-/

/-- The arguments of `SafetyLimits(…)`. -/
structure SafetyLimits.Args where
  max_overdial_ratio : ℚ
  abs_max_overdial_ratio : ℚ
  max_abandon_rate : ℚ
  min_samples_for_predictive : ℤ
  ringing_hard_cap : ℤ
  cooldown_ticks_after_breach : ℤ
  deriving DecidableEq, Repr

/-- The default values of the arguments. -/
def SafetyLimits.Args.default (fl : Rounding) : SafetyLimits.Args where
  max_overdial_ratio := 3 / 2
  abs_max_overdial_ratio := 2
  max_abandon_rate := fl (3 / 100)
  min_samples_for_predictive := 30
  ringing_hard_cap := 500
  cooldown_ticks_after_breach := 40

/-- The limits as the controller reads them: the arguments after `__post_init__`, with what its two
    clamps establish. -/
structure SafetyLimits (fl : Rounding) extends SafetyLimits.Args where
  overdial_clamped : max_overdial_ratio ≤ abs_max_overdial_ratio
  abandon_clamped : max_abandon_rate ≤ fl (5 / 100)

/-- `__post_init__`: the two clamps. -/
def SafetyLimits.new (fl : Rounding) (args : SafetyLimits.Args) : SafetyLimits fl where
  toArgs := { args with
    max_overdial_ratio := min args.max_overdial_ratio args.abs_max_overdial_ratio
    max_abandon_rate := min args.max_abandon_rate (fl (5 / 100)) }
  overdial_clamped := min_le_right _ _
  abandon_clamped := min_le_right _ _

/-- Every value is what the constructor makes of its own fields. -/
theorem SafetyLimits.new_toArgs {fl : Rounding} (limits : SafetyLimits fl) :
    SafetyLimits.new fl limits.toArgs = limits := by
  obtain ⟨args, h₁, h₂⟩ := limits
  simp only [SafetyLimits.new, min_eq_left h₁, min_eq_left h₂]

end SmartDialer
