import Mathlib.Algebra.Field.Basic
import Mathlib.Data.Nat.Digits.Lemmas
import Mathlib.Data.Rat.Cast.Defs
import Mathlib.Tactic.Ring

/-! Positional notation with a weight: the first digit stands at a power of the
base, and each later one at the next lower power. -/

set_option autoImplicit false

namespace OpenGauss.Lib.Positional

/-- The number that digits stand for, the first one at the power `weight`. -/
def sumFrom (base : ℚ) : Int → List Nat → ℚ
  | _, [] => 0
  | weight, digit :: digits => digit * base ^ weight + sumFrom base (weight - 1) digits

/-- The digits as a whole number, moved to where they stand. -/
theorem sumFrom_eq {base : Nat} (positive : 0 < base) (weight : Int) (digits : List Nat) :
    sumFrom base weight digits =
      (Nat.ofDigits base digits.reverse : ℕ) * (base : ℚ) ^ (weight - digits.length + 1) := by
  have nonzero : (base : ℚ) ≠ 0 := by exact_mod_cast Nat.ne_of_gt positive
  induction digits generalizing weight with
  | nil => simp [sumFrom]
  | cons digit digits ih =>
      have first : (base : ℚ) ^ digits.length * (base : ℚ) ^ (weight - (digits.length + 1 : Nat) + 1) =
          (base : ℚ) ^ weight := by
        rw [← zpow_natCast, ← zpow_add₀ nonzero]
        congr 1
        push_cast
        ring
      have exponent : weight - 1 - digits.length + 1 = weight - (digits.length + 1 : Nat) + 1 := by
        push_cast
        ring
      rw [sumFrom, ih, List.reverse_cons, Nat.ofDigits_append, Nat.ofDigits_singleton,
        List.length_reverse, List.length_cons, exponent, ← first]
      push_cast
      ring

end OpenGauss.Lib.Positional
