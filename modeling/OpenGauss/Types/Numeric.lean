import OpenGauss.Lib.Positional
import OpenGauss.Types.Decimal

/-! NUMERIC values as the server has them. -/

set_option autoImplicit false

namespace OpenGauss.Types

open Protocol Lib.Positional

/-- A NUMERIC value that is not a special one: groups of four decimal digits,
the first one at the power `weight` of 10000. -/
structure Numeric where
  groups : List Nat
  weight : Int
  negative : Bool
  dscale : Nat
  groups_lt : ∀ group ∈ groups, group < 10000
  groups_few : groups.length < 2 ^ 16
  weight_ge : -2 ^ 15 ≤ weight
  weight_lt : weight < 2 ^ 15
  dscale_lt : dscale < 2 ^ 16
  deriving DecidableEq, Repr

namespace Numeric

def value (numeric : Numeric) : ℚ :=
  (if numeric.negative then -1 else 1) * sumFrom 10000 numeric.weight numeric.groups

def encode (numeric : Numeric) : Bytes :=
  Decimal.encodeGroups numeric.groups numeric.weight
    (if numeric.negative then Decimal.numericNeg else 0) numeric.dscale

/-- No digit behind the decimal point is beyond the scale, except zeros. -/
def ScaleCovers (numeric : Numeric) : Prop :=
  ∃ units : Int, numeric.value * 10 ^ numeric.dscale = units

/-- The groups as one whole number. -/
def whole (numeric : Numeric) : Nat := Nat.ofDigits 10000 numeric.groups.reverse

theorem value_eq (numeric : Numeric) :
    numeric.value = (if numeric.negative then -1 else 1) *
      (numeric.whole * 10000 ^ (numeric.weight - numeric.groups.length + 1)) := by
  have sum := @sumFrom_eq 10000 (by decide) numeric.weight numeric.groups
  have base : ((10000 : ℕ) : ℚ) = 10000 := rfl
  rw [base] at sum
  rw [value, sum, whole]

end Numeric

end OpenGauss.Types
