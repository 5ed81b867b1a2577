import OpenGauss.Lib.NumeralText

/-! Binary floating-point numbers as they are printed: each finite one stands for
the shortest decimal that is read back as it. -/

set_option autoImplicit false

namespace OpenGauss.Lib

/-- The decimal `±mantissa * 10 ^ exponent`, with the fewest digits. -/
structure Shortest where
  negative : Bool
  mantissa : Nat
  exponent : Int
  normal : mantissa = 0 ∧ exponent = 0 ∨ mantissa % 10 ≠ 0
  deriving DecidableEq, Repr

inductive FloatValue where
  | nan
  | infinite (negative : Bool)
  | finite (digits : Shortest)
  deriving DecidableEq, Repr

namespace FloatValue

/-- `is_finite`. -/
def isFinite : FloatValue → Bool
  | finite _ => true
  | _ => false

/-- The number of a word with a sign, `exponentBits` and `fractionBits`; `shortest`
says how a finite one is printed. -/
def ofBits (exponentBits fractionBits : Nat) (shortest : Nat → Shortest) (bits : Nat) :
    FloatValue :=
  if bits / 2 ^ fractionBits % 2 ^ exponentBits = 2 ^ exponentBits - 1 then
    if bits % 2 ^ fractionBits = 0 then
      infinite (bits / 2 ^ (fractionBits + exponentBits) % 2 == 1)
    else nan
  else finite (shortest bits)

end FloatValue

namespace Shortest

/-- `Display` of the standard library, which never writes an exponent. -/
def display (digits : Shortest) : List Char :=
  Numeral.withSign digits.negative
    (if 0 ≤ digits.exponent then
      Nat.toDigits 10 (digits.mantissa * 10 ^ digits.exponent.toNat)
    else Numeral.fixedPoint digits.mantissa (-digits.exponent).toNat)

end Shortest

/-- `Display` of `f32` and of `f64`. -/
def FloatValue.display : FloatValue → List Char
  | .nan => "NaN".toList
  | .infinite negative => Numeral.withSign negative "inf".toList
  | .finite digits => digits.display

namespace Shortest

theorem ext {digits other : Shortest} (negative : digits.negative = other.negative)
    (mantissa : digits.mantissa = other.mantissa) (exponent : digits.exponent = other.exponent) :
    digits = other := by
  cases digits
  cases other
  cases negative
  cases mantissa
  cases exponent
  rfl

theorem display_eq_fixedPoint (digits : Shortest) :
    digits.display = Numeral.withSign digits.negative
      (Numeral.fixedPoint (digits.mantissa * 10 ^ digits.exponent.toNat)
        (-digits.exponent).toNat) := by
  rw [display]
  split
  · next whole =>
      have none : (-digits.exponent).toNat = 0 := by omega
      rw [none, Numeral.fixedPoint, if_pos rfl, List.append_nil, Nat.pow_zero, Nat.div_one]
  · next fraction =>
      have none : digits.exponent.toNat = 0 := by omega
      rw [none, Nat.pow_zero, Nat.mul_one]

/-- The zeros at the end of a number, up to a bound. -/
def trailingZeros : Nat → Nat → Nat
  | 0, _ => 0
  | bound + 1, number => if number % 10 = 0 then trailingZeros bound (number / 10) + 1 else 0

theorem trailingZeros_spec {bound number : Nat} (some : number ≠ 0) (few : number ≤ bound) :
    number = number / 10 ^ trailingZeros bound number * 10 ^ trailingZeros bound number ∧
      number / 10 ^ trailingZeros bound number % 10 ≠ 0 := by
  induction bound generalizing number with
  | zero => exact absurd (Nat.eq_zero_of_le_zero few) some
  | succ bound ih =>
      rw [trailingZeros]
      split
      · next zero =>
          obtain ⟨whole, last⟩ := @ih (number / 10) (by omega) (by omega)
          rw [Nat.pow_succ, Nat.mul_comm _ 10, ← Nat.div_div_eq_div_mul]
          refine ⟨?_, last⟩
          rw [Nat.mul_left_comm, ← whole]
          omega
      · next last =>
          rw [Nat.pow_zero, Nat.div_one, Nat.mul_one]
          exact ⟨rfl, last⟩

/-- A decimal without the zeros at its end. -/
def ofDecimal (negative : Bool) (mantissa : Nat) (exponent : Int) : Shortest :=
  if zero : mantissa = 0 then ⟨negative, 0, 0, .inl ⟨rfl, rfl⟩⟩
  else
    ⟨negative, mantissa / 10 ^ trailingZeros mantissa mantissa,
      exponent + trailingZeros mantissa mantissa,
      .inr (trailingZeros_spec zero (Nat.le_refl mantissa)).2⟩

end Shortest

end OpenGauss.Lib
