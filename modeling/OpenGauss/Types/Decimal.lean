import OpenGauss.Protocol.Backend
import Mathlib.Data.Nat.Digits.Lemmas
import Mathlib.Data.Rat.Cast.Defs
import Mathlib.Algebra.Order.Field.Basic
import Mathlib.Tactic.FieldSimp

/-! NUMERIC values of `rust_decimal::Decimal` (`opengauss-types`,
`rust_decimal_1.rs`). -/

set_option autoImplicit false

namespace OpenGauss.Types

open Protocol

/-- `rust_decimal::Decimal`: a sign, a 96-bit mantissa and a scale. -/
structure Decimal where
  negative : Bool
  mantissa : Nat
  scale : Nat
  mantissa_lt : mantissa < 2 ^ 96
  scale_le : scale ≤ 28
  deriving DecidableEq, Repr

namespace Decimal

def zero : Decimal := ⟨false, 0, 0, by decide, by decide⟩

def isZero (decimal : Decimal) : Bool := decimal.mantissa == 0

/-- `Decimal::mantissa`, with its sign. -/
def signedMantissa (decimal : Decimal) : Int :=
  if decimal.negative then -(decimal.mantissa : Int) else decimal.mantissa

/-- The number a decimal stands for. -/
def value (decimal : Decimal) : ℚ := decimal.signedMantissa / 10 ^ decimal.scale

def setSignNegative (decimal : Decimal) (negative : Bool) : Decimal := { decimal with negative }

/-- The functions of the `rust_decimal` package that `from_sql` calls. -/
structure Package where
  tryFromI128WithScale : Int → Nat → Except String Decimal
  rescale : Decimal → Nat → Decimal

/-- What the package documents about them: a mantissa and a scale in range make
the decimal they describe, a wider mantissa is an error, and `rescale` keeps the
number and its sign whenever the new scale can hold it. -/
structure Package.Documented (package : Package) : Prop where
  inRange : ∀ decimal : Decimal, decimal.negative = decide (decimal.signedMantissa < 0) →
    package.tryFromI128WithScale decimal.signedMantissa decimal.scale = .ok decimal
  tooWide : ∀ (mantissa : Int) (scale : Nat), 2 ^ 96 ≤ mantissa.natAbs →
    ∃ message, package.tryFromI128WithScale mantissa scale = .error message
  rescaleKeeps : ∀ decimal rescaled : Decimal, rescaled.negative = decimal.negative →
    rescaled.value = decimal.value → package.rescale decimal rescaled.scale = rescaled

/-- Why a conversion ends without a value. -/
inductive Failure where
  | message (text : String)
  /-- An arithmetic operation leaves its integer type. -/
  | overflow
  deriving DecidableEq, Repr

def numericNeg : Nat := 0x4000
def numericSpecial : Nat := 0xC000
def numericNan : Nat := 0xC000
def numericPinf : Nat := 0xD000
def numericNinf : Nat := 0xF000

def i128Max : Nat := 2 ^ 127 - 1

/-- Reading a 16-bit word as `i16`. -/
def asI16 (word : Nat) : Int :=
  if word < 2 ^ 15 then word else word - 2 ^ 16

/-- Two big-endian bytes. -/
def be16 (word : Nat) : Bytes := [UInt8.ofNat (word / 2 ^ 8), UInt8.ofNat word]

/-! ### Reading -/

/-- The message for a special value. -/
def specialMessage (sign : Nat) : String :=
  if sign = numericNan then "NaN is not supported for rust_decimal::Decimal"
  else if sign = numericPinf then "+Infinity is not supported for rust_decimal::Decimal"
  else if sign = numericNinf then "-Infinity is not supported for rust_decimal::Decimal"
  else "unknown special numeric value"

/-- The first `count` digit groups; the length has been checked. -/
def readGroups : Nat → Bytes → List Nat
  | count + 1, high :: low :: rest => beNat [high, low] :: readGroups count rest
  | _, _ => []

/-- The loop over the digits, in `u128`. -/
def accumulate : Nat → List Nat → Except Failure Nat
  | whole, [] => .ok whole
  | whole, digit :: digits =>
      if whole * 10000 + digit < 2 ^ 128 then accumulate (whole * 10000 + digit) digits
      else .error .overflow

def tooLarge : Failure := .message "numeric value too large for rust_decimal::Decimal"

/-- The mantissa and the scale of `whole * 10000 ^ adjust`. -/
def scaleWhole (whole : Nat) (adjust : Int) : Except Failure (Int × Nat) :=
  if 0 < adjust then
    let factor := 10 ^ (4 * adjust).toNat
    if 2 ^ 128 ≤ factor then .error tooLarge
    else if 2 ^ 128 ≤ whole * factor then .error tooLarge
    else if i128Max < whole * factor then .error tooLarge
    else .ok (whole * factor, 0)
  else if adjust < 0 then
    if i128Max < whole then .error tooLarge
    else .ok (whole, (4 * -adjust).toNat)
  else
    if i128Max < whole then .error tooLarge
    else .ok (whole, 0)

/-- `if sign == NUMERIC_NEG { value.set_sign_negative(true) }`. -/
def applySign (decimal : Decimal) (sign : Nat) : Decimal :=
  if sign = numericNeg then decimal.setSignNegative true else decimal

/-- `from_sql` after the header and the groups have been read. -/
def fromGroups (package : Package) (digits : List Nat) (weight : Int) (sign dscale : Nat) :
    Except Failure Decimal := do
  let whole ← accumulate 0 digits
  if digits.length = 0 ∨ whole = 0 then
    return package.rescale (zero.applySign sign) dscale
  else
    let (mantissa, scale) ← scaleWhole whole (weight - digits.length + 1)
    match package.tryFromI128WithScale mantissa scale with
    | .error message => throw (.message message)
    | .ok value => return package.rescale (value.applySign sign) dscale

def fromSql (package : Package) (raw : Bytes) : Except Failure Decimal :=
  match raw with
  | n₁ :: n₀ :: w₁ :: w₀ :: s₁ :: s₀ :: d₁ :: d₀ :: rest =>
      let numGroups := beNat [n₁, n₀]
      let weight := asI16 (beNat [w₁, w₀])
      let sign := beNat [s₁, s₀]
      let dscale := beNat [d₁, d₀]
      if sign &&& numericSpecial = numericSpecial then .error (.message (specialMessage sign))
      else if rest.length < numGroups * 2 then .error (.message "numeric value truncated")
      else fromGroups package (readGroups numGroups rest) weight sign dscale
  | _ => .error (.message "numeric value requires at least 8 bytes")

/-! ### Writing -/

/-- The `while m > 0` loop. A `u128` has at most ten groups. -/
def digitsLsb : Nat → Nat → List Nat
  | 0, _ => []
  | fuel + 1, m => if m = 0 then [] else m % 10000 :: digitsLsb fuel (m / 10000)

/-- Popping zero groups after the decimal point, on the groups in the order
before their reversal: the last group of the reversed list is the first one. -/
def trimGroups (integerGroups : Nat) : List Nat → List Nat
  | [] => []
  | digit :: digits =>
      if integerGroups < digits.length + 1 ∧ digit = 0 then trimGroups integerGroups digits
      else digit :: digits

/-- The header and the groups as they are written. -/
def encodeGroups (digits : List Nat) (weight : Int) (sign dscale : Nat) : Bytes :=
  be16 digits.length ++ be16 (weight % 2 ^ 16).toNat ++ be16 sign ++ be16 dscale ++
    digits.flatMap be16

def alignedMantissa (decimal : Decimal) : Nat :=
  if decimal.scale % 4 = 0 then decimal.mantissa
  else decimal.mantissa * 10 ^ (4 - decimal.scale % 4)

/-- The digit groups of the aligned mantissa, the last one first. -/
def groupsLsb (decimal : Decimal) : List Nat := digitsLsb 10 decimal.alignedMantissa

/-- `scale_ceil4`: the number of groups after the decimal point. -/
def fractionGroups (decimal : Decimal) : Nat := (decimal.scale + 3) / 4

def weight (decimal : Decimal) : Int := decimal.groupsLsb.length - decimal.fractionGroups - 1

def integerGroups (decimal : Decimal) : Nat :=
  if -1 ≤ decimal.weight then (decimal.weight + 1).toNat else 0

def toSql (decimal : Decimal) : Except Failure Bytes :=
  if decimal.isZero then .ok [0, 0, 0, 0, 0, 0, 0, 0]
  else if 2 ^ 128 ≤ decimal.alignedMantissa then
    .error (.message "numeric value overflow during encoding")
  else
    .ok (encodeGroups (trimGroups decimal.integerGroups decimal.groupsLsb).reverse decimal.weight
      (if decimal.negative then numericNeg else 0) decimal.scale)

end Decimal

end OpenGauss.Types
