import OpenGauss.Types.NumericDecoding

/-! Which NUMERIC values are read into a decimal: those whose groups, as one whole
number, have a place in its mantissa. -/

set_option autoImplicit false

namespace OpenGauss.Types

open Protocol

/-- The groups as a whole number fit into 96 bits, and no more than seven of them
stand behind the decimal point. -/
def Numeric.FitsDecimal (numeric : Numeric) : Prop :=
  numeric.whole = 0 ∨
    numeric.whole * 10000 ^ (numeric.weight - numeric.groups.length + 1).toNat < 2 ^ 96 ∧
      4 * ((numeric.groups.length : Int) - 1 - numeric.weight) ≤ 28

namespace Decimal

theorem tryFrom_ok_iff {package : Package} (documented : package.DocumentedFully)
    (mantissa scale : Nat) :
    (∃ value, package.tryFromI128WithScale mantissa scale = .ok value) ↔
      mantissa < 2 ^ 96 ∧ scale ≤ 28 := by
  constructor
  · intro made
    obtain ⟨value, made⟩ := made
    obtain ⟨-, rfl, rfl⟩ := tryFromI128WithScale_value documented made
    exact ⟨value.mantissa_lt, value.scale_le⟩
  · intro fits
    exact ⟨⟨false, mantissa, scale, fits.1, fits.2⟩,
      documented.inRange ⟨false, mantissa, scale, fits.1, fits.2⟩ (by simp [signedMantissa])⟩

/-- A whole number and its place make a mantissa that an `i128` holds, or none. -/
theorem scaleWhole_eq {whole : Nat} (some : whole ≠ 0) (adjust : Int) :
    scaleWhole whole adjust =
      if whole * 10000 ^ adjust.toNat ≤ i128Max then
        .ok ((whole * 10000 ^ adjust.toNat : Nat), (4 * -adjust).toNat)
      else .error tooLarge := by
  have largest : i128Max < 2 ^ 128 := by decide
  rw [scaleWhole]
  split
  · next above =>
      have exponent : (4 * adjust).toNat = 4 * adjust.toNat := by omega
      have factor : 10 ^ (4 * adjust).toNat = 10000 ^ adjust.toNat := by
        rw [exponent, Nat.pow_mul]
      have scale : (4 * -adjust).toNat = 0 := by omega
      have least : 10000 ^ adjust.toNat ≤ whole * 10000 ^ adjust.toNat :=
        Nat.le_mul_of_pos_left _ (Nat.pos_of_ne_zero some)
      dsimp only
      rw [factor, scale]
      by_cases fits : whole * 10000 ^ adjust.toNat ≤ i128Max
      · rw [if_pos fits, if_neg (by omega), if_neg (by omega), if_neg (by omega), Nat.cast_mul]
      · rw [if_neg fits, if_pos (Nat.lt_of_not_le fits)]
        split
        · rfl
        split <;> rfl
  · next notAbove =>
      have none : adjust.toNat = 0 := by omega
      rw [none, Nat.pow_zero, Nat.mul_one]
      split
      · next below =>
          by_cases fits : whole ≤ i128Max
          · rw [if_pos fits, if_neg (Nat.not_lt.mpr fits)]
          · rw [if_neg fits, if_pos (Nat.lt_of_not_le fits)]
      · next notBelow =>
          have zero : adjust = 0 := by omega
          rw [zero]
          by_cases fits : whole ≤ i128Max
          · rw [if_pos fits, if_neg (Nat.not_lt.mpr fits)]
            rfl
          · rw [if_neg fits, if_pos (Nat.lt_of_not_le fits)]

theorem fromGroups_ok_iff {package : Package} (documented : package.DocumentedFully)
    (digits : List Nat) (weight : Int) (sign dscale : Nat) :
    (∃ decimal, fromGroups package digits weight sign dscale = .ok decimal) ↔
      Nat.ofDigits 10000 digits.reverse = 0 ∨
        Nat.ofDigits 10000 digits.reverse * 10000 ^ (weight - digits.length + 1).toNat < 2 ^ 96 ∧
          4 * ((digits.length : Int) - 1 - weight) ≤ 28 := by
  rcases accumulate_cases digits with ⟨read, narrow⟩ | ⟨overflowed, wide⟩
  · have empty : digits.length = 0 → Nat.ofDigits 10000 digits.reverse = 0 := by
      intro none
      rw [List.length_eq_zero_iff.mp none]
      rfl
    generalize Nat.ofDigits 10000 digits.reverse = whole at read empty
    rw [fromGroups, read]
    simp only [bind, Except.bind]
    by_cases zero : whole = 0
    · rw [if_pos (Or.inr zero)]
      exact ⟨fun _ => .inl zero, fun _ => ⟨_, rfl⟩⟩
    · have nonempty : ¬(digits.length = 0 ∨ whole = 0) := fun nothing => zero (nothing.elim empty id)
      rw [if_neg nonempty, scaleWhole_eq zero]
      have scale : (4 * -(weight - digits.length + 1)).toNat ≤ 28 ↔
          4 * ((digits.length : Int) - 1 - weight) ≤ 28 := by omega
      rw [← scale, ← tryFrom_ok_iff documented, or_iff_right zero]
      generalize whole * 10000 ^ (weight - digits.length + 1).toNat = mantissa
      by_cases fits : mantissa ≤ i128Max
      · rw [if_pos fits]
        dsimp only
        cases made : package.tryFromI128WithScale mantissa
          (4 * -(weight - digits.length + 1)).toNat with
        | ok value => exact ⟨fun _ => ⟨value, rfl⟩, fun _ => ⟨_, rfl⟩⟩
        | error message =>
            constructor <;> intro read <;> obtain ⟨_, read⟩ := read <;> cases read
      · rw [if_neg fits]
        obtain ⟨message, made⟩ := documented.tooWide mantissa
          (4 * -(weight - digits.length + 1)).toNat (by
            rw [i128Max] at fits
            omega)
        rw [made]
        constructor <;> intro read <;> obtain ⟨_, read⟩ := read <;> cases read
  · have failed : fromGroups package digits weight sign dscale = .error .overflow :=
      fromGroups_overflow_iff.mpr wide
    rw [failed]
    constructor
    · intro read
      obtain ⟨_, read⟩ := read
      cases read
    · intro fits
      have power : 1 ≤ 10000 ^ (weight - digits.length + 1).toNat := Nat.pow_pos (by decide)
      have least := Nat.le_mul_of_pos_right (Nat.ofDigits 10000 digits.reverse) power
      omega

/-- A NUMERIC value is read exactly if its groups fit. -/
theorem fromSql_encode_ok_iff {package : Package} (documented : package.DocumentedFully)
    (numeric : Numeric) :
    (∃ decimal, fromSql package numeric.encode = .ok decimal) ↔ numeric.FitsDecimal := by
  have header := fromSql_encodeGroups package numeric.groups numeric.weight
    (if numeric.negative then numericNeg else 0) numeric.dscale numeric.groups_few
    (fun group member => Nat.lt_trans (numeric.groups_lt group member) (by decide))
    numeric.weight_ge numeric.weight_lt (by split <;> decide) (by split <;> decide)
    numeric.dscale_lt
  rw [Numeric.encode, header, fromGroups_ok_iff documented]
  rfl

end Decimal

end OpenGauss.Types
