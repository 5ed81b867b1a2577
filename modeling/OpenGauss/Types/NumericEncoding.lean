import OpenGauss.Types.DecimalProperties
import OpenGauss.Types.Numeric

/-! What `to_sql` makes of a decimal. -/

set_option autoImplicit false

namespace OpenGauss.Types.Decimal

open Protocol

/-! ### Trimming -/

/-- Trimming stops at a group that is not zero, or at the decimal point. -/
theorem trimGroups_head {integerGroups : Nat} {digits rest : List Nat}
    (trimmed : trimGroups integerGroups digits = 0 :: rest) :
    (trimGroups integerGroups digits).length ≤ integerGroups := by
  induction digits with
  | nil => cases trimmed
  | cons digit digits ih =>
      rw [trimGroups] at trimmed ⊢
      split at trimmed
      · next popping =>
          rw [if_pos popping]
          exact ih trimmed
      · next kept =>
          rw [if_neg kept]
          obtain ⟨rfl, -⟩ := List.cons.inj trimmed
          by_contra above
          exact kept ⟨Nat.lt_of_not_le above, rfl⟩

section Nonzero

variable {decimal : Decimal}

theorem trimmedGroups_ne_nil (nonzero : decimal.mantissa ≠ 0) : decimal.trimmedGroups ≠ [] := by
  intro empty
  obtain ⟨popped, -, written⟩ := trimmedGroups_written nonzero
  have conserved := written.conserved
  rw [empty, Nat.ofDigits_nil, Nat.zero_mul] at conserved
  exact absurd conserved (Nat.ne_of_lt (alignedMantissa_pos nonzero))

/-- The first group that is written is not zero. -/
theorem trimmedGroups_first (nonzero : decimal.mantissa ≠ 0) :
    ∃ first, decimal.trimmedGroups.reverse.head? = some first ∧ first ≠ 0 := by
  obtain ⟨popped, conserved, -⟩ := trimmedGroups_written nonzero
  have filled := trimmedGroups_ne_nil nonzero
  have aligned := Nat.ne_of_gt (alignedMantissa_pos nonzero)
  have digits : Nat.digits 10000 decimal.alignedMantissa ≠ [] :=
    Nat.digits_ne_nil_iff_ne_zero.mpr aligned
  have split : Nat.digits 10000 decimal.alignedMantissa =
      List.replicate popped 0 ++ decimal.trimmedGroups := by
    rw [← groupsLsb_eq_digits, conserved]
  have last : decimal.trimmedGroups.getLast? =
      (Nat.digits 10000 decimal.alignedMantissa).getLast? := by
    rw [split, List.getLast?_append_of_ne_nil _ filled]
  refine ⟨_, ?_, Nat.getLast_digit_ne_zero 10000 aligned⟩
  rw [List.head?_reverse, last]
  exact List.getLast?_eq_some_getLast digits

/-- A group behind the decimal point is the last one only if it is not zero. -/
theorem trimmedGroups_last (nonzero : decimal.mantissa ≠ 0)
    (fraction : decimal.weight + 1 < decimal.trimmedGroups.reverse.length) :
    ∃ last, decimal.trimmedGroups.reverse.getLast? = some last ∧ last ≠ 0 := by
  have filled := trimmedGroups_ne_nil nonzero
  rw [List.length_reverse] at fraction
  rw [List.getLast?_reverse]
  cases shown : decimal.trimmedGroups with
  | nil => exact absurd shown filled
  | cons group rest =>
      refine ⟨group, rfl, ?_⟩
      rintro rfl
      have within := trimGroups_head shown
      have integer := decimal.integerGroups_eq
      have weighs : decimal.weight = decimal.groupsLsb.length - decimal.fractionGroups - 1 := rfl
      rw [trimmedGroups] at shown
      rw [trimmedGroups, shown, List.length_cons] at fraction
      rw [shown, List.length_cons] at within
      omega

theorem weight_bounds (decimal : Decimal) : -8 ≤ decimal.weight ∧ decimal.weight ≤ 9 := by
  have few := decimal.groupsLsb_length_le
  have scaleLe := decimal.scale_le
  have fraction : decimal.fractionGroups = (decimal.scale + 3) / 4 := rfl
  have weighs : decimal.weight = decimal.groupsLsb.length - decimal.fractionGroups - 1 := rfl
  omega

/-- The NUMERIC value that is written. -/
def toNumeric (decimal : Decimal) (nonzero : decimal.mantissa ≠ 0) : Numeric where
  groups := decimal.trimmedGroups.reverse
  weight := decimal.weight
  negative := decimal.negative
  dscale := decimal.scale
  groups_lt group member := by
    obtain ⟨popped, -, written⟩ := trimmedGroups_written nonzero
    exact written.digits group (List.mem_reverse.mp member)
  groups_few := by
    obtain ⟨popped, -, written⟩ := trimmedGroups_written nonzero
    have few := written.few
    rw [List.length_reverse]
    omega
  weight_ge := by
    have bounds := decimal.weight_bounds
    omega
  weight_lt := by
    have bounds := decimal.weight_bounds
    omega
  dscale_lt := by
    have scaleLe := decimal.scale_le
    omega

theorem toNumeric_value (nonzero : decimal.mantissa ≠ 0) :
    (decimal.toNumeric nonzero).value = decimal.value := by
  obtain ⟨popped, conserved, written⟩ := trimmedGroups_written nonzero
  have number := written.same_number
  have fraction := written.fraction
  have length : decimal.groupsLsb.length = decimal.trimmedGroups.length + popped := by
    have lengths := congrArg List.length conserved
    rw [List.length_append, List.length_replicate] at lengths
    omega
  have weighs : decimal.weight = decimal.groupsLsb.length - decimal.fractionGroups - 1 := rfl
  have exponent : decimal.weight - decimal.trimmedGroups.reverse.length + 1 =
      -((decimal.fractionGroups - popped : Nat) : Int) := by
    rw [List.length_reverse]
    omega
  have shifted : (10000 : ℚ) ^ (-((decimal.fractionGroups - popped : Nat) : Int)) =
      1 / 10 ^ (4 * (decimal.fractionGroups - popped)) := by
    rw [zpow_neg, zpow_natCast, pow_mul, one_div]
    norm_num
  have whole : (decimal.toNumeric nonzero).whole = Nat.ofDigits 10000 decimal.trimmedGroups := by
    rw [Numeric.whole]
    exact congrArg _ (List.reverse_reverse _)
  have same : (Nat.ofDigits 10000 decimal.trimmedGroups : ℕ) *
      (1 / 10 ^ (4 * (decimal.fractionGroups - popped)) : ℚ) =
        decimal.mantissa / 10 ^ decimal.scale := by
    rw [mul_one_div, div_eq_div_iff (by positivity) (by positivity)]
    exact_mod_cast number.symm
  rw [Numeric.value_eq, whole]
  change (if decimal.negative then -1 else 1) * (_ * (10000 : ℚ) ^
    (decimal.weight - decimal.trimmedGroups.reverse.length + 1)) = _
  rw [exponent, shifted, same, value, signedMantissa]
  cases decimal.negative with
  | true =>
      rw [if_pos rfl, if_pos rfl, Int.cast_neg, Int.cast_natCast, neg_div, neg_one_mul]
  | false =>
      rw [if_neg Bool.false_ne_true, if_neg Bool.false_ne_true, Int.cast_natCast, one_mul]

end Nonzero

/-! ### The message -/

theorem encode_length (numeric : Numeric) :
    numeric.encode.length = 8 + 2 * numeric.groups.length := by
  simp only [Numeric.encode, encodeGroups, List.length_append, be16_length, flatMap_be16_length]
  omega

theorem encode_count (numeric : Numeric) :
    beNat (numeric.encode.take 2) = numeric.groups.length :=
  beNat_be16 _ numeric.groups_few

theorem zero_lt_scales : 0 < 2 ^ 16 := Nat.two_pow_pos 16

/-- NUMERIC without groups is zero. -/
def noGroups : Numeric where
  groups := []
  weight := 0
  negative := false
  dscale := 0
  groups_lt := List.forall_mem_nil _
  groups_few := by decide
  weight_ge := by decide
  weight_lt := by decide
  dscale_lt := zero_lt_scales

/-- Neither the alignment of the mantissa nor a cast leaves its type. -/
structure EncodingFits (decimal : Decimal) : Prop where
  aligned : decimal.alignedMantissa < 2 ^ 128
  count : decimal.groupsLsb.length < 2 ^ 15
  fraction : decimal.fractionGroups < 2 ^ 15
  weight : -2 ^ 15 ≤ decimal.weight ∧ decimal.weight < 2 ^ 15
  scale : decimal.scale < 2 ^ 16

theorem encodingFits (decimal : Decimal) : decimal.EncodingFits := by
  have aligned := decimal.alignedMantissa_lt
  have few := decimal.groupsLsb_length_le
  have scaleLe := decimal.scale_le
  have fraction : decimal.fractionGroups = (decimal.scale + 3) / 4 := rfl
  have bounds := decimal.weight_bounds
  constructor <;> omega

/-- The NUMERIC value of a decimal, without zeros that say nothing. -/
structure Canonical (decimal : Decimal) (numeric : Numeric) : Prop where
  first : decimal.mantissa ≠ 0 → ∃ first, numeric.groups.head? = some first ∧ first ≠ 0
  last : numeric.weight + 1 < numeric.groups.length →
    ∃ last, numeric.groups.getLast? = some last ∧ last ≠ 0
  scale : decimal.mantissa ≠ 0 → numeric.dscale = decimal.scale
  value : numeric.value = decimal.value

/-- A decimal is written as the NUMERIC value that it is. -/
theorem toSql_canonical (decimal : Decimal) :
    decimal.EncodingFits ∧
      ∃ numeric : Numeric, decimal.toSql = .ok numeric.encode ∧
        numeric.encode.length = 8 + 2 * numeric.groups.length ∧
        beNat (numeric.encode.take 2) = numeric.groups.length ∧ Canonical decimal numeric := by
  refine ⟨encodingFits decimal, ?_⟩
  by_cases zero : decimal.mantissa = 0
  · refine ⟨noGroups, ?_, encode_length _, encode_count _, ?_⟩
    · have isZero : decimal.isZero = true := beq_iff_eq.mpr zero
      rw [toSql, isZero, if_pos rfl]
      rfl
    · constructor
      · intro nonzero
        exact absurd zero nonzero
      · intro fraction
        exact absurd fraction (by decide)
      · intro nonzero
        exact absurd zero nonzero
      · rw [value_zero zero, Numeric.value]
        exact mul_zero _
  · refine ⟨decimal.toNumeric zero, toSql_nonzero zero, encode_length _, encode_count _, ?_⟩
    constructor
    · intro nonzero
      exact trimmedGroups_first nonzero
    · intro fraction
      exact trimmedGroups_last zero fraction
    · intro nonzero
      rfl
    · exact toNumeric_value zero

end OpenGauss.Types.Decimal
