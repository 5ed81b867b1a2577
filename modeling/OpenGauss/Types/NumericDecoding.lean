import OpenGauss.Types.DecimalProperties
import OpenGauss.Types.Numeric

/-! What `from_sql` makes of a NUMERIC value. -/

set_option autoImplicit false

namespace OpenGauss.Types.Decimal

open Protocol

/-- What the package documents besides: a scale above the largest one is an
error, and a `rescale` to a larger scale appends as many zeros as fit. -/
structure Package.DocumentedFully (package : Package) : Prop extends package.Documented where
  tooFine : ∀ (mantissa : Int) (scale : Nat), 28 < scale →
    ∃ message, package.tryFromI128WithScale mantissa scale = .error message
  rescaleUp : ∀ (decimal : Decimal) (scale : Nat), decimal.scale ≤ scale →
    (package.rescale decimal scale).value = decimal.value

/-- The groups of a message that is complete and no special value. -/
def groupsOf (raw : Bytes) : Option (List Nat) :=
  match raw with
  | n₁ :: n₀ :: _ :: _ :: s₁ :: s₀ :: _ :: _ :: rest =>
      if beNat [s₁, s₀] &&& numericSpecial = numericSpecial then none
      else if rest.length < beNat [n₁, n₀] * 2 then none
      else some (readGroups (beNat [n₁, n₀]) rest)
  | _ => none

/-- The groups of a message make a whole number that no `u128` holds. -/
def Overflows (raw : Bytes) : Prop :=
  ∃ groups ∈ groupsOf raw, 2 ^ 128 ≤ Nat.ofDigits 10000 groups.reverse

/-- Reading does not leave an integer type, and what it makes of a NUMERIC value
is that value. -/
def ReadsExactly (package : Package) (raw : Bytes) : Prop :=
  fromSql package raw ≠ .error .overflow ∧
    ∀ numeric : Numeric, numeric.ScaleCovers → raw = numeric.encode →
      ∀ decimal, fromSql package raw = .ok decimal → decimal.value = numeric.value

/-! ### The accumulator -/

theorem accumulate_overflow (digits : List Nat) (whole : Nat) (start : whole < 2 ^ 128)
    (wide : 2 ^ 128 ≤ digits.foldl (fun whole digit => whole * 10000 + digit) whole) :
    accumulate whole digits = .error .overflow := by
  induction digits generalizing whole with
  | nil => exact absurd wide (Nat.not_le.mpr start)
  | cons digit digits ih =>
      rw [accumulate]
      by_cases fits : whole * 10000 + digit < 2 ^ 128
      · rw [if_pos fits]
        exact ih _ fits wide
      · rw [if_neg fits]

theorem accumulate_cases (digits : List Nat) :
    accumulate 0 digits = .ok (Nat.ofDigits 10000 digits.reverse) ∧
        Nat.ofDigits 10000 digits.reverse < 2 ^ 128 ∨
      accumulate 0 digits = .error .overflow ∧ 2 ^ 128 ≤ Nat.ofDigits 10000 digits.reverse := by
  have same := foldl_reverse_eq_ofDigits digits.reverse
  rw [List.reverse_reverse] at same
  rw [← same]
  by_cases fits : digits.foldl (fun whole digit => whole * 10000 + digit) 0 < 2 ^ 128
  · exact .inl ⟨accumulate_eq_foldl digits 0 fits, fits⟩
  · have wide := Nat.le_of_not_lt fits
    exact .inr ⟨accumulate_overflow digits 0 (by decide) wide, wide⟩

/-- What a whole number and its place make, if they make a mantissa and a scale. -/
theorem scaleWhole_cases (whole : Nat) (adjust : Int) :
    scaleWhole whole adjust = .error tooLarge ∨
      ∃ mantissa scale : Nat, scaleWhole whole adjust = .ok (mantissa, scale) ∧
        (mantissa : ℚ) / 10 ^ scale = whole * 10000 ^ adjust := by
  have power : (10000 : ℚ) = 10 ^ (4 : Int) := by norm_num
  rw [scaleWhole]
  split
  · next above =>
      dsimp only
      split
      · exact .inl rfl
      split
      · exact .inl rfl
      split
      · exact .inl rfl
      refine .inr ⟨whole * 10 ^ (4 * adjust).toNat, 0, rfl, ?_⟩
      have exponent : ((4 * adjust).toNat : Int) = 4 * adjust := Int.toNat_of_nonneg (by omega)
      have shifted : (10000 : ℚ) ^ adjust = 10 ^ (4 * adjust).toNat := by
        rw [power, ← zpow_mul, ← zpow_natCast, exponent]
      rw [shifted, pow_zero, div_one, Nat.cast_mul, Nat.cast_pow, Nat.cast_ofNat]
  · next notAbove =>
      split
      · next below =>
          split
          · exact .inl rfl
          refine .inr ⟨whole, (4 * -adjust).toNat, rfl, ?_⟩
          have exponent : ((4 * -adjust).toNat : Int) = 4 * -adjust :=
            Int.toNat_of_nonneg (by omega)
          rw [power, ← zpow_mul, div_eq_mul_inv, ← zpow_natCast, exponent, ← zpow_neg]
          congr 2
          ring
      · next notBelow =>
          obtain rfl : adjust = 0 := by omega
          split
          · exact .inl rfl
          refine .inr ⟨whole, 0, rfl, ?_⟩
          simp

theorem applySign_value (decimal : Decimal) (negative : Bool) (unsigned : decimal.negative = false) :
    (decimal.applySign (if negative then numericNeg else 0)).value =
      (if negative then -1 else 1) * (decimal.mantissa / 10 ^ decimal.scale) := by
  rw [applySign_numericNeg decimal negative unsigned, value, signedMantissa]
  cases negative with
  | true =>
      rw [if_pos rfl, if_pos rfl, Int.cast_neg, Int.cast_natCast, neg_div, neg_one_mul]
  | false =>
      rw [if_neg Bool.false_ne_true, if_neg Bool.false_ne_true, Int.cast_natCast, one_mul]

theorem natAbs_signedMantissa (decimal : Decimal) :
    decimal.signedMantissa.natAbs = decimal.mantissa := by
  rw [signedMantissa]
  split <;> simp

/-- A rescaling to a scale that covers all digits does not change the number. -/
theorem rescale_value {package : Package} (documented : package.DocumentedFully)
    (decimal : Decimal) (dscale : Nat)
    (covers : ∃ units : Int, decimal.value * 10 ^ dscale = units) :
    (package.rescale decimal dscale).value = decimal.value := by
  by_cases up : decimal.scale ≤ dscale
  · exact documented.rescaleUp decimal dscale up
  · obtain ⟨units, same⟩ := covers
    have below := Nat.lt_of_not_le up
    have scaleLe := decimal.scale_le
    have whole : decimal.signedMantissa * 10 ^ dscale = units * 10 ^ decimal.scale := by
      rw [value, div_mul_eq_mul_div, div_eq_iff (by positivity)] at same
      exact_mod_cast same
    have magnitude : units.natAbs * 10 ^ decimal.scale = decimal.mantissa * 10 ^ dscale := by
      have sizes := congrArg Int.natAbs whole
      rw [Int.natAbs_mul, Int.natAbs_mul, natAbs_signedMantissa, Int.natAbs_pow, Int.natAbs_pow]
        at sizes
      exact sizes.symm
    have smaller : units.natAbs ≤ decimal.mantissa := by
      apply Nat.le_of_mul_le_mul_right _ (show 0 < 10 ^ dscale by positivity)
      calc units.natAbs * 10 ^ dscale
          ≤ units.natAbs * 10 ^ decimal.scale :=
            Nat.mul_le_mul_left _ (Nat.pow_le_pow_right (by decide) below.le)
        _ = decimal.mantissa * 10 ^ dscale := magnitude
    have other := documented.rescaleKeeps decimal
      ⟨decimal.negative, units.natAbs, dscale, lt_of_le_of_lt smaller decimal.mantissa_lt, by omega⟩
      rfl (value_eq_of_mul _ _ rfl magnitude)
    rw [other]
    exact value_eq_of_mul _ _ rfl magnitude

/-- What `from_sql` makes of groups whose whole number a `u128` holds. -/
theorem fromGroups_cases (package : Package) (digits : List Nat) (weight : Int)
    (sign dscale : Nat) (fits : Nat.ofDigits 10000 digits.reverse < 2 ^ 128) :
    (∃ message, fromGroups package digits weight sign dscale = .error (.message message)) ∨
      ∃ value : Decimal, fromGroups package digits weight sign dscale =
          .ok (package.rescale (value.applySign sign) dscale) ∧
        (value = zero ∧ Nat.ofDigits 10000 digits.reverse = 0 ∨
          ∃ mantissa scale : Nat, package.tryFromI128WithScale mantissa scale = .ok value ∧
            (mantissa : ℚ) / 10 ^ scale = (Nat.ofDigits 10000 digits.reverse : ℕ) *
              10000 ^ (weight - digits.length + 1)) := by
  have read : accumulate 0 digits = .ok (Nat.ofDigits 10000 digits.reverse) := by
    rcases accumulate_cases digits with ⟨read, -⟩ | ⟨-, wide⟩
    · exact read
    · exact absurd fits (Nat.not_lt.mpr wide)
  have empty : digits.length = 0 → Nat.ofDigits 10000 digits.reverse = 0 := by
    intro none
    rw [List.length_eq_zero_iff.mp none]
    rfl
  generalize Nat.ofDigits 10000 digits.reverse = whole at read empty
  rw [fromGroups, read]
  simp only [bind, Except.bind]
  by_cases nothing : digits.length = 0 ∨ whole = 0
  · rw [if_pos nothing]
    exact .inr ⟨zero, rfl, .inl ⟨rfl, nothing.elim empty id⟩⟩
  · rw [if_neg nothing]
    rcases scaleWhole_cases whole (weight - digits.length + 1) with tooWide |
      ⟨mantissa, scale, scaled, number⟩
    · rw [tooWide]
      exact .inl ⟨_, rfl⟩
    · rw [scaled]
      dsimp only
      cases made : package.tryFromI128WithScale mantissa scale with
      | error message => exact .inl ⟨message, rfl⟩
      | ok value => exact .inr ⟨value, rfl, .inr ⟨mantissa, scale, made, number⟩⟩

theorem fromGroups_overflow_iff {package : Package} {digits : List Nat} {weight : Int}
    {sign dscale : Nat} :
    fromGroups package digits weight sign dscale = .error .overflow ↔
      2 ^ 128 ≤ Nat.ofDigits 10000 digits.reverse := by
  constructor
  · intro overflowed
    by_contra fits
    rcases fromGroups_cases package digits weight sign dscale (Nat.lt_of_not_le fits) with
      ⟨message, failed⟩ | ⟨value, read, -⟩
    · rw [failed] at overflowed
      cases overflowed
    · rw [read] at overflowed
      cases overflowed
  · intro wide
    rcases accumulate_cases digits with ⟨-, fits⟩ | ⟨overflowed, -⟩
    · exact absurd wide (Nat.not_le.mpr fits)
    · rw [fromGroups, overflowed]
      rfl

/-- The package makes a mantissa and a scale the number they stand for. -/
theorem tryFromI128WithScale_value {package : Package} (documented : package.DocumentedFully)
    {mantissa scale : Nat} {value : Decimal}
    (made : package.tryFromI128WithScale mantissa scale = .ok value) :
    value.negative = false ∧ value.mantissa = mantissa ∧ value.scale = scale := by
  by_cases fine : scale ≤ 28
  · by_cases narrow : mantissa < 2 ^ 96
    · have known := documented.inRange ⟨false, mantissa, scale, narrow, fine⟩ (by simp [signedMantissa])
      simp only [signedMantissa, Bool.false_eq_true, if_false] at known
      rw [known] at made
      obtain rfl := Except.ok.inj made
      exact ⟨rfl, rfl, rfl⟩
    · obtain ⟨message, failed⟩ := documented.tooWide mantissa scale (by simpa using narrow)
      rw [failed] at made
      cases made
  · obtain ⟨message, failed⟩ := documented.tooFine mantissa scale (Nat.lt_of_not_le fine)
    rw [failed] at made
    cases made

/-- What `from_sql` makes of a NUMERIC value is that value. -/
theorem fromGroups_value {package : Package} (documented : package.DocumentedFully)
    (numeric : Numeric) (covers : numeric.ScaleCovers) {decimal : Decimal}
    (read : fromGroups package numeric.groups numeric.weight
      (if numeric.negative then numericNeg else 0) numeric.dscale = .ok decimal) :
    decimal.value = numeric.value := by
  have fits : Nat.ofDigits 10000 numeric.groups.reverse < 2 ^ 128 := by
    by_contra wide
    rw [fromGroups_overflow_iff.mpr (Nat.le_of_not_lt wide)] at read
    cases read
  rcases fromGroups_cases package numeric.groups numeric.weight _ numeric.dscale fits with
    ⟨message, failed⟩ | ⟨value, made, known⟩
  · rw [failed] at read
    cases read
  · obtain rfl := Except.ok.inj (made.symm.trans read)
    have same : (value.applySign (if numeric.negative then numericNeg else 0)).value =
        numeric.value := by
      rw [numeric.value_eq]
      rcases known with ⟨rfl, none⟩ | ⟨mantissa, scale, tried, number⟩
      · rw [applySign_value zero numeric.negative rfl, Numeric.whole, none]
        simp [zero]
      · obtain ⟨unsigned, rfl, rfl⟩ := tryFromI128WithScale_value documented tried
        rw [applySign_value value numeric.negative unsigned, number]
        rfl
    obtain ⟨units, covered⟩ := covers
    rw [← same] at covered ⊢
    exact rescale_value documented _ numeric.dscale ⟨units, covered⟩

/-! ### Messages -/

theorem fromSql_overflow_iff {package : Package} {raw : Bytes} :
    fromSql package raw = .error .overflow ↔ Overflows raw := by
  unfold fromSql Overflows groupsOf
  split
  · next n₁ n₀ w₁ w₀ s₁ s₀ d₁ d₀ rest =>
      dsimp only
      by_cases special : beNat [s₁, s₀] &&& numericSpecial = numericSpecial
      · rw [if_pos special, if_pos special]
        simp
      · rw [if_neg special, if_neg special]
        by_cases short : rest.length < beNat [n₁, n₀] * 2
        · rw [if_pos short, if_pos short]
          simp
        · rw [if_neg short, if_neg short, fromGroups_overflow_iff]
          simp
  · next short =>
      simp

/-- Reading is exact or an error unless the groups of the message make a whole
number that no `u128` holds. -/
theorem readsExactly_iff {package : Package} (documented : package.DocumentedFully) (raw : Bytes) :
    ReadsExactly package raw ↔ ¬Overflows raw := by
  constructor
  · intro exact overflows
    exact exact.1 (fromSql_overflow_iff.mpr overflows)
  · intro fits
    refine ⟨fun overflowed => fits (fromSql_overflow_iff.mp overflowed), ?_⟩
    intro numeric covers same decimal read
    have few := numeric.groups_few
    have header := fromSql_encodeGroups package numeric.groups numeric.weight
      (if numeric.negative then numericNeg else 0) numeric.dscale few
      (fun group member => Nat.lt_trans (numeric.groups_lt group member) (by decide))
      numeric.weight_ge numeric.weight_lt (by split <;> decide) (by split <;> decide)
      numeric.dscale_lt
    rw [same, Numeric.encode, header] at read
    exact fromGroups_value documented numeric covers read

/-! ### The package -/

theorem growMantissa_spec (steps mantissa : Nat) :
    (growMantissa steps mantissa).2 ≤ steps ∧
      (growMantissa steps mantissa).1 =
        mantissa * 10 ^ (steps - (growMantissa steps mantissa).2) := by
  induction steps generalizing mantissa with
  | zero => simp [growMantissa]
  | succ steps ih =>
      rw [growMantissa]
      split
      · obtain ⟨left, grown⟩ := ih (mantissa * 10)
        refine ⟨Nat.le_succ_of_le left, ?_⟩
        rw [grown, Nat.succ_sub left, pow_succ', ← mul_assoc]
      · simp

theorem rescaled_up (decimal : Decimal) (scale : Nat) (up : decimal.scale ≤ scale) :
    (decimal.rescaled scale).value = decimal.value := by
  have scaleLe := decimal.scale_le
  rw [rescaled]
  split
  · next zero =>
      rw [@value_zero decimal zero]
      apply value_zero
      exact zero
  · split
    · next lower => omega
    · next higher =>
        apply value_eq_of_mul
        · rfl
        · obtain ⟨left, grown⟩ := growMantissa_spec (min scale 28 - decimal.scale) decimal.mantissa
          dsimp only
          rw [grown, mul_assoc, ← pow_add]
          congr 2
          omega

theorem rustDecimal_documentedFully : rustDecimal.DocumentedFully where
  toDocumented := rustDecimal_documented
  tooFine _ _ fine := ⟨_, dif_neg (Nat.not_le.mpr fine)⟩
  rescaleUp := rescaled_up

theorem readsExactly_iff_pi :
    ReadsExactly rustDecimal (encodeGroups [3, 1415, 9000] 0 numericNeg 5) ↔
      ¬Overflows (encodeGroups [3, 1415, 9000] 0 numericNeg 5) :=
  readsExactly_iff rustDecimal_documentedFully _

/-- A number of forty digits. -/
def fortyNines : Numeric where
  groups := List.replicate 10 9999
  weight := 9
  negative := false
  dscale := 0
  groups_lt := by decide
  groups_few := by decide
  weight_ge := by decide
  weight_lt := by decide
  dscale_lt := by decide

theorem not_readsExactly_fortyNines : ¬ReadsExactly rustDecimal fortyNines.encode := by
  intro exact
  have overflowed : fromSql rustDecimal fortyNines.encode = .error .overflow := by decide +kernel
  exact exact.1 overflowed

end OpenGauss.Types.Decimal
