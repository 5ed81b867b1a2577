import OpenGauss.Types.Decimal
import OpenGauss.Protocol.BackendProperties
import Mathlib.Tactic.Ring
import Mathlib.Tactic.NormNum

/-! A NUMERIC value that has been written and read back. -/

set_option autoImplicit false

namespace OpenGauss.Types.Decimal

open Protocol

/-! ### The bytes of a value -/

@[simp] theorem be16_length (word : Nat) : (be16 word).length = 2 := rfl

theorem beNat_be16 (word : Nat) (fits : word < 2 ^ 16) : beNat (be16 word) = word := by
  simp only [beNat, be16, List.foldl_cons, List.foldl_nil, UInt8.toNat_ofNat']
  omega

theorem asI16_emod (weight : Int) (above : -2 ^ 15 ≤ weight) (below : weight < 2 ^ 15) :
    asI16 (weight % 2 ^ 16).toNat = weight := by
  rw [asI16]
  split <;> omega

theorem readGroups_flatMap (digits : List Nat) (fit : ∀ digit ∈ digits, digit < 2 ^ 16) :
    readGroups digits.length (digits.flatMap be16) = digits := by
  induction digits with
  | nil => rfl
  | cons digit digits ih =>
      have rest := ih fun other member => fit other (List.mem_cons_of_mem _ member)
      have first := beNat_be16 digit (fit digit (List.mem_cons_self ..))
      rw [List.flatMap_cons, List.length_cons]
      simp only [be16, List.cons_append, List.nil_append, readGroups] at first ⊢
      rw [first]
      exact congrArg _ rest

theorem flatMap_be16_length (digits : List Nat) :
    (digits.flatMap be16).length = digits.length * 2 := by
  induction digits with
  | nil => rfl
  | cons digit digits ih =>
      rw [List.flatMap_cons, List.length_append, ih, be16_length, List.length_cons]
      omega

/-- Reading gives back the header and the groups that were written. -/
theorem fromSql_encodeGroups (package : Package) (digits : List Nat) (weight : Int)
    (sign dscale : Nat) (few : digits.length < 2 ^ 16) (fit : ∀ digit ∈ digits, digit < 2 ^ 16)
    (above : -2 ^ 15 ≤ weight) (below : weight < 2 ^ 15) (signFits : sign < 2 ^ 16)
    (finite : sign &&& numericSpecial ≠ numericSpecial) (dscaleFits : dscale < 2 ^ 16) :
    fromSql package (encodeGroups digits weight sign dscale) =
      fromGroups package digits weight sign dscale := by
  have weightFits : (weight % 2 ^ 16).toNat < 2 ^ 16 := by omega
  have count := beNat_be16 _ few
  have weightRead := beNat_be16 _ weightFits
  have signRead := beNat_be16 _ signFits
  have dscaleRead := beNat_be16 _ dscaleFits
  have enough := flatMap_be16_length digits
  have groups := readGroups_flatMap digits fit
  simp only [be16] at count weightRead signRead dscaleRead
  simp only [encodeGroups, be16, List.cons_append, List.nil_append, fromSql, count, weightRead,
    signRead, dscaleRead, asI16_emod weight above below, finite, if_false]
  rw [if_neg (by omega), groups]

/-! ### Groups as base-10000 digits -/

theorem digitsLsb_eq_digits (fuel m : Nat) (enough : m < 10000 ^ fuel) :
    digitsLsb fuel m = Nat.digits 10000 m := by
  induction fuel generalizing m with
  | zero =>
      obtain rfl : m = 0 := by simpa using enough
      rfl
  | succ fuel ih =>
      rw [digitsLsb]
      split
      · rename_i zero
        rw [zero, Nat.digits_zero]
      · rename_i nonzero
        have smaller : m / 10000 < 10000 ^ fuel := by
          rw [Nat.div_lt_iff_lt_mul (by decide), ← pow_succ]
          exact enough
        rw [ih _ smaller]
        exact (Nat.digits_def' (by decide) (Nat.pos_of_ne_zero nonzero)).symm

theorem accumulate_eq_foldl (digits : List Nat) (whole : Nat)
    (fits : digits.foldl (fun whole digit => whole * 10000 + digit) whole < 2 ^ 128) :
    accumulate whole digits =
      .ok (digits.foldl (fun whole digit => whole * 10000 + digit) whole) := by
  induction digits generalizing whole with
  | nil => rfl
  | cons digit digits ih =>
      rw [List.foldl_cons] at fits ⊢
      have grows : ∀ (digits : List Nat) (whole : Nat),
          whole ≤ digits.foldl (fun whole digit => whole * 10000 + digit) whole := by
        intro digits
        induction digits with
        | nil => intro whole; exact Nat.le_refl _
        | cons digit digits ih =>
            intro whole
            have := ih (whole * 10000 + digit)
            rw [List.foldl_cons]
            omega
      rw [accumulate, if_pos (by have := grows digits (whole * 10000 + digit); omega)]
      exact ih _ fits

theorem foldl_reverse_eq_ofDigits (digits : List Nat) :
    digits.reverse.foldl (fun whole digit => whole * 10000 + digit) 0 =
      Nat.ofDigits 10000 digits := by
  rw [List.foldl_reverse]
  induction digits with
  | nil => rfl
  | cons digit digits ih =>
      rw [List.foldr_cons, ih, Nat.ofDigits_cons]
      ring

theorem accumulate_reverse (digits : List Nat) (fits : Nat.ofDigits 10000 digits < 2 ^ 128) :
    accumulate 0 digits.reverse = .ok (Nat.ofDigits 10000 digits) := by
  rw [← foldl_reverse_eq_ofDigits] at fits ⊢
  exact accumulate_eq_foldl _ _ fits

/-- Trimming takes zero groups off, and stops at a digit or at the decimal point. -/
theorem trimGroups_spec (integerGroups : Nat) (digits : List Nat) :
    ∃ popped, digits = List.replicate popped 0 ++ trimGroups integerGroups digits ∧
      (popped = 0 ∨ integerGroups ≤ (trimGroups integerGroups digits).length) ∧
      (popped = 0 → ∀ rest, digits = 0 :: rest → digits.length ≤ integerGroups) := by
  induction digits with
  | nil => exact ⟨0, rfl, .inl rfl, fun _ rest started => by cases started⟩
  | cons digit digits ih =>
      rw [trimGroups]
      split
      · rename_i popping
        obtain ⟨popped, conserved, stopped, _⟩ := ih
        refine ⟨popped + 1, ?_, .inr ?_, fun none => by omega⟩
        · rw [List.replicate_succ, List.cons_append, ← conserved, popping.2]
        · rcases stopped with rfl | stopped
          · rw [List.replicate_zero, List.nil_append] at conserved
            rw [← conserved]
            omega
          · exact stopped
      · rename_i kept
        refine ⟨0, rfl, .inl rfl, ?_⟩
        rintro - rest started
        obtain ⟨rfl, rfl⟩ := List.cons.inj started
        rw [List.length_cons]
        by_contra before
        exact kept ⟨by omega, rfl⟩

theorem ofDigits_replicate_append (popped : Nat) (digits : List Nat) :
    Nat.ofDigits 10000 (List.replicate popped 0 ++ digits) =
      Nat.ofDigits 10000 digits * 10000 ^ popped := by
  rw [Nat.ofDigits_append, Nat.ofDigits_replicate_zero, List.length_replicate, Nat.zero_add,
    Nat.mul_comm]

/-! ### What is written -/

theorem alignedMantissa_eq (decimal : Decimal) :
    decimal.alignedMantissa =
      decimal.mantissa * 10 ^ (4 * decimal.fractionGroups - decimal.scale) := by
  rw [alignedMantissa, fractionGroups]
  split
  · rename_i whole
    rw [show 4 * ((decimal.scale + 3) / 4) - decimal.scale = 0 by omega, pow_zero, mul_one]
  · rename_i partly
    rw [show 4 * ((decimal.scale + 3) / 4) - decimal.scale = 4 - decimal.scale % 4 by omega]

theorem alignedMantissa_le (decimal : Decimal) :
    decimal.alignedMantissa ≤ decimal.mantissa * 1000 := by
  rw [alignedMantissa]
  split
  · omega
  · rename_i partly
    have small : 10 ^ (4 - decimal.scale % 4) ≤ 10 ^ 3 :=
      Nat.pow_le_pow_right (by decide) (by omega)
    exact Nat.mul_le_mul_left _ small

theorem alignedMantissa_pos {decimal : Decimal} (nonzero : decimal.mantissa ≠ 0) :
    0 < decimal.alignedMantissa := by
  rw [alignedMantissa_eq]
  positivity

/-- The groups `groups` (the last one first) stand for the aligned mantissa,
without its last `popped` groups, which are zero. -/
structure Written (decimal : Decimal) (groups : List Nat) (popped : Nat) : Prop where
  conserved : Nat.ofDigits 10000 groups * 10000 ^ popped = decimal.alignedMantissa
  digits : ∀ digit ∈ groups, digit < 10000
  few : groups.length + popped ≤ 10
  fraction : popped ≤ decimal.fractionGroups
  trimmed : 0 < decimal.fractionGroups → 10000 ∣ decimal.alignedMantissa → 0 < popped

theorem alignedMantissa_lt (decimal : Decimal) : decimal.alignedMantissa < 2 ^ 106 := by
  have := decimal.alignedMantissa_le
  have := decimal.mantissa_lt
  omega

theorem groupsLsb_eq_digits (decimal : Decimal) :
    decimal.groupsLsb = Nat.digits 10000 decimal.alignedMantissa := by
  have small := decimal.alignedMantissa_lt
  exact digitsLsb_eq_digits 10 decimal.alignedMantissa (by omega)

theorem groupsLsb_length_le (decimal : Decimal) : decimal.groupsLsb.length ≤ 10 := by
  have small := decimal.alignedMantissa_lt
  rw [groupsLsb_eq_digits, Nat.digits_length_le_iff (by decide)]
  omega

theorem groupsLsb_cons {decimal : Decimal} (nonzero : decimal.mantissa ≠ 0) :
    ∃ rest, decimal.groupsLsb = decimal.alignedMantissa % 10000 :: rest := by
  rw [groupsLsb_eq_digits, Nat.digits_def' (by decide) (alignedMantissa_pos nonzero)]
  exact ⟨_, rfl⟩

theorem integerGroups_eq (decimal : Decimal) :
    decimal.integerGroups = decimal.groupsLsb.length - decimal.fractionGroups := by
  rw [integerGroups, weight]
  split <;> omega

/-- The groups that are written, the last one first. -/
def trimmedGroups (decimal : Decimal) : List Nat :=
  trimGroups decimal.integerGroups decimal.groupsLsb

theorem trimmedGroups_written {decimal : Decimal} (nonzero : decimal.mantissa ≠ 0) :
    ∃ popped, decimal.groupsLsb = List.replicate popped 0 ++ decimal.trimmedGroups ∧
      Written decimal decimal.trimmedGroups popped := by
  obtain ⟨popped, conserved, stopped, kept⟩ :=
    trimGroups_spec decimal.integerGroups decimal.groupsLsb
  have few := decimal.groupsLsb_length_le
  have integer := decimal.integerGroups_eq
  have length : decimal.groupsLsb.length = decimal.trimmedGroups.length + popped := by
    have lengths := congrArg List.length conserved
    rw [List.length_append, List.length_replicate] at lengths
    rw [trimmedGroups]
    omega
  rw [← trimmedGroups] at conserved stopped
  refine ⟨popped, conserved, ?_⟩
  refine { conserved := ?_, digits := ?_, few := ?_, fraction := ?_, trimmed := ?_ }
  · rw [← ofDigits_replicate_append, ← conserved, groupsLsb_eq_digits, Nat.ofDigits_digits]
  · intro digit member
    have inside : digit ∈ decimal.groupsLsb := conserved ▸ List.mem_append_right _ member
    exact Nat.digits_lt_base (by decide) (decimal.groupsLsb_eq_digits ▸ inside)
  · omega
  · omega
  · -- the last group is zero, and it stands after the decimal point
    intro fraction divides
    obtain ⟨rest, started⟩ := groupsLsb_cons nonzero
    rw [Nat.mod_eq_zero_of_dvd divides] at started
    by_contra none
    have := kept (by omega) rest started
    have := congrArg List.length started
    rw [List.length_cons] at this
    omega

theorem toSql_nonzero {decimal : Decimal} (nonzero : decimal.mantissa ≠ 0) :
    decimal.toSql = .ok (encodeGroups decimal.trimmedGroups.reverse decimal.weight
      (if decimal.negative then numericNeg else 0) decimal.scale) := by
  have notZero : decimal.isZero = false := by simpa [isZero] using nonzero
  have fits : ¬ 2 ^ 128 ≤ decimal.alignedMantissa := by
    have := decimal.alignedMantissa_lt
    omega
  rw [toSql, notZero, if_neg (by decide), if_neg fits, trimmedGroups]

theorem toSql_writes {decimal : Decimal} (nonzero : decimal.mantissa ≠ 0) :
    ∃ groups popped, Written decimal groups popped ∧
      decimal.toSql = .ok (encodeGroups groups.reverse
        ((groups.length + popped : Nat) - decimal.fractionGroups - 1)
        (if decimal.negative then numericNeg else 0) decimal.scale) := by
  obtain ⟨popped, conserved, written⟩ := trimmedGroups_written nonzero
  have length : decimal.groupsLsb.length = decimal.trimmedGroups.length + popped := by
    have lengths := congrArg List.length conserved
    rw [List.length_append, List.length_replicate] at lengths
    omega
  exact ⟨_, popped, written, by rw [toSql_nonzero nonzero, weight, length]⟩

/-! ### What is read back -/

/-- The number that a sign bit and a magnitude stand for at a scale. -/
theorem value_eq_of_mul (first second : Decimal) (sameSign : first.negative = second.negative)
    (same : first.mantissa * 10 ^ second.scale = second.mantissa * 10 ^ first.scale) :
    first.value = second.value := by
  have cast : (first.mantissa : ℚ) * 10 ^ second.scale = second.mantissa * 10 ^ first.scale := by
    exact_mod_cast same
  rw [value, value, div_eq_div_iff (by positivity) (by positivity), signedMantissa,
    signedMantissa, sameSign]
  split
  · push_cast
    rw [neg_mul, neg_mul, cast]
  · push_cast
    exact cast

/-- The whole number of the groups, at the scale the reader gives it. -/
theorem Written.same_number {decimal : Decimal} {groups : List Nat} {popped : Nat}
    (written : Written decimal groups popped) :
    decimal.mantissa * 10 ^ (4 * (decimal.fractionGroups - popped)) =
      Nat.ofDigits 10000 groups * 10 ^ decimal.scale := by
  have conserved := written.conserved
  have fraction := written.fraction
  have covers : decimal.scale ≤ 4 * decimal.fractionGroups := by
    rw [fractionGroups]
    omega
  have power : 10000 ^ popped = 10 ^ (4 * popped) := by
    rw [pow_mul]
    rfl
  rw [alignedMantissa_eq, power] at conserved
  apply Nat.eq_of_mul_eq_mul_right (show 0 < 10 ^ (4 * popped) by positivity)
  calc decimal.mantissa * 10 ^ (4 * (decimal.fractionGroups - popped)) * 10 ^ (4 * popped)
      = decimal.mantissa * 10 ^ (4 * decimal.fractionGroups) := by
        rw [mul_assoc, ← pow_add]
        congr 2
        omega
    _ = decimal.mantissa * 10 ^ (4 * decimal.fractionGroups - decimal.scale) *
          10 ^ decimal.scale := by
        rw [mul_assoc, ← pow_add, Nat.sub_add_cancel covers]
    _ = Nat.ofDigits 10000 groups * 10 ^ decimal.scale * 10 ^ (4 * popped) := by
        rw [← conserved, mul_right_comm]

/-- The groups make a mantissa of 96 bits exactly when aligning the mantissa is
undone by the trimming, or does not leave the 96 bits. -/
theorem Written.fits_iff {decimal : Decimal} {groups : List Nat} {popped : Nat}
    (written : Written decimal groups popped) :
    Nat.ofDigits 10000 groups < 2 ^ 96 ↔
      10 ^ (decimal.scale % 4) ∣ decimal.mantissa ∨
        decimal.mantissa * 10 ^ (4 - decimal.scale % 4) < 2 ^ 96 := by
  have conserved := written.conserved
  have narrow := decimal.mantissa_lt
  by_cases whole : decimal.scale % 4 = 0
  · have le : Nat.ofDigits 10000 groups ≤ decimal.mantissa := by
      have aligned : decimal.alignedMantissa = decimal.mantissa := by rw [alignedMantissa, if_pos whole]
      rw [← aligned, ← conserved]
      exact Nat.le_mul_of_pos_right _ (by positivity)
    simp only [whole, pow_zero, one_dvd, true_or, iff_true]
    omega
  · have aligned : decimal.alignedMantissa =
        decimal.mantissa * 10 ^ (4 - decimal.scale % 4) := by rw [alignedMantissa, if_neg whole]
    have split : 10 ^ (decimal.scale % 4) * 10 ^ (4 - decimal.scale % 4) = 10000 := by
      rw [← pow_add, show decimal.scale % 4 + (4 - decimal.scale % 4) = 4 by omega]
      rfl
    have divides_iff : 10000 ∣ decimal.alignedMantissa ↔
        10 ^ (decimal.scale % 4) ∣ decimal.mantissa := by
      rw [aligned, ← split]
      exact Nat.mul_dvd_mul_iff_right (by positivity)
    rcases Nat.eq_zero_or_pos popped with rfl | some
    · rw [pow_zero, mul_one] at conserved
      have notDivides : ¬ 10 ^ (decimal.scale % 4) ∣ decimal.mantissa := by
        intro divides
        have fraction : 0 < decimal.fractionGroups := by
          rw [fractionGroups]
          omega
        exact Nat.lt_irrefl 0 (written.trimmed fraction (divides_iff.mpr divides))
      rw [conserved, aligned]
      exact ⟨.inr, fun either => either.resolve_left notDivides⟩
    · obtain ⟨others, rfl⟩ := Nat.exists_eq_succ_of_ne_zero (Nat.ne_of_gt some)
      have divides : 10000 ∣ decimal.alignedMantissa := by
        rw [← conserved, pow_succ]
        exact Dvd.intro_left _ (by rw [mul_assoc])
      have le : Nat.ofDigits 10000 groups * 10000 ≤ decimal.mantissa * 1000 := by
        calc Nat.ofDigits 10000 groups * 10000
            ≤ Nat.ofDigits 10000 groups * 10000 ^ (others + 1) := by
              apply Nat.mul_le_mul_left
              rw [pow_succ]
              exact Nat.le_mul_of_pos_left _ (by positivity)
          _ = decimal.alignedMantissa := conserved
          _ ≤ decimal.mantissa * 1000 := decimal.alignedMantissa_le
      have fits : Nat.ofDigits 10000 groups < 2 ^ 96 := by omega
      exact ⟨fun _ => .inl (divides_iff.mp divides), fun _ => fits⟩

theorem scaleWhole_fraction (whole : Nat) (adjust : Int) (fraction : adjust ≤ 0)
    (fits : whole ≤ i128Max) : scaleWhole whole adjust = .ok ((whole : Int), (4 * -adjust).toNat) := by
  have notWide : ¬ i128Max < whole := by omega
  rw [scaleWhole, if_neg (by omega), if_neg notWide, if_neg notWide]
  split
  · rfl
  · rw [show (4 * -adjust).toNat = 0 by omega]

theorem applySign_numericNeg (decimal : Decimal) (negative : Bool)
    (unsigned : decimal.negative = false) :
    decimal.applySign (if negative then numericNeg else 0) = { decimal with negative } := by
  obtain ⟨_, mantissa, scale, mantissaLt, scaleLe⟩ := decimal
  obtain rfl := unsigned
  cases negative with
  | true => rfl
  | false => rfl

/-- What reading does with the groups of a value that has been written. -/
theorem Written.fromGroups {package : Package} {decimal : Decimal} {groups : List Nat}
    {popped : Nat} (documented : package.Documented) (nonzero : decimal.mantissa ≠ 0)
    (written : Written decimal groups popped) :
    (Nat.ofDigits 10000 groups < 2 ^ 96 →
      fromGroups package groups.reverse
        ((groups.length + popped : Nat) - decimal.fractionGroups - 1)
        (if decimal.negative then numericNeg else 0) decimal.scale = .ok decimal) ∧
    (2 ^ 96 ≤ Nat.ofDigits 10000 groups →
      ∃ message, fromGroups package groups.reverse
        ((groups.length + popped : Nat) - decimal.fractionGroups - 1)
        (if decimal.negative then numericNeg else 0) decimal.scale = .error (.message message)) := by
  obtain ⟨whole, wholeIs⟩ : ∃ whole, whole = Nat.ofDigits 10000 groups := ⟨_, rfl⟩
  have fraction := written.fraction
  have conserved := written.conserved
  have small := decimal.alignedMantissa_lt
  have positive := alignedMantissa_pos nonzero
  have wholeLe : whole ≤ decimal.alignedMantissa := by
    rw [wholeIs, ← conserved]
    exact Nat.le_mul_of_pos_right _ (by positivity)
  have wholePos : whole ≠ 0 := by
    rintro rfl
    rw [← wholeIs, zero_mul] at conserved
    omega
  have present : groups.reverse.length ≠ 0 := by
    intro empty
    rw [List.length_reverse, List.length_eq_zero_iff] at empty
    exact wholePos (by rw [wholeIs, empty, Nat.ofDigits_nil])
  have read := accumulate_reverse groups (by omega)
  have adjust : ((groups.length + popped : Nat) : Int) - decimal.fractionGroups - 1 -
      groups.reverse.length + 1 = -((decimal.fractionGroups - popped : Nat) : Int) := by
    rw [List.length_reverse]
    omega
  have scaled := scaleWhole_fraction whole (-((decimal.fractionGroups - popped : Nat) : Int))
    (by omega) (by rw [i128Max]; omega)
  rw [show (4 * - -((decimal.fractionGroups - popped : Nat) : Int)).toNat =
    4 * (decimal.fractionGroups - popped) by omega] at scaled
  rw [← wholeIs] at read ⊢
  have scaleLe : 4 * (decimal.fractionGroups - popped) ≤ 28 := by
    have := decimal.scale_le
    rw [fractionGroups]
    omega
  have reading : Decimal.fromGroups package groups.reverse
      ((groups.length + popped : Nat) - decimal.fractionGroups - 1)
      (if decimal.negative then numericNeg else 0) decimal.scale =
      ((package.tryFromI128WithScale whole (4 * (decimal.fractionGroups - popped))).mapError
        Failure.message).map fun value => package.rescale
          (value.applySign (if decimal.negative then numericNeg else 0)) decimal.scale := by
    rw [Decimal.fromGroups, read]
    simp only [bind, Except.bind, present, wholePos, or_self, if_false, adjust, scaled]
    cases package.tryFromI128WithScale whole (4 * (decimal.fractionGroups - popped)) <;> rfl
  constructor
  · intro narrow
    have made := documented.inRange
      ⟨false, whole, 4 * (decimal.fractionGroups - popped), narrow, scaleLe⟩
      (by simp [signedMantissa])
    simp only [signedMantissa, Bool.false_eq_true, if_false] at made
    rw [reading, made]
    change Except.ok (package.rescale (applySign _ _) decimal.scale) = _
    rw [applySign_numericNeg _ _ rfl]
    refine congrArg Except.ok (documented.rescaleKeeps _ decimal rfl ?_)
    have number := written.same_number
    rw [← wholeIs] at number
    exact value_eq_of_mul decimal _ rfl number
  · intro wide
    obtain ⟨message, failed⟩ := documented.tooWide whole
      (4 * (decimal.fractionGroups - popped)) (by simpa using wide)
    refine ⟨message, ?_⟩
    rw [reading, failed]
    rfl

/-- Writing and reading gives the same number, at the same scale unless it is zero. -/
def RoundTrips (package : Package) (decimal : Decimal) : Prop :=
  ∃ raw back, decimal.toSql = .ok raw ∧ fromSql package raw = .ok back ∧
    back.value = decimal.value ∧ (decimal.mantissa ≠ 0 → back.scale = decimal.scale)

theorem value_zero {decimal : Decimal} (zero : decimal.mantissa = 0) : decimal.value = 0 := by
  simp [value, signedMantissa, zero]

theorem zero_roundTrips {package : Package} {decimal : Decimal}
    (documented : package.Documented) (isZero : decimal.mantissa = 0) :
    RoundTrips package decimal := by
  refine ⟨[0, 0, 0, 0, 0, 0, 0, 0], zero, ?_, ?_, ?_, fun nonzero => absurd isZero nonzero⟩
  · simp [toSql, Decimal.isZero, isZero]
  · have header := fromSql_encodeGroups package [] 0 0 0 (by decide) (by simp) (by decide)
      (by decide) (by decide) (by decide) (by decide)
    refine header.trans ?_
    exact congrArg Except.ok (documented.rescaleKeeps zero zero rfl rfl)
  · rw [value_zero isZero, value_zero rfl]

/-- A value survives writing and reading exactly when aligning its mantissa to
groups of four digits does not leave 96 bits, or is undone by the trimming of
zero groups. -/
theorem roundTrips_iff {package : Package} (documented : package.Documented) (decimal : Decimal) :
    RoundTrips package decimal ↔
      10 ^ (decimal.scale % 4) ∣ decimal.mantissa ∨
        decimal.mantissa * 10 ^ (4 - decimal.scale % 4) < 2 ^ 96 := by
  by_cases nonzero : decimal.mantissa = 0
  · simp [zero_roundTrips documented nonzero, nonzero]
  · obtain ⟨groups, popped, written, encoded⟩ := toSql_writes nonzero
    obtain ⟨kept, lost⟩ := written.fromGroups documented nonzero
    have few := written.few
    have scaleLe := decimal.scale_le
    have header := fromSql_encodeGroups package groups.reverse
      ((groups.length + popped : Nat) - decimal.fractionGroups - 1)
      (if decimal.negative then numericNeg else 0) decimal.scale
      (by rw [List.length_reverse]; omega)
      (fun digit member => by
        have := written.digits digit (List.mem_reverse.mp member)
        omega)
      (by rw [fractionGroups]; omega) (by omega)
      (by split <;> decide) (by split <;> decide) (by omega)
    rw [← written.fits_iff]
    constructor
    · rintro ⟨raw, back, wrote, readBack, _⟩
      obtain rfl := Except.ok.inj (encoded.symm.trans wrote)
      by_contra wide
      obtain ⟨message, failed⟩ := lost (by omega)
      rw [header, failed] at readBack
      cases readBack
    · intro narrow
      exact ⟨_, decimal, encoded, header.trans (kept narrow), rfl, fun _ => rfl⟩

/-! ### The package -/

/-- `try_from_i128_with_scale`. -/
def ofI128WithScale (mantissa : Int) (scale : Nat) : Except String Decimal :=
  if scaleFits : scale ≤ 28 then
    if fits : mantissa.natAbs < 2 ^ 96 then
      .ok ⟨decide (mantissa < 0), mantissa.natAbs, scale, fits, scaleFits⟩
    else if mantissa < 0 then
      .error "Number less than minimum value that can be represented."
    else .error "Number exceeds maximum value that can be represented."
  else .error "Scale exceeds the maximum precision allowed"

/-- Multiplying by ten while 96 bits hold the product; the steps left over. -/
def growMantissa : Nat → Nat → Nat × Nat
  | 0, mantissa => (mantissa, 0)
  | steps + 1, mantissa =>
      if mantissa * 10 < 2 ^ 96 then growMantissa steps (mantissa * 10)
      else (mantissa, steps + 1)

/-- Dividing by a power of ten, halves away from zero. -/
def roundMantissa (steps mantissa : Nat) : Nat :=
  mantissa / 10 ^ steps + if 5 ≤ mantissa / 10 ^ (steps - 1) % 10 then 1 else 0

theorem growMantissa_lt (steps mantissa : Nat) (fits : mantissa < 2 ^ 96) :
    (growMantissa steps mantissa).1 < 2 ^ 96 := by
  induction steps generalizing mantissa with
  | zero => exact fits
  | succ steps ih =>
      rw [growMantissa]
      split
      · rename_i holds
        exact ih _ holds
      · exact fits

theorem growMantissa_exact (steps mantissa : Nat) (fits : mantissa * 10 ^ steps < 2 ^ 96) :
    growMantissa steps mantissa = (mantissa * 10 ^ steps, 0) := by
  induction steps generalizing mantissa with
  | zero => rw [growMantissa, pow_zero, mul_one]
  | succ steps ih =>
      rw [pow_succ', ← mul_assoc] at fits ⊢
      have holds : mantissa * 10 < 2 ^ 96 :=
        lt_of_le_of_lt (Nat.le_mul_of_pos_right _ (by positivity)) fits
      rw [growMantissa, if_pos holds]
      exact ih _ fits

theorem roundMantissa_lt {steps mantissa : Nat} (some : 0 < steps) (fits : mantissa < 2 ^ 96) :
    roundMantissa steps mantissa < 2 ^ 96 := by
  have tenth : mantissa / 10 ^ steps ≤ mantissa / 10 := by
    apply Nat.div_le_div_left _ (by decide)
    exact Nat.le_self_pow (by omega) 10
  rw [roundMantissa]
  split <;> omega

theorem roundMantissa_exact {steps mantissa : Nat} (some : 0 < steps) :
    roundMantissa steps (mantissa * 10 ^ steps) = mantissa := by
  obtain ⟨before, rfl⟩ := Nat.exists_eq_succ_of_ne_zero (Nat.ne_of_gt some)
  have last : mantissa * 10 ^ (before + 1) / 10 ^ before % 10 = 0 := by
    rw [pow_succ', ← mul_assoc, Nat.mul_div_cancel _ (by positivity), Nat.mul_mod_left]
  rw [roundMantissa, Nat.succ_eq_add_one, Nat.add_sub_cancel, last,
    Nat.mul_div_cancel _ (by positivity)]
  rfl

/-- `Decimal::rescale`. -/
def rescaled (decimal : Decimal) (scale : Nat) : Decimal :=
  if decimal.mantissa = 0 then { decimal with scale := min scale 28, scale_le := by omega }
  else if lower : scale < decimal.scale then
    { decimal with
      mantissa := roundMantissa (decimal.scale - scale) decimal.mantissa
      scale
      mantissa_lt := roundMantissa_lt (by omega) decimal.mantissa_lt
      scale_le := by have := decimal.scale_le; omega }
  else
    { decimal with
      mantissa := (growMantissa (min scale 28 - decimal.scale) decimal.mantissa).1
      scale := min scale 28 - (growMantissa (min scale 28 - decimal.scale) decimal.mantissa).2
      mantissa_lt := growMantissa_lt _ _ decimal.mantissa_lt
      scale_le := by omega }

/-- The package as it is documented. -/
def rustDecimal : Package where
  tryFromI128WithScale := ofI128WithScale
  rescale := rescaled

theorem mul_eq_of_value {first second : Decimal} (sameSign : first.negative = second.negative)
    (same : first.value = second.value) :
    first.mantissa * 10 ^ second.scale = second.mantissa * 10 ^ first.scale := by
  rw [value, value, div_eq_div_iff (by positivity) (by positivity), signedMantissa,
    signedMantissa, sameSign] at same
  split at same
  · push_cast at same
    rw [neg_mul, neg_mul, neg_inj] at same
    exact_mod_cast same
  · exact_mod_cast same

theorem rescaled_keeps {decimal other : Decimal} (sameSign : other.negative = decimal.negative)
    (same : other.value = decimal.value) : decimal.rescaled other.scale = other := by
  have number := mul_eq_of_value sameSign same
  obtain ⟨negative, mantissa, scale, mantissaLt, scaleLe⟩ := decimal
  obtain ⟨_, otherMantissa, otherScale, otherLt, otherLe⟩ := other
  dsimp only at sameSign number ⊢
  subst sameSign
  rw [rescaled]
  dsimp only
  split
  · rename_i zero
    subst zero
    have : otherMantissa = 0 := by
      rw [zero_mul] at number
      exact (Nat.mul_eq_zero.mp number).resolve_right (by positivity)
    subst this
    simp [otherLe]
  · split
    · rename_i lower
      have exact : mantissa = otherMantissa * 10 ^ (scale - otherScale) := by
        apply Nat.eq_of_mul_eq_mul_right (show 0 < 10 ^ otherScale by positivity)
        rw [← number, mul_assoc, ← pow_add, Nat.sub_add_cancel lower.le]
      subst exact
      simp [roundMantissa_exact (Nat.sub_pos_of_lt lower)]
    · rename_i higher
      have exact : otherMantissa = mantissa * 10 ^ (otherScale - scale) := by
        apply Nat.eq_of_mul_eq_mul_right (show 0 < 10 ^ scale by positivity)
        rw [number, mul_assoc, ← pow_add, Nat.sub_add_cancel (by omega)]
      subst exact
      have grown := growMantissa_exact (otherScale - scale) mantissa otherLt
      simp [Nat.min_eq_left otherLe, grown]

theorem rustDecimal_documented : rustDecimal.Documented where
  inRange decimal sign := by
    obtain ⟨negative, mantissa, scale, mantissaLt, scaleLe⟩ := decimal
    dsimp only [rustDecimal] at sign ⊢
    have magnitude : (signedMantissa ⟨negative, mantissa, scale, mantissaLt, scaleLe⟩).natAbs =
        mantissa := by
      rw [signedMantissa]
      split <;> simp
    rw [ofI128WithScale, dif_pos scaleLe, dif_pos (by rw [magnitude]; exact mantissaLt)]
    simp only [magnitude, ← sign]
  tooWide mantissa scale wide := by
    dsimp only [rustDecimal]
    rw [ofI128WithScale]
    split
    · rw [dif_neg (by omega)]
      split
      · exact ⟨_, rfl⟩
      · exact ⟨_, rfl⟩
    · exact ⟨_, rfl⟩
  rescaleKeeps _ _ := rescaled_keeps

theorem roundTrips_iff_pi : RoundTrips rustDecimal ⟨true, 31415, 4, by decide, by decide⟩ :=
  (roundTrips_iff rustDecimal_documented _).mpr (.inl (by decide))

/-- The largest mantissa with one digit after the decimal point does not survive. -/
theorem not_roundTrips_max :
    ¬ RoundTrips rustDecimal ⟨false, 79228162514264337593543950335, 1, by decide, by decide⟩ := by
  rintro ⟨raw, back, wrote, read, _⟩
  have lost : (toSql ⟨false, 79228162514264337593543950335, 1, by decide, by decide⟩).bind
      (fromSql rustDecimal) =
        .error (.message "Number exceeds maximum value that can be represented.") := by
    decide +kernel
  rw [wrote, Except.bind, read] at lost
  cases lost

end OpenGauss.Types.Decimal
