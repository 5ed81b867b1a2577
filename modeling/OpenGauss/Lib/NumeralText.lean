import OpenGauss.Lib.Numeral
import OpenGauss.Lib.Text
import Mathlib.Algebra.Order.Group.Nat
import Mathlib.Data.List.Basic
import Mathlib.Data.List.Induction

/-! Decimal numerals as the formatting macros of the source print them, and that
they are read as the number they are printed for. -/

set_option autoImplicit false

namespace OpenGauss.Lib.Numeral

/-- `{}` of a signed integer. -/
def showSigned (value : Int) : List Char :=
  if value < 0 then '-' :: Nat.toDigits 10 value.natAbs else Nat.toDigits 10 value.natAbs

/-- `{:0width}` of a signed integer: the zeros stand behind the sign. -/
def zeroPadded (width : Nat) (value : Int) : List Char :=
  let sign := if value < 0 then ['-'] else []
  let digits := Nat.toDigits 10 value.natAbs
  sign ++ List.replicate (width - sign.length - digits.length) '0' ++ digits

/-- A number of units of the last of `scale` digits behind a point. -/
def fixedPoint (units scale : Nat) : List Char :=
  Nat.toDigits 10 (units / 10 ^ scale) ++
    if scale = 0 then [] else '.' :: zeroPadded scale (units % 10 ^ scale : Nat)

/-- A number with its sign in front of it. -/
def withSign (negative : Bool) (number : List Char) : List Char :=
  if negative then '-' :: number else number

/-! ### The digits of a number -/

theorem magnitude?_digits {chars : List Char} (filled : chars ≠ [])
    (digits : ∀ char ∈ chars, char.isDigit = true) :
    magnitude? chars = some (Nat.ofDigitChars 10 chars 0) := by
  cases chars with
  | nil => exact absurd rfl filled
  | cons char chars => rw [magnitude?, digits?_ofDigitChars digits]

theorem magnitude?_toDigits (number : Nat) :
    magnitude? (Nat.toDigits 10 number) = some number := by
  rw [magnitude?_digits Nat.toDigits_ne_nil (toDigits_digits number),
    Nat.ofDigitChars_ten_toDigits]

theorem digits?_iff {chars : List Char} {before value : Nat} :
    digits? before chars = some value ↔
      (∀ char ∈ chars, char.isDigit = true) ∧ Nat.ofDigitChars 10 chars before = value := by
  induction chars generalizing before with
  | nil => simp [digits?]
  | cons char chars ih =>
      by_cases digit : '0' ≤ char ∧ char ≤ '9'
      · have isDigit : char.isDigit = true := by
          rw [Char.isDigit, Bool.and_eq_true, decide_eq_true_eq, decide_eq_true_eq]
          exact digit
        rw [digits?, digit?, if_pos digit, ih, List.forall_mem_cons, Nat.ofDigitChars_cons,
          Nat.mul_comm, eq_true isDigit, true_and]
        rfl
      · have notDigit : ¬char.isDigit = true := by
          intro isDigit
          rw [Char.isDigit, Bool.and_eq_true, decide_eq_true_eq, decide_eq_true_eq] at isDigit
          exact digit isDigit
        rw [digits?, digit?, if_neg digit]
        refine iff_of_false (by simp) fun read => ?_
        exact notDigit (read.1 char List.mem_cons_self)

/-- What is read as an unsigned number: digits, perhaps behind a plus. -/
theorem parseUnsigned_iff {bound value : Nat} {text : List Char} :
    parseUnsigned bound text = some value ↔ ∃ sign digits, text = sign ++ digits ∧
      (sign = [] ∨ sign = ['+']) ∧ digits ≠ [] ∧ (∀ char ∈ digits, char.isDigit = true) ∧
      Nat.ofDigitChars 10 digits 0 = value ∧ value < bound := by
  have magnitude {digits : List Char} : (magnitude? digits).filter (· < bound) = some value ↔
      digits ≠ [] ∧ (∀ char ∈ digits, char.isDigit = true) ∧
        Nat.ofDigitChars 10 digits 0 = value ∧ value < bound := by
    rw [Option.filter_eq_some_iff, decide_eq_true_eq]
    cases digits with
    | nil => exact iff_of_false (by simp [magnitude?]) fun read => read.1 rfl
    | cons char chars =>
        rw [magnitude?, digits?_iff, and_assoc]
        exact (and_iff_right (List.cons_ne_nil _ _)).symm
  constructor
  · intro read
    unfold parseUnsigned at read
    split at read
    · next rest => exact ⟨['+'], rest, rfl, .inr rfl, magnitude.mp read⟩
    · exact ⟨[], text, rfl, .inl rfl, magnitude.mp read⟩
  · rintro ⟨sign, digits, rfl, rfl | rfl, numeral⟩
    · have unsigned : ∀ rest, digits ≠ '+' :: rest := by
        rintro rest rfl
        exact absurd (numeral.2.1 '+' List.mem_cons_self) (by decide)
      rw [List.nil_append]
      unfold parseUnsigned
      split
      · next rest => exact absurd rfl (unsigned rest)
      · exact magnitude.mpr numeral
    · exact magnitude.mpr numeral

theorem digitChar_toNat {number : Nat} (small : number < 10) :
    (Nat.digitChar number).toNat = number + 48 := by
  have ten : number = 0 ∨ number = 1 ∨ number = 2 ∨ number = 3 ∨ number = 4 ∨ number = 5 ∨
      number = 6 ∨ number = 7 ∨ number = 8 ∨ number = 9 := by omega
  rcases ten with rfl | rfl | rfl | rfl | rfl | rfl | rfl | rfl | rfl | rfl <;> rfl

theorem digitChar_of_isDigit {char : Char} (digit : char.isDigit = true) :
    char.toNat - '0'.toNat < 10 ∧ Nat.digitChar (char.toNat - '0'.toNat) = char := by
  rw [Char.isDigit, Bool.and_eq_true, decide_eq_true_eq, decide_eq_true_eq] at digit
  have least : 48 ≤ char.toNat := digit.1
  have most : char.toNat ≤ 57 := digit.2
  have zero : '0'.toNat = 48 := rfl
  rw [zero]
  refine ⟨by omega, Char.toNat_inj.mp ?_⟩
  rw [digitChar_toNat (by omega)]
  omega

/-- Digits without a zero in front are those of the number that they denote. -/
theorem toDigits_ofDigitChars {chars : List Char} (digits : ∀ char ∈ chars, char.isDigit = true)
    {first : Char} (starts : chars.head? = some first) (noZero : first ≠ '0') :
    0 < Nat.ofDigitChars 10 chars 0 ∧ Nat.toDigits 10 (Nat.ofDigitChars 10 chars 0) = chars := by
  induction chars using List.reverseRecOn with
  | nil => cases starts
  | append_singleton front last ih =>
      obtain ⟨small, shown⟩ := digitChar_of_isDigit (digits last (List.mem_append_right _ List.mem_cons_self))
      have number : Nat.ofDigitChars 10 (front ++ [last]) 0 =
          10 * Nat.ofDigitChars 10 front 0 + (last.toNat - '0'.toNat) := by
        rw [Nat.ofDigitChars_append, Nat.ofDigitChars_cons, Nat.ofDigitChars_nil]
      cases front with
      | nil =>
          obtain rfl : last = first := Option.some.inj starts
          rw [number, Nat.ofDigitChars_nil, Nat.mul_zero, Nat.zero_add]
          refine ⟨Nat.pos_of_ne_zero fun zero => noZero ?_, ?_⟩
          · rw [← shown, zero]
            rfl
          · rw [Nat.toDigits_of_lt_base small, shown]
            rfl
      | cons head front =>
          have inner : ∀ char ∈ head :: front, char.isDigit = true :=
            fun char member => digits char (List.mem_append_left _ member)
          obtain ⟨positive, same⟩ := ih inner starts
          rw [number]
          generalize Nat.ofDigitChars 10 (head :: front) 0 = amount at positive same ⊢
          have quotient : (10 * amount + (last.toNat - '0'.toNat)) / 10 = amount := by omega
          have remainder : (10 * amount + (last.toNat - '0'.toNat)) % 10 =
              last.toNat - '0'.toNat := by omega
          refine ⟨by omega, ?_⟩
          rw [Nat.toDigits_of_base_le (by decide) (by omega), quotient, remainder, same, shown]

/-! ### Signed numerals -/

theorem showSigned_chars (value : Int) :
    ∀ char ∈ showSigned value, char = '-' ∨ char.isDigit = true := by
  intro char member
  rw [showSigned] at member
  split at member
  · cases member with
    | head => exact .inl rfl
    | tail _ later => exact .inr (toDigits_digits _ char later)
  · exact .inr (toDigits_digits _ char member)

/-- A printed number is read as itself. -/
theorem parseSigned_showSigned {bound : Nat} {value : Int} (least : -(bound : Int) ≤ value)
    (below : value < bound) : parseSigned bound (showSigned value) = some value := by
  rw [showSigned]
  split
  · next negative =>
      have inRange : decide (value.natAbs ≤ bound) = true := by
        rw [decide_eq_true_eq]
        omega
      have same : -((value.natAbs : Nat) : Int) = value := by omega
      rw [parseSigned, magnitude?_toDigits, Option.filter_some, if_pos inRange]
      exact congrArg some same
  · next nonnegative =>
      have inRange : decide (value.natAbs < bound) = true := by
        rw [decide_eq_true_eq]
        omega
      have same : ((value.natAbs : Nat) : Int) = value := by omega
      have digits := toDigits_digits value.natAbs
      have read := magnitude?_toDigits value.natAbs
      cases shown : Nat.toDigits 10 value.natAbs with
      | nil => exact absurd shown Nat.toDigits_ne_nil
      | cons char chars =>
          rw [shown] at digits read
          have first := digits char List.mem_cons_self
          have notMinus : char ≠ '-' := fun minus => absurd (minus ▸ first) (by decide)
          have notPlus : char ≠ '+' := fun plus => absurd (plus ▸ first) (by decide)
          unfold parseSigned
          split
          · next minus => exact absurd (List.cons.inj minus).1 notMinus
          · next plus => exact absurd (List.cons.inj plus).1 notPlus
          · rw [read, Option.filter_some, if_pos inRange]
            exact congrArg some same

/-! ### Numerals with leading zeros -/

theorem zeroPadded_natCast (width value : Nat) :
    zeroPadded width value =
      List.replicate (width - (Nat.toDigits 10 value).length) '0' ++ Nat.toDigits 10 value := by
  rw [zeroPadded, if_neg (Int.not_lt.mpr (Int.natCast_nonneg value)), Int.natAbs_natCast]
  rfl

theorem zeroPadded_digits (width value : Nat) :
    ∀ char ∈ zeroPadded width value, char.isDigit = true := by
  intro char member
  rw [zeroPadded_natCast] at member
  cases List.mem_append.mp member with
  | inl zero => rw [List.eq_of_mem_replicate zero]; rfl
  | inr digit => exact toDigits_digits value char digit

theorem zeroPadded_length {width value : Nat} (positive : 0 < width) (small : value < 10 ^ width) :
    (zeroPadded width value).length = width := by
  have short := (Nat.length_toDigits_le_iff (by decide) positive).mpr small
  rw [zeroPadded_natCast, List.length_append, List.length_replicate]
  omega

theorem ofDigitChars_zeros (count : Nat) :
    Nat.ofDigitChars 10 (List.replicate count '0') 0 = 0 := by
  induction count with
  | zero => rfl
  | succ count ih =>
      rw [List.replicate_succ, Nat.ofDigitChars_cons]
      exact ih

theorem magnitude?_zeroPadded (width value : Nat) :
    magnitude? (zeroPadded width value) = some value := by
  have filled : zeroPadded width value ≠ [] := by
    rw [zeroPadded_natCast]
    exact List.append_ne_nil_of_right_ne_nil _ Nat.toDigits_ne_nil
  rw [magnitude?_digits filled (zeroPadded_digits width value), zeroPadded_natCast,
    Nat.ofDigitChars_append, ofDigitChars_zeros, Nat.ofDigitChars_ten_toDigits]

/-! ### Digits behind a point -/

theorem not_mem_of_digits {chars : List Char} (digits : ∀ other ∈ chars, other.isDigit = true)
    {char : Char} (noDigit : char.isDigit = false) : char ∉ chars := by
  intro member
  rw [digits char member] at noDigit
  cases noDigit

theorem splitTwo_fixedPoint (units scale : Nat) :
    Text.splitTwo '.' (fixedPoint units scale) =
      (Nat.toDigits 10 (units / 10 ^ scale),
        if scale = 0 then none else some (zeroPadded scale (units % 10 ^ scale : Nat))) := by
  have noPoint : '.' ∉ Nat.toDigits 10 (units / 10 ^ scale) :=
    not_mem_of_digits (toDigits_digits _) rfl
  rw [fixedPoint]
  split
  · rw [List.append_nil, Text.splitTwo_single noPoint]
  · exact Text.splitTwo_append noPoint _

/-- The digits of a number say which number it is. -/
theorem toDigits_inj {number other : Nat} (same : Nat.toDigits 10 number = Nat.toDigits 10 other) :
    number = other := by
  have read := magnitude?_toDigits number
  rw [same, magnitude?_toDigits] at read
  exact (Option.some.inj read).symm

/-- A number with digits behind a point is read back with them. -/
theorem fixedPoint_inj {units scale otherUnits otherScale : Nat}
    (same : fixedPoint units scale = fixedPoint otherUnits otherScale) :
    units = otherUnits ∧ scale = otherScale := by
  have split := splitTwo_fixedPoint units scale
  rw [same, splitTwo_fixedPoint] at split
  obtain ⟨whole, fraction⟩ := Prod.mk.inj split
  have wholes := toDigits_inj whole
  have ten : 0 < 10 := Nat.succ_pos 9
  by_cases zero : scale = 0
  · by_cases otherZero : otherScale = 0
    · rw [zero, otherZero, Nat.pow_zero, Nat.div_one, Nat.div_one] at wholes
      exact ⟨wholes.symm, zero.trans otherZero.symm⟩
    · rw [if_pos zero, if_neg otherZero] at fraction
      cases fraction
  · by_cases otherZero : otherScale = 0
    · rw [if_neg zero, if_pos otherZero] at fraction
      cases fraction
    · rw [if_neg zero, if_neg otherZero] at fraction
      have padded := Option.some.inj fraction
      have scales : scale = otherScale := by
        have lengths := congrArg List.length padded
        rw [zeroPadded_length (Nat.pos_of_ne_zero zero) (Nat.mod_lt _ (Nat.pow_pos ten)),
          zeroPadded_length (Nat.pos_of_ne_zero otherZero) (Nat.mod_lt _ (Nat.pow_pos ten))] at lengths
        exact lengths.symm
      have fractions : units % 10 ^ scale = otherUnits % 10 ^ otherScale := by
        have read := magnitude?_zeroPadded scale (units % 10 ^ scale)
        rw [← padded, magnitude?_zeroPadded] at read
        exact (Option.some.inj read).symm
      refine ⟨?_, scales⟩
      rw [← Nat.div_add_mod units (10 ^ scale), fractions, ← wholes, scales, Nat.div_add_mod]

theorem fixedPoint_unsigned (units scale : Nat) : (fixedPoint units scale).head? ≠ some '-' := by
  intro signed
  have digits := toDigits_digits (units / 10 ^ scale)
  rw [fixedPoint] at signed
  cases shown : Nat.toDigits 10 (units / 10 ^ scale) with
  | nil => exact absurd shown Nat.toDigits_ne_nil
  | cons char chars =>
      rw [shown, List.cons_append, List.head?_cons] at signed
      have digit := digits char (shown ▸ List.mem_cons_self)
      rw [Option.some.inj signed] at digit
      exact absurd digit (by decide)

theorem withSign_inj {negative other : Bool} {number otherNumber : List Char}
    (unsigned : number.head? ≠ some '-') (otherUnsigned : otherNumber.head? ≠ some '-')
    (same : withSign negative number = withSign other otherNumber) :
    negative = other ∧ number = otherNumber := by
  cases negative with
  | true =>
      cases other with
      | true => exact ⟨rfl, (List.cons.inj same).2⟩
      | false => exact absurd (congrArg List.head? same).symm otherUnsigned
  | false =>
      cases other with
      | true => exact absurd (congrArg List.head? same) unsigned
      | false => exact ⟨rfl, same⟩

/-- An integer is a number with a sign and no digits behind a point. -/
theorem showSigned_eq (value : Int) :
    showSigned value = withSign (decide (value < 0)) (fixedPoint value.natAbs 0) := by
  rw [showSigned, withSign, fixedPoint, if_pos rfl, List.append_nil, Nat.pow_zero, Nat.div_one]
  by_cases negative : value < 0
  · rw [if_pos negative, if_pos (decide_eq_true negative)]
  · rw [if_neg negative, decide_eq_false negative, if_neg Bool.false_ne_true]

theorem fixedPoint_tenths (number : Nat) :
    fixedPoint (number * 10) 1 = Nat.toDigits 10 number ++ ['.', '0'] := by
  have ten : 0 < 10 := Nat.succ_pos 9
  have zero : zeroPadded 1 (0 : Nat) = ['0'] := by decide
  rw [fixedPoint, if_neg Nat.one_ne_zero, Nat.pow_one, Nat.mul_div_cancel _ ten,
    Nat.mul_mod_left, zero]

/-- What a number with a point is written with. -/
theorem withSign_chars (negative : Bool) (units scale : Nat) :
    ∀ char ∈ withSign negative (fixedPoint units scale),
      char.isDigit = true ∨ char = '-' ∨ char = '.' := by
  have digits : ∀ char ∈ fixedPoint units scale, char.isDigit = true ∨ char = '-' ∨ char = '.' := by
    intro char member
    rw [fixedPoint] at member
    cases List.mem_append.mp member with
    | inl whole => exact .inl (toDigits_digits _ char whole)
    | inr fraction =>
        split at fraction
        · cases fraction
        · cases List.mem_cons.mp fraction with
          | inl point => exact .inr (.inr point)
          | inr digit => exact .inl (zeroPadded_digits _ _ char digit)
  intro char member
  cases negative with
  | true =>
      cases List.mem_cons.mp member with
      | inl minus => exact .inr (.inl minus)
      | inr rest => exact digits char rest
  | false => exact digits char member

theorem not_mem_withSign {char : Char} (noDigit : char.isDigit = false) (notMinus : char ≠ '-')
    (notPoint : char ≠ '.') (negative : Bool) (units scale : Nat) :
    char ∉ withSign negative (fixedPoint units scale) := by
  intro member
  rcases withSign_chars negative units scale char member with digit | minus | point
  · rw [digit] at noDigit
    cases noDigit
  · exact notMinus minus
  · exact notPoint point

theorem point_mem_withSign (negative : Bool) (units scale : Nat) :
    '.' ∈ withSign negative (fixedPoint units (scale + 1)) := by
  have point : '.' ∈ fixedPoint units (scale + 1) := by
    rw [fixedPoint, if_neg (Nat.succ_ne_zero scale)]
    exact List.mem_append_right _ List.mem_cons_self
  cases negative with
  | true => exact List.mem_cons_of_mem _ point
  | false => exact point

/-- The text of a number says its sign, its digits and where its point is. -/
theorem withSign_fixedPoint_inj {negative other : Bool} {units scale otherUnits otherScale : Nat}
    (same : withSign negative (fixedPoint units scale) =
      withSign other (fixedPoint otherUnits otherScale)) :
    negative = other ∧ units = otherUnits ∧ scale = otherScale := by
  obtain ⟨signs, numbers⟩ :=
    withSign_inj (fixedPoint_unsigned units scale) (fixedPoint_unsigned _ _) same
  exact ⟨signs, fixedPoint_inj numbers⟩

end OpenGauss.Lib.Numeral
