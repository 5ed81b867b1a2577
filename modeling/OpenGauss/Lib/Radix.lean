import Mathlib.Data.List.Basic

/-! Numerals in a radix other than ten, read as the standard library of the source reads
them, and printed as its formatting macros print them. -/

set_option autoImplicit false

namespace OpenGauss.Lib.Radix

/-- `char::to_digit`. -/
def digit? (radix : Nat) (char : Char) : Option Nat :=
  let digit :=
    if '0' ≤ char ∧ char ≤ '9' then char.toNat - 48
    else if 'a' ≤ char ∧ char ≤ 'z' then char.toNat - 87
    else if 'A' ≤ char ∧ char ≤ 'Z' then char.toNat - 55
    else radix
  if digit < radix then some digit else none

/-- The value of a digit string read after `value`. -/
def digits? (radix : Nat) : Nat → List Char → Option Nat
  | value, [] => some value
  | value, char :: chars => do digits? radix (value * radix + (← digit? radix char)) chars

/-- A sign, which may be a plus only, and the text behind it. -/
def unsign : List Char → List Char
  | '+' :: rest => rest
  | text => text

/-- `from_str_radix` of an unsigned integer type whose values are below `bound`. -/
def fromStrRadix (bound : Nat) (text : List Char) (radix : Nat) : Option Nat :=
  if unsign text = [] then none else (digits? radix 0 (unsign text)).filter (· < bound)

/-- `{:X}`. -/
def upperHex (number : Nat) : List Char := (Nat.toDigits 16 number).map Char.toUpper

/-! ### Digit strings -/

/-- A non-empty text of digits. -/
structure IsNumeral (radix : Nat) (text : List Char) : Prop where
  filled : text ≠ []
  digits : ∀ char ∈ text, (digit? radix char).isSome = true

/-- The number that a text of digits denotes. -/
def valueOf (radix : Nat) (text : List Char) : Nat :=
  text.foldl (fun value char => value * radix + (digit? radix char).getD 0) 0

variable {radix : Nat}

theorem digits?_iff {text : List Char} {before value : Nat} :
    digits? radix before text = some value ↔
      (∀ char ∈ text, (digit? radix char).isSome = true) ∧
        text.foldl (fun value char => value * radix + (digit? radix char).getD 0) before = value := by
  induction text generalizing before with
  | nil => simp [digits?]
  | cons char text ih =>
      cases digit : digit? radix char with
      | none => simp [digits?, digit]
      | some digit => simp [digits?, digit, ih]

/-- What is read: digits, perhaps behind a plus, whose value is in range. -/
theorem fromStrRadix_iff {bound value : Nat} {text : List Char} :
    fromStrRadix bound text radix = some value ↔
      IsNumeral radix (unsign text) ∧ valueOf radix (unsign text) = value ∧ value < bound := by
  rw [fromStrRadix]
  by_cases empty : unsign text = []
  · rw [if_pos empty]
    exact iff_of_false nofun fun ⟨numeral, _⟩ => numeral.filled empty
  · rw [if_neg empty, Option.filter_eq_some_iff, digits?_iff, decide_eq_true_eq]
    constructor
    · rintro ⟨⟨digits, same⟩, small⟩
      exact ⟨⟨empty, digits⟩, same, small⟩
    · rintro ⟨⟨_, digits⟩, same, small⟩
      exact ⟨⟨digits, same⟩, small⟩

theorem unsign_numeral {text : List Char} (numeral : IsNumeral radix text)
    (noSign : digit? radix '+' = none) : unsign text = text := by
  unfold unsign
  split
  · next rest =>
      have digit := numeral.digits '+' List.mem_cons_self
      rw [noSign] at digit
      cases digit
  · rfl

/-! ### Hexadecimal -/

theorem digit?_digitChar {digit : Nat} (small : digit < 16) :
    digit? 16 digit.digitChar.toUpper = some digit := by
  have all : ∀ digit ∈ List.range 16, digit? 16 digit.digitChar.toUpper = some digit := by decide
  exact all digit (List.mem_range.mpr small)

/-- The digits of a number are digits of that number. -/
theorem upperHex_numeral (number : Nat) :
    IsNumeral 16 (upperHex number) ∧ valueOf 16 (upperHex number) = number := by
  induction number using Nat.strongRecOn with
  | ind number ih =>
      by_cases small : number < 16
      · have digit := digit?_digitChar small
        rw [upperHex, Nat.toDigits_of_lt_base small]
        exact ⟨⟨List.cons_ne_nil _ _, by simp [digit]⟩, by simp [valueOf, digit]⟩
      · have digit := digit?_digitChar (Nat.mod_lt number (by decide : 16 > 0))
        obtain ⟨front, value⟩ := ih (number / 16) (by omega)
        have shown : upperHex number =
            upperHex (number / 16) ++ [(number % 16).digitChar.toUpper] := by
          rw [upperHex, Nat.toDigits_of_base_le (by decide) (by omega), List.map_append]
          rfl
        rw [shown]
        constructor
        · refine ⟨List.append_ne_nil_of_left_ne_nil front.filled _, fun char member => ?_⟩
          rcases List.mem_append.mp member with earlier | last
          · exact front.digits char earlier
          · rw [List.mem_singleton.mp last, digit]
            rfl
        · rw [valueOf, List.foldl_append, ← valueOf, value]
          simp only [List.foldl_cons, List.foldl_nil, digit, Option.getD_some]
          omega

theorem fromStrRadix_upperHex {bound number : Nat} (small : number < bound) :
    fromStrRadix bound (upperHex number) 16 = some number := by
  obtain ⟨numeral, value⟩ := upperHex_numeral number
  rw [fromStrRadix_iff, unsign_numeral numeral (by decide)]
  exact ⟨numeral, value, small⟩

end OpenGauss.Lib.Radix
