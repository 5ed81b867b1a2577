/-! Decimal numerals, read as the standard library of the source reads them:
`parse` accepts a sign, at least one ASCII digit, and nothing out of range. -/

set_option autoImplicit false

namespace OpenGauss.Lib.Numeral

def digit? (char : Char) : Option Nat :=
  if '0' ≤ char ∧ char ≤ '9' then some (char.toNat - 48) else none

/-- The value of a digit string read after `value`. -/
def digits? : Nat → List Char → Option Nat
  | value, [] => some value
  | value, char :: chars =>
      match digit? char with
      | none => none
      | some digit => digits? (value * 10 + digit) chars

/-- A non-empty digit string. -/
def magnitude? : List Char → Option Nat
  | [] => none
  | char :: chars => digits? 0 (char :: chars)

/-- `str::parse` of an unsigned integer type whose values are below `bound`. -/
def parseUnsigned (bound : Nat) (text : List Char) : Option Nat :=
  let digits := match text with
    | '+' :: rest => rest
    | _ => text
  (magnitude? digits).filter (· < bound)

/-- `str::parse` of a signed integer type whose values lie in `-bound ..< bound`. -/
def parseSigned (bound : Nat) (text : List Char) : Option Int :=
  match text with
  | '-' :: rest => ((magnitude? rest).filter (· ≤ bound)).map fun value => -(value : Int)
  | '+' :: rest => ((magnitude? rest).filter (· < bound)).map fun value => (value : Int)
  | _ => ((magnitude? text).filter (· < bound)).map fun value => (value : Int)

theorem digits?_ofDigitChars {chars : List Char} (digits : ∀ char ∈ chars, char.isDigit = true)
    (value : Nat) : digits? value chars = some (Nat.ofDigitChars 10 chars value) := by
  induction chars generalizing value with
  | nil => rw [Nat.ofDigitChars_nil, digits?]
  | cons char chars ih =>
      have digit : digit? char = some (char.toNat - 48) := by
        have isDigit := digits char (List.mem_cons_self ..)
        rw [Char.isDigit, Bool.and_eq_true, decide_eq_true_eq, decide_eq_true_eq] at isDigit
        exact if_pos isDigit
      rw [digits?, digit, Nat.ofDigitChars_cons, Nat.mul_comm]
      exact ih (fun other member => digits other (List.mem_cons_of_mem _ member)) _

theorem toDigits_digits (number : Nat) : ∀ char ∈ Nat.toDigits 10 number, char.isDigit = true :=
  fun _ member => Nat.isDigit_of_mem_toDigits (by decide) (by decide) member

theorem parseUnsigned_digits (bound number : Nat) :
    parseUnsigned bound (Nat.toDigits 10 number) = (some number).filter (· < bound) := by
  have digits := toDigits_digits number
  cases shown : Nat.toDigits 10 number with
  | nil => exact absurd shown Nat.toDigits_ne_nil
  | cons char chars =>
      have unsigned : char ≠ '+' := by
        rintro rfl
        exact absurd (digits '+' (shown ▸ List.mem_cons_self ..)) (by decide)
      have value : magnitude? (char :: chars) = some number := by
        rw [magnitude?, digits?_ofDigitChars (shown ▸ digits), ← shown,
          Nat.ofDigitChars_ten_toDigits]
      simp [parseUnsigned, unsigned, value]

/-- The digits of a number are read as that number. -/
theorem parseUnsigned_toDigits {bound number : Nat} (below : number < bound) :
    parseUnsigned bound (Nat.toDigits 10 number) = some number := by
  rw [parseUnsigned_digits]
  exact Option.filter_eq_some_iff.mpr ⟨rfl, decide_eq_true below⟩

end OpenGauss.Lib.Numeral
