import Mathlib.Data.List.Basic

/-! Base64 with the standard alphabet and padding. -/

set_option autoImplicit false

namespace OpenGauss.Lib.Base64

def alphabet : List Char :=
  "ABCDEFGHIJKLMNOPQRSTUVWXYZabcdefghijklmnopqrstuvwxyz0123456789+/".toList

/-- The character of a six bit value. -/
def symbol (value : Nat) : Char := alphabet.getD value '='

def value? (char : Char) : Option Nat := alphabet.findIdx? (· == char)

/-- Three bytes make four symbols. What is missing of the last three is padded. -/
def encode : List UInt8 → List Char
  | [] => []
  | [first] => [symbol (first.toNat / 4), symbol (first.toNat % 4 * 16), '=', '=']
  | [first, second] =>
      [symbol (first.toNat / 4), symbol (first.toNat % 4 * 16 + second.toNat / 16),
        symbol (second.toNat % 16 * 4), '=']
  | first :: second :: third :: rest =>
      symbol (first.toNat / 4) :: symbol (first.toNat % 4 * 16 + second.toNat / 16) ::
        symbol (second.toNat % 16 * 4 + third.toNat / 64) :: symbol (third.toNat % 64) ::
          encode rest

/-- The bytes of a text that `encode` writes. -/
def decode? : List Char → Option (List UInt8)
  | [] => some []
  | [first, second, '=', '='] => do
      let first ← value? first
      let second ← value? second
      if second % 16 = 0 then some [UInt8.ofNat (first * 4 + second / 16)] else none
  | [first, second, third, '='] => do
      let first ← value? first
      let second ← value? second
      let third ← value? third
      if third % 4 = 0 then
        some [UInt8.ofNat (first * 4 + second / 16), UInt8.ofNat (second % 16 * 16 + third / 4)]
      else none
  | first :: second :: third :: fourth :: rest => do
      let first ← value? first
      let second ← value? second
      let third ← value? third
      let fourth ← value? fourth
      let rest ← decode? rest
      return UInt8.ofNat (first * 4 + second / 16) ::
        UInt8.ofNat (second % 16 * 16 + third / 4) :: UInt8.ofNat (third % 4 * 64 + fourth) :: rest
  | _ => none

theorem value?_symbol : ∀ value < 64, value? (symbol value) = some value := by
  decide +kernel

theorem symbol_ne_padding : ∀ value < 64, symbol value ≠ '=' := by
  decide +kernel

/-- The characters of an encoding. -/
def isSymbol (char : Char) : Prop := char = '=' ∨ char ∈ alphabet

theorem isSymbol_symbol (value : Nat) : isSymbol (symbol value) := by
  rw [symbol, List.getD_eq_getElem?_getD]
  cases found : alphabet[value]? with
  | none => exact .inl rfl
  | some char => exact .inr (List.mem_of_getElem? found)

/-! The parts that a byte is cut into are put together again. -/

theorem join_first (byte : UInt8) {below : Nat} (fits : below < 16) :
    UInt8.ofNat (byte.toNat / 4 * 4 + (byte.toNat % 4 * 16 + below) / 16) = byte := by
  have same : byte.toNat / 4 * 4 + (byte.toNat % 4 * 16 + below) / 16 = byte.toNat := by omega
  rw [same, UInt8.ofNat_toNat]

theorem join_second (byte : UInt8) (above : Nat) {below : Nat} (fits : below < 4) :
    UInt8.ofNat ((above * 16 + byte.toNat / 16) % 16 * 16 + (byte.toNat % 16 * 4 + below) / 4) =
      byte := by
  have bound := byte.toNat_lt
  have same : (above * 16 + byte.toNat / 16) % 16 * 16 + (byte.toNat % 16 * 4 + below) / 4 =
      byte.toNat := by omega
  rw [same, UInt8.ofNat_toNat]

theorem join_third (byte : UInt8) (above : Nat) :
    UInt8.ofNat ((above * 4 + byte.toNat / 64) % 4 * 64 + byte.toNat % 64) = byte := by
  have bound := byte.toNat_lt
  have same : (above * 4 + byte.toNat / 64) % 4 * 64 + byte.toNat % 64 = byte.toNat := by omega
  rw [same, UInt8.ofNat_toNat]

theorem decode?_encode (bytes : List UInt8) : decode? (encode bytes) = some bytes := by
  induction bytes using encode.induct with
  | case1 => rfl
  | case2 first =>
      have bound := first.toNat_lt
      have joined := join_first first (show 0 < 16 by decide)
      rw [Nat.add_zero] at joined
      simp only [encode, decode?, value?_symbol (first.toNat / 4) (by omega),
        value?_symbol (first.toNat % 4 * 16) (by omega), Option.bind_eq_bind, Option.bind_some]
      rw [if_pos (by omega), joined]
  | case3 first second =>
      have bound := first.toNat_lt
      have bound' := second.toNat_lt
      have padding := symbol_ne_padding (second.toNat % 16 * 4) (by omega)
      have joined := join_second second (first.toNat % 4) (show 0 < 4 by decide)
      rw [Nat.add_zero] at joined
      rw [encode, decode?]
      · simp only [value?_symbol (first.toNat / 4) (by omega),
          value?_symbol (first.toNat % 4 * 16 + second.toNat / 16) (by omega),
          value?_symbol (second.toNat % 16 * 4) (by omega), Option.bind_eq_bind, Option.bind_some]
        rw [if_pos (by omega), join_first first (by omega), joined]
      · exact padding
  | case4 first second third rest ih =>
      have bound := first.toNat_lt
      have bound' := second.toNat_lt
      have bound'' := third.toNat_lt
      have padding := symbol_ne_padding (third.toNat % 64) (by omega)
      rw [encode, decode?]
      · simp only [value?_symbol (first.toNat / 4) (by omega),
          value?_symbol (first.toNat % 4 * 16 + second.toNat / 16) (by omega),
          value?_symbol (second.toNat % 16 * 4 + third.toNat / 64) (by omega),
          value?_symbol (third.toNat % 64) (by omega), ih, Option.bind_eq_bind, Option.bind_some,
          Option.pure_def]
        rw [join_first first (by omega), join_second second (first.toNat % 4) (by omega),
          join_third]
      · intro _ same
        exact absurd same padding
      · intro same
        exact absurd same padding

theorem isSymbol_of_mem (bytes : List UInt8) : ∀ char ∈ encode bytes, isSymbol char := by
  have padding : isSymbol '=' := .inl rfl
  have none : ∀ char ∈ ([] : List Char), isSymbol char := by
    intro char member
    exact absurd member List.not_mem_nil
  induction bytes using encode.induct with
  | case1 => exact none
  | case2 first =>
      simp only [encode, List.forall_mem_cons]
      exact ⟨isSymbol_symbol _, isSymbol_symbol _, padding, padding, none⟩
  | case3 first second =>
      simp only [encode, List.forall_mem_cons]
      exact ⟨isSymbol_symbol _, isSymbol_symbol _, isSymbol_symbol _, padding, none⟩
  | case4 first second third rest ih =>
      simp only [encode, List.forall_mem_cons]
      exact ⟨isSymbol_symbol _, isSymbol_symbol _, isSymbol_symbol _, isSymbol_symbol _, ih⟩

end OpenGauss.Lib.Base64
