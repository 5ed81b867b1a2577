import Mathlib.Data.List.Basic
import OpenGauss.Lib.Text
import OpenGauss.Lib.Utf8

/-! Percent-encoding of bytes: everything outside the unreserved set is written
as `%` and two hexadecimal digits. -/

set_option autoImplicit false

namespace OpenGauss.Lib.PercentEncoding

def isUnreserved (char : Char) : Bool :=
  char.isAlphanum || char == '-' || char == '.' || char == '_' || char == '~'

def hexDigit (value : Nat) : Char := Char.ofNat (if value < 10 then 48 + value else 55 + value)

def encodeByte (byte : UInt8) : List Char :=
  if isUnreserved (Char.ofNat byte.toNat) then [Char.ofNat byte.toNat]
  else ['%', hexDigit (byte.toNat / 16), hexDigit (byte.toNat % 16)]

def encode (bytes : List UInt8) : List Char := bytes.flatMap encodeByte

def hexValue? (byte : UInt8) : Option Nat :=
  if 48 ≤ byte ∧ byte ≤ 57 then some (byte.toNat - 48)
  else if 65 ≤ byte ∧ byte ≤ 70 then some (byte.toNat - 55)
  else if 97 ≤ byte ∧ byte ≤ 102 then some (byte.toNat - 87)
  else none

/-- A percent sign without two digits behind it stands for itself. -/
def decode : List UInt8 → List UInt8
  | [] => []
  | [byte] => [byte]
  | [byte, next] => [byte, next]
  | byte :: high :: low :: later =>
      if byte = 37 then
        match hexValue? high, hexValue? low with
        | some high, some low => UInt8.ofNat (16 * high + low) :: decode later
        | _, _ => byte :: decode (high :: low :: later)
      else byte :: decode (high :: low :: later)

/-- The characters of encoded bytes. -/
def isComponent (char : Char) : Bool := isUnreserved char || char == '%'

theorem decode_literal {byte : UInt8} (literal : byte ≠ 37) (rest : List UInt8) :
    decode (byte :: rest) = byte :: decode rest := by
  match rest with
  | [] | [_] => rfl
  | _ :: _ :: _ => rw [decode, if_neg literal]

theorem decode_percent {high low : UInt8} {first second : Nat} (highDigit : hexValue? high = some first)
    (lowDigit : hexValue? low = some second) (rest : List UInt8) :
    decode (37 :: high :: low :: rest) = UInt8.ofNat (16 * first + second) :: decode rest := by
  rw [decode, if_pos rfl, highDigit, lowDigit]

theorem hexValue?_hexDigit {value : Nat} (below : value < 16) :
    hexValue? (UInt8.ofNat (hexDigit value).toNat) = some value := by
  have all : ∀ value < 16, hexValue? (UInt8.ofNat (hexDigit value).toNat) = some value := by
    decide +kernel
  exact all value below

/-- A fact about bytes that is decided for each of them. -/
theorem forall_byte (holds : UInt8 → Prop) (each : ∀ number < 256, holds (UInt8.ofNat number))
    (byte : UInt8) : holds byte := by
  have found := each byte.toNat byte.toNat_lt
  rwa [UInt8.ofNat_toNat] at found

theorem encodeByte_component (byte : UInt8) : ∀ char ∈ encodeByte byte, isComponent char = true :=
  forall_byte (fun byte => ∀ char ∈ encodeByte byte, isComponent char = true) (by decide +kernel) byte

theorem utf8_encodeByte (byte : UInt8) :
    Utf8.encode (encodeByte byte) =
      if isUnreserved (Char.ofNat byte.toNat) then [byte]
      else [37, UInt8.ofNat (hexDigit (byte.toNat / 16)).toNat,
        UInt8.ofNat (hexDigit (byte.toNat % 16)).toNat] :=
  forall_byte (fun byte => Utf8.encode (encodeByte byte) =
    if isUnreserved (Char.ofNat byte.toNat) then [byte]
    else [37, UInt8.ofNat (hexDigit (byte.toNat / 16)).toNat,
      UInt8.ofNat (hexDigit (byte.toNat % 16)).toNat]) (by decide +kernel) byte

theorem literal_of_isUnreserved (byte : UInt8) (unreserved : isUnreserved (Char.ofNat byte.toNat) = true) :
    byte ≠ 37 := by
  rintro rfl
  exact absurd unreserved (by decide)

theorem decode_encodeByte (byte : UInt8) (rest : List UInt8) :
    decode (Utf8.encode (encodeByte byte) ++ rest) = byte :: decode rest := by
  rw [utf8_encodeByte]
  split
  · rename_i unreserved
    exact decode_literal (literal_of_isUnreserved byte unreserved) rest
  · have bound := byte.toNat_lt
    have high := hexValue?_hexDigit (Nat.div_lt_of_lt_mul bound : byte.toNat / 16 < 16)
    have low := hexValue?_hexDigit (Nat.mod_lt byte.toNat (by decide : 0 < 16))
    refine (decode_percent high low rest).trans ?_
    rw [Nat.div_add_mod, UInt8.ofNat_toNat]

theorem encode_component {bytes : List UInt8} {char : Char} (member : char ∈ encode bytes) :
    isComponent char = true := by
  obtain ⟨byte, -, inside⟩ := List.mem_flatMap.mp member
  exact encodeByte_component byte char inside

theorem decode_encode (bytes : List UInt8) : decode (Utf8.encode (encode bytes)) = bytes := by
  induction bytes with
  | nil => rfl
  | cons byte bytes ih =>
      rw [encode, List.flatMap_cons, Utf8.encode_append, decode_encodeByte]
      exact congrArg _ ih

theorem encodeByte_ne_nil (byte : UInt8) : encodeByte byte ≠ [] := by
  rw [encodeByte]
  split <;> exact List.cons_ne_nil _ _

theorem encode_ne_nil {bytes : List UInt8} (nonempty : bytes ≠ []) : encode bytes ≠ [] := by
  cases bytes with
  | nil => exact absurd rfl nonempty
  | cons byte bytes =>
      rw [encode, List.flatMap_cons]
      exact List.append_ne_nil_of_left_ne_nil (encodeByte_ne_nil byte) _

end OpenGauss.Lib.PercentEncoding
