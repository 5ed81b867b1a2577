/-! UTF-8, on lists of bytes and lists of characters. -/

set_option autoImplicit false

namespace OpenGauss.Lib.Utf8

def encode (text : List Char) : List UInt8 := text.flatMap String.utf8EncodeChar

def decode? (bytes : List UInt8) : Option (List Char) :=
  (ByteArray.mk bytes.toArray).utf8Decode?.map Array.toList

theorem decode?_encode (text : List Char) : decode? (encode text) = some text := by
  have same : ByteArray.mk (encode text).toArray = text.utf8Encode := by
    rw [encode, List.utf8Encode]
    apply ByteArray.ext
    simp
  rw [decode?, same, List.utf8Decode?_utf8Encode]
  rfl

/-- What decodes is the encoding of what it decodes to. -/
theorem encode_of_decode? {bytes : List UInt8} {text : List Char} (decoded : decode? bytes = some text) :
    encode text = bytes := by
  rw [decode?] at decoded
  cases found : (ByteArray.mk bytes.toArray).utf8Decode? with
  | none => rw [found] at decoded; cases decoded
  | some chars =>
    rw [found] at decoded
    obtain rfl : chars.toList = text := Option.some.inj decoded
    have valid : (ByteArray.mk bytes.toArray).utf8Decode?.isSome := by rw [found]; rfl
    have same : ((ByteArray.mk bytes.toArray).utf8Decode?.get valid).toList.utf8Encode =
        ByteArray.mk bytes.toArray := ByteArray.utf8Encode_get_utf8Decode?
    simp only [found, Option.get_some, List.utf8Encode] at same
    have list := congrArg (fun array => array.data.toList) same
    simpa [encode] using list

theorem encode_injective {first second : List Char} (same : encode first = encode second) :
    first = second := by
  have decoded := decode?_encode first
  rw [same, decode?_encode] at decoded
  exact (Option.some.inj decoded).symm

theorem encode_append (first second : List Char) :
    encode (first ++ second) = encode first ++ encode second :=
  List.flatMap_append

/-- ASCII is encoded byte by byte. -/
theorem encode_ascii {text : List Char} (ascii : ∀ char ∈ text, char.toNat ≤ 127) :
    encode text = text.map fun char => UInt8.ofNat char.toNat := by
  induction text with
  | nil => rfl
  | cons char text ih =>
      obtain ⟨small, others⟩ := List.forall_mem_cons.mp ascii
      have one : String.utf8EncodeChar char = [UInt8.ofNat char.toNat] := if_pos small
      rw [encode, List.flatMap_cons, one]
      exact congrArg _ (ih others)

/-- A character is one byte of ASCII or bytes outside of it. -/
theorem encodeChar_cases (char : Char) :
    (char.toNat ≤ 127 ∧ String.utf8EncodeChar char = [UInt8.ofNat char.toNat]) ∨
      127 < char.toNat ∧ ∀ byte ∈ String.utf8EncodeChar char, 128 ≤ byte.toNat := by
  by_cases ascii : char.toNat ≤ 127
  · exact .inl ⟨ascii, if_pos ascii⟩
  · refine .inr ⟨Nat.lt_of_not_le ascii, ?_⟩
    have high {code : Nat} (large : 128 ≤ code) (small : code < 256) :
        128 ≤ (UInt8.ofNat code).toNat := by
      rwa [UInt8.toNat_ofNat', Nat.mod_eq_of_lt small]
    have wide : ¬char.val.toNat ≤ 127 := ascii
    intro byte member
    unfold String.utf8EncodeChar at member
    rw [if_neg wide] at member
    split at member
    · simp only [List.mem_cons, List.not_mem_nil, or_false] at member
      rcases member with rfl | rfl
      · exact high (by omega) (by omega)
      · exact high (by omega) (by omega)
    · split at member
      · simp only [List.mem_cons, List.not_mem_nil, or_false] at member
        rcases member with rfl | rfl | rfl
        · exact high (by omega) (by omega)
        · exact high (by omega) (by omega)
        · exact high (by omega) (by omega)
      · simp only [List.mem_cons, List.not_mem_nil, or_false] at member
        rcases member with rfl | rfl | rfl | rfl
        · exact high (by omega) (by omega)
        · exact high (by omega) (by omega)
        · exact high (by omega) (by omega)
        · exact high (by omega) (by omega)

theorem encode_cons (char : Char) (text : List Char) :
    encode (char :: text) = String.utf8EncodeChar char ++ encode text := rfl

theorem encode_narrow {char : Char} (narrow : char.toNat ≤ 127) (text : List Char) :
    encode (char :: text) = UInt8.ofNat char.toNat :: encode text := by
  have one : String.utf8EncodeChar char = [UInt8.ofNat char.toNat] := if_pos narrow
  rw [encode_cons, one]
  rfl

/-- The byte of an ASCII character begins the encoding of no other one. -/
theorem encode_head_iff {mark : Char} (ascii : mark.toNat ≤ 127) (text : List Char) :
    (encode text).head? = some (UInt8.ofNat mark.toNat) ↔ text.head? = some mark := by
  have size : (UInt8.ofNat mark.toNat).toNat = mark.toNat := by
    rw [UInt8.toNat_ofNat', Nat.mod_eq_of_lt (by omega)]
  cases text with
  | nil => constructor <;> intro none <;> cases none
  | cons char text =>
      rw [encode_cons, List.head?_cons]
      rcases encodeChar_cases char with ⟨narrow, byte⟩ | ⟨wide, high⟩
      · rw [byte, List.singleton_append, List.head?_cons, Option.some_inj, Option.some_inj]
        constructor
        · intro same
          have codes := congrArg UInt8.toNat same
          rw [size, UInt8.toNat_ofNat', Nat.mod_eq_of_lt (by omega)] at codes
          exact Char.ext (UInt32.toNat_inj.mp codes)
        · intro same
          rw [same]
      · constructor
        · intro same
          cases bytes : String.utf8EncodeChar char with
          | nil => exact absurd bytes (String.utf8EncodeChar_ne_nil)
          | cons byte others =>
              rw [bytes, List.cons_append, List.head?_cons] at same
              have large := high byte (bytes ▸ List.mem_cons_self)
              rw [Option.some.inj same, size] at large
              omega
        · intro same
          rw [Option.some.inj same] at wide
          omega

/-- Only the slash is encoded with the byte of a slash in front. -/
theorem slash_of_encode_head {text : List Char} (slash : (encode text).head? = some 47) :
    text.head? = some '/' :=
  (encode_head_iff (by decide) text).mp slash

end OpenGauss.Lib.Utf8
