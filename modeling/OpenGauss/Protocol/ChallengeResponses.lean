import OpenGauss.Protocol.SaslGrammar
import OpenGauss.Protocol.ScramServerProperties

/-! The responses to SHA256 and SM3 challenges, and the server that checks them against
the stored key of the password. -/

set_option autoImplicit false

namespace OpenGauss.Protocol.Authentication

open Lib

/-! ### Hexadecimal text -/

def hexNibble? (char : Char) : Option Nat :=
  if '0' ≤ char ∧ char ≤ '9' then some (char.toNat - 48)
  else if 'a' ≤ char ∧ char ≤ 'f' then some (char.toNat - 87)
  else if 'A' ≤ char ∧ char ≤ 'F' then some (char.toNat - 55)
  else none

/-- Two digits a byte, in either case. -/
def hexBytes? : List Char → Option Bytes
  | [] => some []
  | [_] => none
  | high :: low :: rest => do
      let high ← hexNibble? high
      let low ← hexNibble? low
      let bytes ← hexBytes? rest
      return UInt8.ofNat (16 * high + low) :: bytes

/-- What the package documents of decoding. -/
structure DocumentedHex (primitives : Primitives) : Prop where
  decodes : ∀ text bytes, hexBytes? text = some bytes → primitives.hexDecode text = .ok bytes
  refuses : ∀ text, hexBytes? text = none → ∃ message, primitives.hexDecode text = .error message

/-- These bytes are written in hexadecimal here. -/
def IsHex (raw bytes : Bytes) : Prop :=
  ∃ text, raw = Utf8.encode text ∧ hexBytes? text = some bytes

theorem ascii_of_hexNibble? {char : Char} {value : Nat} (digit : hexNibble? char = some value) :
    char.toNat ≤ 127 := by
  rw [hexNibble?] at digit
  split at digit
  · next bounds =>
      have most : char.toNat ≤ 57 := bounds.2
      omega
  · split at digit
    · next bounds =>
        have most : char.toNat ≤ 102 := bounds.2
        omega
    · split at digit
      · next bounds =>
          have most : char.toNat ≤ 70 := bounds.2
          omega
      · cases digit

theorem hexBytes?_cons {high low : Char} {rest : List Char} {bytes : Bytes} :
    hexBytes? (high :: low :: rest) = some bytes ↔ ∃ first second others,
      hexNibble? high = some first ∧ hexNibble? low = some second ∧
        hexBytes? rest = some others ∧ bytes = UInt8.ofNat (16 * first + second) :: others := by
  rw [hexBytes?]
  constructor
  · intro decoded
    obtain ⟨first, highDigit, decoded⟩ := Option.bind_eq_some_iff.mp decoded
    obtain ⟨second, lowDigit, decoded⟩ := Option.bind_eq_some_iff.mp decoded
    obtain ⟨others, decodes, same⟩ := Option.bind_eq_some_iff.mp decoded
    exact ⟨first, second, others, highDigit, lowDigit, decodes, (Option.some.inj same).symm⟩
  · intro digits
    obtain ⟨first, second, others, highDigit, lowDigit, decodes, rfl⟩ := digits
    rw [highDigit, lowDigit, decodes]
    rfl

theorem hexBytes?_some {text : List Char} {bytes : Bytes} (decoded : hexBytes? text = some bytes) :
    (∀ char ∈ text, char.toNat ≤ 127) ∧ text.length = 2 * bytes.length := by
  induction text using hexBytes?.induct generalizing bytes with
  | case1 =>
      cases decoded
      exact ⟨fun _ member => absurd member List.not_mem_nil, rfl⟩
  | case2 char => cases decoded
  | case3 high low rest ih =>
      obtain ⟨first, second, others, highDigit, lowDigit, decodes, rfl⟩ := hexBytes?_cons.mp decoded
      obtain ⟨small, size⟩ := ih decodes
      refine ⟨List.forall_mem_cons.mpr ⟨ascii_of_hexNibble? highDigit,
        List.forall_mem_cons.mpr ⟨ascii_of_hexNibble? lowDigit, small⟩⟩, ?_⟩
      rw [List.length_cons, List.length_cons, List.length_cons, size]
      omega

theorem IsHex.length {raw bytes : Bytes} (hex : IsHex raw bytes) :
    raw.length = 2 * bytes.length := by
  obtain ⟨text, rfl, decoded⟩ := hex
  obtain ⟨small, size⟩ := hexBytes?_some decoded
  rw [Utf8.encode_ascii small, List.length_map, size]

theorem hexNibble?_hexDigit {nibble : Nat} (small : nibble < 16) :
    hexNibble? (hexDigit nibble) = some nibble := by
  have sixteen : (List.range 16).all fun nibble => hexNibble? (hexDigit nibble) == some nibble := by
    decide +kernel
  exact beq_iff_eq.mp (List.all_eq_true.mp sixteen nibble (List.mem_range.mpr small))

theorem hexBytes?_hexEncode (bytes : Bytes) : hexBytes? (hexEncode bytes) = some bytes := by
  induction bytes with
  | nil => rfl
  | cons byte bytes ih =>
      have small := byte.toNat_lt
      have shown : hexEncode (byte :: bytes) =
          hexDigit (byte.toNat / 16) :: hexDigit (byte.toNat % 16) :: hexEncode bytes := rfl
      rw [shown, hexBytes?_cons]
      refine ⟨_, _, bytes, hexNibble?_hexDigit (by omega), hexNibble?_hexDigit (by omega), ih, ?_⟩
      rw [Nat.div_add_mod, UInt8.ofNat_toNat]

theorem isHex_hexEncode (bytes : Bytes) : IsHex (Utf8.encode (hexEncode bytes)) bytes :=
  ⟨_, rfl, hexBytes?_hexEncode bytes⟩

section

variable {primitives : Primitives}

theorem hexDecode_of_isHex (documented : DocumentedHex primitives) {raw bytes : Bytes}
    (hex : IsHex raw bytes) : hexDecode primitives raw = .ok bytes := by
  obtain ⟨text, rfl, decoded⟩ := hex
  have read : fromUtf8 (Utf8.encode text) = .ok text := by
    rw [fromUtf8, Utf8.decode?_encode]
  refine Sasl.Parser.bind_ok_iff.mpr ⟨text, read, ?_⟩
  rw [documented.decodes text bytes decoded]
  rfl

theorem hexDecode_error (documented : DocumentedHex primitives) {raw : Bytes}
    (noHex : ¬∃ bytes, IsHex raw bytes) : ∃ error, hexDecode primitives raw = .error error := by
  cases decoded : Utf8.decode? raw with
  | none =>
      have failed : fromUtf8 raw = .error (invalidInput "invalid utf-8") := by
        rw [fromUtf8, decoded]
      exact ⟨_, by rw [hexDecode, failed]; rfl⟩
  | some text =>
      have read : fromUtf8 raw = .ok text := by rw [fromUtf8, decoded]
      have none : hexBytes? text = none := by
        refine Option.eq_none_iff_forall_not_mem.mpr fun bytes found => ?_
        exact noHex ⟨bytes, text, (Utf8.encode_of_decode? decoded).symm, found⟩
      obtain ⟨message, refused⟩ := documented.refuses text none
      refine ⟨invalidInput message, ?_⟩
      rw [hexDecode, read]
      dsimp only [bind, Except.bind]
      rw [refused]
      rfl

/-! ### The keys of a password -/

theorem xor_swap (first second : Bytes) : xor first second = xor second first :=
  List.zipWith_comm_of_comm UInt8.xor_comm

/-- The server counts as it is told, and 10000 rounds when it is told nothing. -/
def CountFor (serverIteration : Int) (count : Nat) : Prop :=
  0 < serverIteration ∧ (count : Int) = serverIteration ∨ serverIteration ≤ 0 ∧ count = 10000

variable (primitives)

/-- The key that the server stores for a password. -/
def storedKey (password salt : Bytes) (count : Nat) : Bytes :=
  primitives.sha256
    (primitives.hmacSha256 (primitives.pbkdf2HmacSha1 password salt count) (ascii "Client Key"))

/-- The server's check of a response: what is left of it without the signature of the
token hashes to the stored key. -/
def Accepts (stored token response : Bytes) : Prop :=
  ∃ h, IsHex response h ∧
    primitives.sha256 (xor h (primitives.hmacSha256 stored token)) = stored

/-- The MD5 challenge over the encrypted password, with its salt and both of its keys. -/
def md5Response (saltHex serverKey stored md5Salt : Bytes) : Bytes :=
  let digest := saltHex ++ Utf8.encode (hexEncode serverKey) ++ Utf8.encode (hexEncode stored)
  let inner := hexEncode (primitives.md5 digest)
  ascii "md5" ++ Utf8.encode (hexEncode (primitives.md5 (Utf8.encode inner ++ md5Salt)))

variable {primitives}

theorem iterations_eq {serverIteration : Int} {count : Nat}
    (counts : CountFor serverIteration count) : iterations serverIteration = count := by
  rw [iterations]
  rcases counts with ⟨positive, same⟩ | ⟨negative, rfl⟩
  · rw [if_pos positive]
    omega
  · rw [if_neg (Int.not_lt.mpr negative)]
    rfl

theorem hexEncode_length (bytes : Bytes) : (Utf8.encode (hexEncode bytes)).length = 2 * bytes.length :=
  (isHex_hexEncode bytes).length

theorem rfc5802Algorithm_ok (documented : DocumentedHex primitives)
    {password random64code token salt tokenBytes : Bytes} {serverIteration : Int} {count : Nat}
    (saltHex : IsHex random64code salt) (tokenHex : IsHex token tokenBytes)
    (saltSize : random64code.length = 64) (tokenSize : token.length = 8)
    (counts : CountFor serverIteration count) :
    rfc5802Algorithm primitives password random64code token serverIteration =
      .ok (Utf8.encode (hexEncode (xor
        (primitives.hmacSha256 (storedKey primitives password salt count) tokenBytes)
        (primitives.hmacSha256 (primitives.pbkdf2HmacSha1 password salt count)
          (ascii "Client Key"))))) := by
  have saltLong : ¬salt.length ≠ 32 := by
    have size := saltHex.length
    omega
  have tokenLong : ¬tokenBytes.length ≠ 4 := by
    have size := tokenHex.length
    omega
  refine Sasl.Parser.bind_ok_iff.mpr ⟨salt, hexDecode_of_isHex documented saltHex, ?_⟩
  refine Sasl.Parser.bind_ok_iff.mpr ⟨tokenBytes, hexDecode_of_isHex documented tokenHex, ?_⟩
  rw [if_neg saltLong, if_neg tokenLong, iterations_eq counts]
  rfl

theorem rfc5802Algorithm_error (documented : DocumentedHex primitives)
    {password random64code token : Bytes} {serverIteration : Int}
    (noHex : (¬∃ salt, IsHex random64code salt) ∨ ¬∃ bytes, IsHex token bytes) :
    ∃ error, rfc5802Algorithm primitives password random64code token serverIteration =
      .error error := by
  rw [rfc5802Algorithm]
  by_cases saltHex : ∃ salt, IsHex random64code salt
  · obtain ⟨salt, saltHex⟩ := saltHex
    obtain ⟨error, failed⟩ :=
      hexDecode_error documented (noHex.resolve_left (not_not_intro ⟨salt, saltHex⟩))
    rw [hexDecode_of_isHex documented saltHex, failed]
    exact ⟨error, rfl⟩
  · obtain ⟨error, failed⟩ := hexDecode_error documented saltHex
    rw [failed]
    exact ⟨error, rfl⟩

theorem md5Sha256Hash_ok (documented : DocumentedHex primitives)
    {password saltHex salt md5Salt : Bytes} {iterationCount : Int} {count : Nat}
    (hex : IsHex saltHex salt) (counts : CountFor iterationCount count) :
    md5Sha256Hash primitives password saltHex md5Salt iterationCount =
      .ok (md5Response primitives saltHex
        (primitives.hmacSha256 (primitives.pbkdf2HmacSha1 password salt count)
          (ascii "Sever Key"))
        (storedKey primitives password salt count) md5Salt) := by
  have decoded := hexDecode_of_isHex documented hex
  obtain ⟨text, rfl, _⟩ := hex
  have read : fromUtf8 (Utf8.encode text) = .ok text := by
    rw [fromUtf8, Utf8.decode?_encode]
  refine Sasl.Parser.bind_ok_iff.mpr ⟨salt, decoded, ?_⟩
  refine Sasl.Parser.bind_ok_iff.mpr ⟨text, read, ?_⟩
  dsimp only
  rw [iterations_eq counts, Utf8.encode_append, Utf8.encode_append]
  rfl

theorem md5Sha256Hash_error (documented : DocumentedHex primitives)
    {password saltHex md5Salt : Bytes} {iterationCount : Int}
    (noHex : ¬∃ salt, IsHex saltHex salt) :
    ∃ error, md5Sha256Hash primitives password saltHex md5Salt iterationCount = .error error := by
  obtain ⟨error, failed⟩ := hexDecode_error documented noHex
  rw [md5Sha256Hash, failed]
  exact ⟨error, rfl⟩

/-- The server accepts the response to its challenge, by the key that the MD5 response
carries too; a salt or a token that is not hexadecimal is an error. -/
theorem challenge_accepted (documented : DocumentedHex primitives)
    (hmacLength : ∀ key message, (primitives.hmacSha256 key message).length = 32)
    {random64code token : Bytes} (saltSize : random64code.length = 64)
    (tokenSize : token.length = 8) (password md5Salt : Bytes) (serverIteration : Int) :
    (∀ salt tokenBytes count, IsHex random64code salt → IsHex token tokenBytes →
      CountFor serverIteration count →
        (∃ response, response.length = 64 ∧
          rfc5802Algorithm primitives password random64code token serverIteration = .ok response ∧
          sm3Algorithm primitives password random64code token serverIteration = .ok response ∧
          Accepts primitives (storedKey primitives password salt count) tokenBytes response) ∧
        ∃ serverKey, md5Sha256Hash primitives password random64code md5Salt serverIteration =
          .ok (md5Response primitives random64code serverKey
            (storedKey primitives password salt count) md5Salt)) ∧
    ((¬∃ salt, IsHex random64code salt) ∨ (¬∃ bytes, IsHex token bytes) →
      (∃ error, rfc5802Algorithm primitives password random64code token serverIteration =
          .error error) ∧
        ∃ error, sm3Algorithm primitives password random64code token serverIteration =
          .error error) ∧
    ((¬∃ salt, IsHex random64code salt) →
      ∃ error, md5Sha256Hash primitives password random64code md5Salt serverIteration =
        .error error) := by
  refine ⟨fun salt tokenBytes count saltHex tokenHex counts => ⟨?_, ?_⟩, fun noHex => ?_, ?_⟩
  · have ran := @rfc5802Algorithm_ok primitives documented password _ _ _ _ _ _
      saltHex tokenHex saltSize tokenSize counts
    have same : (primitives.hmacSha256 (storedKey primitives password salt count)
        tokenBytes).length = (primitives.hmacSha256
          (primitives.pbkdf2HmacSha1 password salt count) (ascii "Client Key")).length := by
      rw [hmacLength, hmacLength]
    refine ⟨_, ?_, ran, ran, _, isHex_hexEncode _, ?_⟩
    · rw [hexEncode_length, xor, List.length_zipWith, hmacLength, hmacLength]
      rfl
    · have cancelled := Sasl.xor_cancel same.symm
      rw [xor_swap (primitives.hmacSha256 (storedKey primitives password salt count) tokenBytes)]
      rw [cancelled, storedKey]
  · exact ⟨_, md5Sha256Hash_ok documented saltHex counts⟩
  · exact ⟨rfc5802Algorithm_error documented noHex, rfc5802Algorithm_error documented noHex⟩
  · exact md5Sha256Hash_error documented

end

/-! Values of the hash functions for the password `foobar`, one round, the salt of the
bytes 0 to 31 and the token 1, 2, 3, 4. -/

def challengeSalt : Bytes := (List.range 32).map UInt8.ofNat

def challengeKey : Bytes :=
  [18, 126, 70, 194, 244, 235, 255, 163, 131, 79, 233, 217, 127, 177, 31, 12, 110, 197, 66, 17,
    62, 208, 148, 122, 144, 242, 53, 106, 143, 88, 14, 208]

def challengeClientKey : Bytes :=
  [85, 248, 14, 108, 77, 85, 148, 144, 137, 117, 236, 134, 52, 13, 63, 183, 126, 138, 80, 51,
    126, 218, 107, 4, 199, 87, 125, 152, 60, 9, 207, 252]

def challengeServerKey : Bytes :=
  [116, 41, 80, 49, 86, 24, 45, 52, 18, 132, 30, 159, 98, 59, 129, 18, 98, 107, 140, 151, 243,
    94, 193, 103, 95, 71, 187, 36, 21, 18, 131, 210]

def challengeStoredKey : Bytes :=
  [118, 141, 241, 129, 74, 40, 26, 51, 102, 117, 150, 31, 240, 30, 160, 74, 195, 55, 93, 63, 160,
    157, 139, 61, 188, 32, 116, 94, 207, 170, 12, 169]

def challengeSignature : Bytes :=
  [207, 26, 107, 20, 191, 0, 194, 164, 31, 232, 212, 194, 237, 88, 55, 236, 136, 205, 171, 111,
    18, 15, 79, 195, 238, 55, 109, 54, 60, 64, 227, 93]

def challengeHmac (key message : Bytes) : Bytes :=
  if key = challengeStoredKey then challengeSignature
  else if message = ascii "Sever Key" then challengeServerKey
  else challengeClientKey

/-- The packages on what this challenge asks of them. -/
def challengeVectors : Primitives where
  hmacSha256 := challengeHmac
  sha256 _ := challengeStoredKey
  md5 message :=
    if message.length = 192 then
      [94, 79, 234, 51, 6, 17, 55, 10, 40, 220, 236, 29, 248, 164, 33, 187]
    else [141, 148, 186, 115, 209, 96, 149, 133, 89, 126, 242, 10, 136, 186, 72, 240]
  pbkdf2HmacSha1 _ _ _ := challengeKey
  saslprep text := some text
  base64Encode _ := []
  base64Decode _ := .error "Invalid symbol"
  hexDecode text :=
    match hexBytes? text with
    | some bytes => .ok bytes
    | none => .error "Invalid character"

theorem challengeVectors_documented : DocumentedHex challengeVectors where
  decodes text bytes decoded := by
    dsimp only [challengeVectors]
    rw [decoded]
  refuses text refused := by
    dsimp only [challengeVectors]
    rw [refused]
    exact ⟨_, rfl⟩

theorem length_challengeHmac (key message : Bytes) : (challengeHmac key message).length = 32 := by
  rw [challengeHmac]
  split
  · rfl
  · split <;> rfl

theorem challenge_accepted_vectors :
    ∃ response, rfc5802Algorithm challengeVectors (ascii "foobar")
        (Utf8.encode (hexEncode challengeSalt)) (Utf8.encode (hexEncode [1, 2, 3, 4])) 1 =
          .ok response ∧
      Accepts challengeVectors (storedKey challengeVectors (ascii "foobar") challengeSalt 1)
        [1, 2, 3, 4] response := by
  obtain ⟨⟨response, _, ran, _, accepts⟩, _⟩ :=
    (challenge_accepted challengeVectors_documented length_challengeHmac
      (hexEncode_length challengeSalt) (hexEncode_length [1, 2, 3, 4]) (ascii "foobar")
      [5, 6, 7, 8] 1).1 challengeSalt [1, 2, 3, 4] 1 (isHex_hexEncode _) (isHex_hexEncode _)
        (.inl ⟨by decide, rfl⟩)
  exact ⟨response, ran, accepts⟩

end OpenGauss.Protocol.Authentication
