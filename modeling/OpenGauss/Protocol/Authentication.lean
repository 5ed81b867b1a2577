import OpenGauss.Protocol.Backend
import OpenGauss.Lib.Utf8

/-! Password responses (`opengauss-protocol`, `authentication/mod.rs` and
`authentication/sha256.rs`). The hash functions, base64, hexadecimal decoding
and SASLprep come from packages and are a parameter. -/

set_option autoImplicit false

namespace OpenGauss.Protocol

/-- The functions of the packages that authentication uses. -/
structure Primitives where
  hmacSha256 : Bytes → Bytes → Bytes
  sha256 : Bytes → Bytes
  md5 : Bytes → Bytes
  /-- Password, salt and rounds; an output of 32 bytes. -/
  pbkdf2HmacSha1 : Bytes → Bytes → Nat → Bytes
  saslprep : List Char → Option (List Char)
  base64Encode : Bytes → List Char
  base64Decode : List Char → Except String Bytes
  hexDecode : List Char → Except String Bytes

namespace Authentication

variable (primitives : Primitives)

def hexDigit (nibble : Nat) : Char :=
  "0123456789abcdef".toList.getD nibble '0'

/-- `hex_encode`, and the format of `LowerHexWrapper`. -/
def hexEncode (bytes : Bytes) : List Char :=
  bytes.flatMap fun byte => [hexDigit (byte.toNat / 16), hexDigit (byte.toNat % 16)]

def ascii (text : String) : Bytes := Lib.Utf8.encode text.toList

def md5Hash (username password salt : Bytes) : Bytes :=
  let output := hexEncode (primitives.md5 (password ++ username))
  ascii "md5" ++ Lib.Utf8.encode (hexEncode (primitives.md5 (Lib.Utf8.encode output ++ salt)))

def invalidInput (message : String) : IoError := ⟨.invalidInput, message⟩

/-- `str::from_utf8`. -/
def fromUtf8 (bytes : Bytes) : Except IoError (List Char) :=
  match Lib.Utf8.decode? bytes with
  | some text => .ok text
  | none => .error (invalidInput "invalid utf-8")

def hexDecode (hex : Bytes) : Except IoError Bytes := do
  let text ← fromUtf8 hex
  match primitives.hexDecode text with
  | .ok bytes => return bytes
  | .error message => throw (invalidInput message)

def defaultIterationCount : Nat := 10000

/-- A count that is not positive stands for the default. -/
def iterations (serverIteration : Int) : Nat :=
  if 0 < serverIteration then serverIteration.toNat else defaultIterationCount

def xor (first second : Bytes) : Bytes := List.zipWith (· ^^^ ·) first second

def invalidLength (what : String) (expected actual : Nat) : IoError :=
  invalidInput ("invalid " ++ what ++ " length: expected " ++ toString expected ++
    " bytes, got " ++ toString actual)

/-- `rfc5802_algorithm`. `sm3_algorithm` has the same body. -/
def rfc5802Algorithm (password random64code token : Bytes) (serverIteration : Int) :
    Except IoError Bytes := do
  let saltBytes ← hexDecode primitives random64code
  let tokenBytes ← hexDecode primitives token
  if saltBytes.length ≠ 32 then throw (invalidLength "salt" 32 saltBytes.length)
  if tokenBytes.length ≠ 4 then throw (invalidLength "token" 4 tokenBytes.length)
  let k := primitives.pbkdf2HmacSha1 password saltBytes (iterations serverIteration)
  let clientKey := primitives.hmacSha256 k (ascii "Client Key")
  let storedKey := primitives.sha256 clientKey
  let hmacResult := primitives.hmacSha256 storedKey tokenBytes
  return Lib.Utf8.encode (hexEncode (xor hmacResult clientKey))

def sm3Algorithm (password random64code token : Bytes) (serverIteration : Int) :
    Except IoError Bytes :=
  rfc5802Algorithm primitives password random64code token serverIteration

def md5Sha256Hash (password saltHex md5Salt : Bytes) (iterationCount : Int) :
    Except IoError Bytes := do
  let saltBytes ← hexDecode primitives saltHex
  let k := primitives.pbkdf2HmacSha1 password saltBytes (iterations iterationCount)
  let serverKey := primitives.hmacSha256 k (ascii "Sever Key")
  let clientKey := primitives.hmacSha256 k (ascii "Client Key")
  let storedKey := primitives.sha256 clientKey
  let salt ← fromUtf8 saltHex
  let sha256Hex := salt ++ hexEncode serverKey ++ hexEncode storedKey
  let inner := hexEncode (primitives.md5 (Lib.Utf8.encode sha256Hex))
  return ascii "md5" ++
    Lib.Utf8.encode (hexEncode (primitives.md5 (Lib.Utf8.encode inner ++ md5Salt)))

end Authentication

end OpenGauss.Protocol
