import OpenGauss.Protocol.Backend
import OpenGauss.Lib.Utf8

/-! Frontend message serialization (`opengauss-protocol`, `message/frontend.rs`).
A builder answers the bytes it appends to the buffer. -/

set_option autoImplicit false

namespace OpenGauss.Protocol.Frontend

/-- `i32::from_usize`. -/
def fromUsize (size : Nat) : Except IoError Nat :=
  if 2 ^ 31 ≤ size then .error ⟨.invalidInput, "value too large to transmit"⟩ else .ok size

/-- `write_body`: the length of a body and of its length field, and the body. -/
def writeBody (body : Except IoError Bytes) : Except IoError Bytes := do
  let body ← body
  let size ← fromUsize (body.length + 4)
  return be32 size ++ body

/-- `write_cstr`. -/
def writeCstr (s : Bytes) : Except IoError Bytes :=
  if s.contains 0 then .error ⟨.invalidInput, "string contains embedded null"⟩
  else .ok (s ++ [0])

/-- A message: its tag and its body. -/
def tagged (tag : Char) (body : Except IoError Bytes) : Except IoError Bytes :=
  (writeBody body).map (UInt8.ofNat tag.toNat :: ·)

def passwordMessage (password : Bytes) : Except IoError Bytes := tagged 'p' (writeCstr password)

def saslInitialResponse (mechanism : List Char) (data : Bytes) : Except IoError Bytes :=
  tagged 'p' do
    let mechanism ← writeCstr (Lib.Utf8.encode mechanism)
    let len ← fromUsize data.length
    return mechanism ++ be32 len ++ data

def saslResponse (data : Bytes) : Except IoError Bytes := tagged 'p' (.ok data)

end OpenGauss.Protocol.Frontend
