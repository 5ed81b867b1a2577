import OpenGauss.Protocol.Sasl

/-! Passwords as a server stores them (`opengauss-protocol`, `password/mod.rs`). -/

set_option autoImplicit false

namespace OpenGauss.Protocol.Password

open Authentication Sasl Lib

def scramDefaultIterations : UInt32 := 4096

variable (primitives : Primitives)

/-- The password, prepared as far as SASLprep goes. -/
def prepared (password : Bytes) : Bytes :=
  match Utf8.decode? password with
  | some text =>
      match primitives.saslprep text with
      | some text => Utf8.encode text
      | none => password
  | none => password

/-- `scram_sha_256_salt`, which is given `scramDefaultIterations`. -/
def scramSha256Salt (password salt : Bytes) (iterations : UInt32) : List Char :=
  let saltedPassword := hi primitives (prepared primitives password) salt iterations.toNat
  let clientKey := primitives.hmacSha256 saltedPassword (ascii "Client Key")
  let storedKey := primitives.sha256 clientKey
  let serverKey := primitives.hmacSha256 saltedPassword (ascii "Server Key")
  "SCRAM-SHA-256$".toList ++ Nat.toDigits 10 iterations.toNat ++ ":".toList ++
    primitives.base64Encode salt ++ "$".toList ++ primitives.base64Encode storedKey ++
    ":".toList ++ primitives.base64Encode serverKey

/-- `scram_sha_256`, with the salt it draws. -/
def scramSha256 (password salt : Bytes) : List Char :=
  scramSha256Salt primitives password salt scramDefaultIterations

end OpenGauss.Protocol.Password
