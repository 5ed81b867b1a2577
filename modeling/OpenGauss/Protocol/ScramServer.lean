import OpenGauss.Lib.PercentEncoding
import OpenGauss.Protocol.Password

/-! The other side of a SCRAM exchange, as the mechanism describes it: a server
that has nothing of the password but its verifier. -/

set_option autoImplicit false

namespace OpenGauss.Protocol.Sasl

open Authentication Lib

/-- The characters of a nonce. -/
structure Nonce where
  text : List Char
  printable : ∀ char ∈ text, Parser.isPrintable char = true

/-- A character of the nonce that `ScramSha256::new` draws. -/
def nonceChar (draw : UInt8) : Char :=
  if draw = 0x2c then Char.ofNat 0x7e else Char.ofNat draw.toNat

theorem nonceChar_printable (draw : UInt8) :
    0x21 ≤ draw ∧ draw < 0x7e → Parser.isPrintable (nonceChar draw) = true :=
  PercentEncoding.forall_byte (fun draw => 0x21 ≤ draw ∧ draw < 0x7e →
    Parser.isPrintable (nonceChar draw) = true) (by decide +kernel) draw

/-- The nonce of `ScramSha256::new`. -/
def Nonce.drawn (draws : List UInt8) (range : ∀ draw ∈ draws, 0x21 ≤ draw ∧ draw < 0x7e) :
    Nonce where
  text := draws.map nonceChar
  printable := by
    intro char member
    obtain ⟨draw, drawn, rfl⟩ := List.mem_map.mp member
    exact nonceChar_printable draw (range draw drawn)

/-- A verifier. The salt is passed on as it is written. -/
structure Verifier where
  iterations : Nat
  salt : List Char
  storedKey : Bytes
  serverKey : Bytes
  deriving DecidableEq, Repr

/-- The text before the first `separator` and the text behind it. -/
def cut? (separator : Char) (text : List Char) : Option (List Char × List Char) :=
  (Text.splitTwo separator text).2.map fun rest => ((Text.splitTwo separator text).1, rest)

variable (primitives : Primitives)

def Verifier.read? (text : List Char) : Option Verifier := do
  let (scheme, rest) ← cut? '$' text
  guard (scheme = scramSha256.toList)
  let (iterations, rest) ← cut? ':' rest
  let (salt, rest) ← cut? '$' rest
  let (storedKey, serverKey) ← cut? ':' rest
  let iterations ← Numeral.parseUnsigned (2 ^ 32) iterations
  let storedKey ← (primitives.base64Decode storedKey).toOption
  let serverKey ← (primitives.base64Decode serverKey).toOption
  return { iterations, salt, storedKey, serverKey }

/-- An exchange, once the client's first message is there. -/
structure Exchange where
  verifier : Verifier
  gs2Header : List Char
  /-- The client's first message behind the header. -/
  bare : List Char
  /-- The client's nonce and the server's extension of it. -/
  nonce : List Char
  deriving DecidableEq, Repr

namespace Exchange

def start (verifier : Verifier) (extension : Nonce) (message : Bytes) : Option Exchange := do
  let text ← Utf8.decode? message
  let (flag, rest) ← cut? ',' text
  let (authorization, bare) ← cut? ',' rest
  guard (authorization = [])
  let (user, rest) ← cut? ',' bare
  let _ ← Text.stripPrefix? "n=".toList user
  let nonce ← Text.stripPrefix? "r=".toList rest
  return { verifier, gs2Header := flag ++ ",,".toList, bare, nonce := nonce ++ extension.text }

def serverFirst (exchange : Exchange) : List Char :=
  "r=".toList ++ exchange.nonce ++ ",s=".toList ++ exchange.verifier.salt ++ ",i=".toList ++
    Nat.toDigits 10 exchange.verifier.iterations

/-- The server's final message, if it accepts the client's. The channel binding
data is the server's own. -/
def serverFinal (exchange : Exchange) (cbindData : Bytes) (message : Bytes) :
    Option (List Char) := do
  let text ← Utf8.decode? message
  let (channelBinding, rest) ← cut? ',' text
  let (nonce, proof) ← cut? ',' rest
  guard (channelBinding = "c=".toList ++
    primitives.base64Encode (Utf8.encode exchange.gs2Header ++ cbindData))
  guard (nonce = "r=".toList ++ exchange.nonce)
  let proof ← Text.stripPrefix? "p=".toList proof
  let clientProof ← (primitives.base64Decode proof).toOption
  let authMessage := Utf8.encode (exchange.bare ++ ",".toList ++ exchange.serverFirst ++
    ",".toList ++ channelBinding ++ ",".toList ++ nonce)
  let clientSignature := primitives.hmacSha256 exchange.verifier.storedKey authMessage
  guard (primitives.sha256 (xor clientProof clientSignature) = exchange.verifier.storedKey)
  return "v=".toList ++
    primitives.base64Encode (primitives.hmacSha256 exchange.verifier.serverKey authMessage)

end Exchange

end OpenGauss.Protocol.Sasl
