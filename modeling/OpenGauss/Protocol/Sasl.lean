import OpenGauss.Protocol.Authentication
import OpenGauss.Lib.Numeral
import OpenGauss.Lib.Text

/-! SCRAM-SHA-256 (`opengauss-protocol`, `authentication/sasl.rs`). -/

set_option autoImplicit false

namespace OpenGauss.Protocol.Sasl

open Authentication Lib

def scramSha256 : String := "SCRAM-SHA-256"
def scramSha256Plus : String := "SCRAM-SHA-256-PLUS"

inductive ChannelBinding where
  | unrequested
  | unsupported
  | tlsServerEndPoint (signature : Bytes)
  deriving DecidableEq, Repr

namespace ChannelBinding

def gs2Header : ChannelBinding → String
  | unrequested => "y,,"
  | unsupported => "n,,"
  | tlsServerEndPoint _ => "p=tls-server-end-point,,"

def cbindData : ChannelBinding → Bytes
  | unrequested | unsupported => []
  | tlsServerEndPoint signature => signature

end ChannelBinding

/-! ### Server messages -/

namespace Parser

/-- `eat`, in the string `s`, whose length tells the byte an error is at. -/
def eat (s : List Char) (target : Char) (rest : List Char) : Except IoError (List Char) :=
  match rest with
  | char :: rest' =>
      if char = target then .ok rest'
      else .error (invalidInput ("unexpected character at byte " ++
        toString (Text.utf8Length s - Text.utf8Length rest) ++ ": expected `" ++
        target.toString ++ "` but got `" ++ char.toString))
  | [] => .error unexpectedEof

def isPrintable (char : Char) : Bool :=
  let code := char.toNat
  (0x21 ≤ code && code ≤ 0x2b) || (0x2d ≤ code && code ≤ 0x7e)

def isBase64 (char : Char) : Bool :=
  ('a' ≤ char && char ≤ 'z') || ('A' ≤ char && char ≤ 'Z') || ('0' ≤ char && char ≤ '9') ||
    char == '/' || char == '+' || char == '='

def isDigit (char : Char) : Bool := '0' ≤ char && char ≤ '9'

def isValue (char : Char) : Bool := char == '\x00' || char == '=' || char == ','

/-- A name, `=` and the characters after it that a value may have. -/
def field (s : List Char) (name : Char) (allowed : Char → Bool) (rest : List Char) :
    Except IoError (List Char × List Char) := do
  let rest ← eat s name rest
  let rest ← eat s '=' rest
  return (rest.takeWhile allowed, rest.dropWhile allowed)

def nonce (s rest : List Char) : Except IoError (List Char × List Char) :=
  field s 'r' isPrintable rest

def salt (s rest : List Char) : Except IoError (List Char × List Char) :=
  field s 's' isBase64 rest

/-- `parse` of a `u32`, on digits. -/
def positNumber (digits : List Char) : Except IoError Nat :=
  match Numeral.parseUnsigned (2 ^ 32) digits with
  | some number => .ok number
  | none =>
      .error (invalidInput (if digits = [] then "cannot parse integer from empty string"
        else "number too large to fit in target type"))

def iterationCount (s rest : List Char) : Except IoError (Nat × List Char) := do
  let (digits, rest) ← field s 'i' isDigit rest
  return (← positNumber digits, rest)

def eof (s rest : List Char) : Except IoError Unit :=
  if rest = [] then .ok ()
  else .error (invalidInput ("unexpected trailing data at byte " ++
    toString (Text.utf8Length s - Text.utf8Length rest)))

structure ServerFirstMessage where
  nonce : List Char
  salt : List Char
  iterationCount : Nat
  deriving DecidableEq, Repr

def serverFirstMessage (s : List Char) : Except IoError ServerFirstMessage := do
  let (nonce, rest) ← nonce s s
  let rest ← eat s ',' rest
  let (salt, rest) ← salt s rest
  let rest ← eat s ',' rest
  let (iterationCount, rest) ← iterationCount s rest
  eof s rest
  return { nonce, salt, iterationCount }

inductive ServerFinalMessage where
  | error (error : List Char)
  | verifier (verifier : List Char)
  deriving DecidableEq, Repr

def serverFinalMessage (s : List Char) : Except IoError ServerFinalMessage := do
  if s.head? = some 'e' then
    let (error, rest) ← field s 'e' isValue s
    eof s rest
    return .error error
  else
    let (verifier, rest) ← field s 'v' isBase64 s
    eof s rest
    return .verifier verifier

end Parser

/-! ### The exchange -/

variable (primitives : Primitives)

/-- The password, prepared when it is text that can be. -/
def normalize (pass : Bytes) : Bytes :=
  match Utf8.decode? pass with
  | none => pass
  | some text =>
      match primitives.saslprep text with
      | some prepared => Utf8.encode prepared
      | none => pass

/-- The rounds of `hi` after the first one. -/
def hiRounds (str : Bytes) : Nat → Bytes → Bytes → Bytes
  | 0, _, hi => hi
  | rounds + 1, prev, hi =>
      let prev := primitives.hmacSha256 str prev
      hiRounds str rounds prev (xor hi prev)

def hi (str salt : Bytes) (i : Nat) : Bytes :=
  let prev := primitives.hmacSha256 str (salt ++ [0, 0, 0, 1])
  hiRounds primitives str (i - 1) prev prev

inductive State where
  | update (nonce : List Char) (password : Bytes) (channelBinding : ChannelBinding)
  | finish (saltedPassword : Bytes) (authMessage : List Char)
  | done
  deriving DecidableEq, Repr

structure ScramSha256 where
  message : List Char
  state : State
  deriving DecidableEq, Repr

namespace ScramSha256

/-- `new`, with the nonce it draws. -/
def new (password : Bytes) (channelBinding : ChannelBinding) (nonce : List Char) : ScramSha256 where
  message := channelBinding.gs2Header.toList ++ "n=,r=".toList ++ nonce
  state := .update nonce (normalize primitives password) channelBinding

/-- `message`, which panics in the state `Done`. -/
def getMessage (scram : ScramSha256) : Option Bytes :=
  match scram.state with
  | .done => none
  | _ => some (Utf8.encode scram.message)

def invalidState : IoError := ⟨.other, "invalid SCRAM state"⟩

/-- The client's final message before its proof. -/
def withoutProof (channelBinding : ChannelBinding) (nonce : List Char) : List Char :=
  "c=".toList ++ primitives.base64Encode
    (ascii channelBinding.gs2Header ++ channelBinding.cbindData) ++ ",r=".toList ++ nonce

/-- What `update` leaves behind when it succeeds. -/
def updated (clientNonce : List Char) (password : Bytes) (channelBinding : ChannelBinding)
    (message : Bytes) : Except IoError ScramSha256 := do
  let message ← fromUtf8 message
  let parsed ← Parser.serverFirstMessage message
  if !clientNonce.isPrefixOf parsed.nonce then throw (invalidInput "invalid nonce")
  match primitives.base64Decode parsed.salt with
  | .error error => throw (invalidInput error)
  | .ok salt =>
      let saltedPassword := hi primitives password salt parsed.iterationCount
      let clientKey := primitives.hmacSha256 saltedPassword (ascii "Client Key")
      let storedKey := primitives.sha256 clientKey
      let final := withoutProof primitives channelBinding parsed.nonce
      let authMessage := "n=,r=".toList ++ clientNonce ++ ",".toList ++ message ++
        ",".toList ++ final
      let clientSignature := primitives.hmacSha256 storedKey (Utf8.encode authMessage)
      let clientProof := xor clientKey clientSignature
      return {
        message := final ++ ",p=".toList ++ primitives.base64Encode clientProof
        state := .finish saltedPassword authMessage
      }

def update (scram : ScramSha256) (message : Bytes) : Except IoError Unit × ScramSha256 :=
  match scram.state with
  | .update nonce password channelBinding =>
      match updated primitives nonce password channelBinding message with
      | .ok next => (.ok (), next)
      | .error error => (.error error, { scram with state := .done })
  | _ => (.error invalidState, { scram with state := .done })

/-- What `finish` checks of the server's final message. -/
def verify (saltedPassword : Bytes) (authMessage : List Char) (message : Bytes) :
    Except IoError Unit := do
  let message ← fromUtf8 message
  match ← Parser.serverFinalMessage message with
  | .error error => throw ⟨.other, "SCRAM error: " ++ String.ofList error⟩
  | .verifier verifier =>
      match primitives.base64Decode verifier with
      | .error error => throw (invalidInput error)
      | .ok verifier =>
          let serverKey := primitives.hmacSha256 saltedPassword (ascii "Server Key")
          if primitives.hmacSha256 serverKey (Utf8.encode authMessage) = verifier then return ()
          else throw (invalidInput "SCRAM verification error")

def finish (scram : ScramSha256) (message : Bytes) : Except IoError Unit × ScramSha256 :=
  match scram.state with
  | .finish saltedPassword authMessage =>
      (verify primitives saltedPassword authMessage message, { scram with state := .done })
  | _ => (.error invalidState, { scram with state := .done })

end ScramSha256

end OpenGauss.Protocol.Sasl
