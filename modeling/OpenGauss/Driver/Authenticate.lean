import OpenGauss.Driver.Config
import OpenGauss.Protocol.Frontend
import OpenGauss.Protocol.Sasl

/-! Authentication of a new connection (`tokio-opengauss`, `connect_raw.rs`).
What the server sends, and which writes fail, are inputs. -/

set_option autoImplicit false

namespace OpenGauss.Driver

open Protocol Protocol.Backend Lib

/-- The stream during startup: what reading it will answer, what writing to it
will answer (nothing left means no error), and what has been written. -/
structure StartupStream where
  incoming : List (Except IoError Message)
  writeErrors : List (Option IoError)
  sent : List Bytes
  /-- The channel binding data of the TLS session. -/
  tlsServerEndPoint : Option Bytes

abbrev Handshake := EStateM Error StartupStream

namespace Handshake

/-- An answer that needs no stream. -/
def lift {Value : Type} (result : Except Error Value) : Handshake Value := fun stream =>
  match result with
  | .ok value => .ok value stream
  | .error error => .error error stream

def tryNext : Handshake (Option Message) := fun stream =>
  match stream.incoming with
  | [] => .ok none stream
  | .ok message :: incoming => .ok (some message) { stream with incoming }
  | .error error :: incoming => .error (.io error) { stream with incoming }

def send (message : Bytes) : Handshake Unit := fun stream =>
  match stream.writeErrors with
  | some error :: writeErrors => .error (.io error) { stream with writeErrors }
  | _ => .ok () { stream with
      writeErrors := stream.writeErrors.drop 1
      sent := stream.sent ++ [message] }

end Handshake

open Handshake

def isNegotiation : Except IoError Message → Bool
  | .ok .negotiateProtocolVersion => true
  | _ => false

/-- The loop that passes over protocol negotiation. -/
def firstMessage : Handshake (Option Message) := fun stream =>
  tryNext { stream with incoming := stream.incoming.dropWhile isNegotiation }

def canSkipChannelBinding (config : Config) : Except Error Unit :=
  match config.channelBinding with
  | .disable | .prefer => .ok ()
  | .require => .error (.authentication "server did not use channel binding")

/-- `config.password`, when there is one. -/
def getPassword (config : Config) : Except Error Bytes :=
  match config.password with
  | some password => .ok password
  | none => .error (.config "password missing")

def encoded (message : Except IoError Bytes) : Except Error Bytes :=
  message.mapError .encode

def authenticatePassword (password : Bytes) : Handshake Unit := do
  let message ← lift (encoded (Frontend.passwordMessage password))
  send message

/-- `SaslMechanisms`: every name takes a byte or more. -/
def mechanisms : Nat → Bytes → Except IoError (List Text)
  | 0, _ => .ok []
  | fuel + 1, buf =>
      if buf.contains 0 then
        match buf.takeWhile (· ≠ 0) with
        | [] =>
            if buf.length ≠ 1 then
              .error ⟨.invalidData,
                "invalid message length: expected to be at end of iterator for sasl"⟩
            else .ok []
        | name =>
            match Utf8.decode? name with
            | none => .error ⟨.invalidInput, "invalid utf-8"⟩
            | some name => do
                let names ← mechanisms fuel ((buf.dropWhile (· ≠ 0)).drop 1)
                return name :: names
      else .error unexpectedEof

/-- The mechanism to use, and the channel binding to use it with. -/
def chooseMechanism (config : Config) (tlsServerEndPoint : Option Bytes) (names : List Text) :
    Except Error (Sasl.ChannelBinding × String) :=
  let channelBinding :=
    if config.channelBinding = .disable then none
    else tlsServerEndPoint.map Sasl.ChannelBinding.tlsServerEndPoint
  if Sasl.scramSha256Plus.toList ∈ names then
    match channelBinding with
    | some channelBinding => .ok (channelBinding, Sasl.scramSha256Plus)
    | none => .ok (.unsupported, Sasl.scramSha256)
  else if Sasl.scramSha256.toList ∈ names then
    match channelBinding with
    | some _ => .ok (.unrequested, Sasl.scramSha256)
    | none => .ok (.unsupported, Sasl.scramSha256)
  else .error (.authentication "unsupported SASL mechanism")

/-- An error of the exchange, by its message. -/
def exchanged (result : Except IoError Unit) : Except Error Unit :=
  result.mapError fun error => .authentication error.message

/-- `scram.message()`. -/
def scramMessage (scram : Sasl.ScramSha256) : Except Error Bytes :=
  match scram.getMessage with
  | some message => .ok message
  | none => .error .unreachable

/-- The data of the SASL message that is due. -/
def expectData (data : Message → Option Bytes) : Handshake Bytes := do
  match ← tryNext with
  | some message =>
      match data message, message with
      | some data, _ => return data
      | none, .errorResponse body => throw (.ofBody body)
      | none, _ => throw .unexpectedMessage
  | none => throw .closed

def saslContinueData : Message → Option Bytes
  | .authenticationSaslContinue data => some data
  | _ => none

def saslFinalData : Message → Option Bytes
  | .authenticationSaslFinal data => some data
  | _ => none

section

variable (primitives : Primitives) (nonce : Text) (config : Config)

/-- The exchange itself, with the nonce that `ScramSha256::new` draws. -/
def saslExchange (password : Bytes) (channelBinding : Sasl.ChannelBinding) (mechanism : String) :
    Handshake Unit := do
  let scram := Sasl.ScramSha256.new primitives password channelBinding nonce
  let initial ← lift (scramMessage scram)
  let message ← lift (encoded (Frontend.saslInitialResponse mechanism.toList initial))
  send message
  let data ← expectData saslContinueData
  let (result, scram) := scram.update primitives data
  lift (exchanged result)
  let response ← lift (scramMessage scram)
  let message ← lift (encoded (Frontend.saslResponse response))
  send message
  let data ← expectData saslFinalData
  lift (exchanged (scram.finish primitives data).1)

/-- `authenticate_sasl`. -/
def authenticateSasl (body : Bytes) : Handshake Unit := do
  let password ← lift (getPassword config)
  let names ← lift ((mechanisms (body.length + 1) body).mapError .parse)
  let stream ← get
  let (channelBinding, mechanism) ← lift (chooseMechanism config stream.tlsServerEndPoint names)
  lift (if mechanism ≠ Sasl.scramSha256Plus then canSkipChannelBinding config else .ok ())
  saslExchange primitives nonce password channelBinding mechanism

/-- The answer to a SHA256 challenge, by how the password is stored. -/
def sha256Output (user : Text) (pass : Bytes)
    (body : AuthenticationSha256PasswordBody) : Except Error Bytes :=
  match body.passwordStoredMethod with
  | sha256Password | plainPassword => do
      let random64code ← match body.random64code with
        | some random64code => pure random64code
        | none => throw (.authentication "missing salt in SHA256 auth")
      let token ← match body.token with
        | some token => pure token
        | none => throw (.authentication "missing token in SHA256 auth")
      let serverIteration := body.serverIteration.getD Authentication.defaultIterationCount
      (Authentication.rfc5802Algorithm primitives pass random64code token serverIteration).mapError
        fun error => .authentication error.message
  | md5Password =>
      match body.md5Salt with
      | some md5Salt =>
          .ok (Authentication.md5Hash primitives (Utf8.encode user) pass md5Salt)
      | none => .error (.authentication "missing md5_salt in SHA256 auth")
  | method =>
      .error (.authentication ("unsupported password stored method: " ++ toString method))

/-- A password method: no channel binding, a password, and the answer made of it. -/
def passwordMethod (output : Bytes → Except Error Bytes) : Handshake Unit := do
  lift (canSkipChannelBinding config)
  let pass ← lift (getPassword config)
  let output ← lift (output pass)
  authenticatePassword output

/-- The message after a method: the server accepts the client, or not. -/
def accepted : Handshake Unit := do
  match ← tryNext with
  | some .authenticationOk => return ()
  | some (.errorResponse body) => throw (.ofBody body)
  | some _ => throw .unexpectedMessage
  | none => throw .closed

def authenticate (user : Text) : Handshake Unit := do
  match ← firstMessage with
  | some .authenticationOk => lift (canSkipChannelBinding config)
  | some .authenticationCleartextPassword => do
      passwordMethod config fun pass => .ok pass
      accepted
  | some (.authenticationMd5Password salt) => do
      passwordMethod config fun pass =>
        .ok (Authentication.md5Hash primitives (Utf8.encode user) pass salt)
      accepted
  | some (.authenticationSha256Password body) => do
      passwordMethod config fun pass => sha256Output primitives user pass body
      accepted
  | some (.authenticationMd5Sha256Password body) => do
      passwordMethod config fun pass =>
        (Authentication.md5Sha256Hash primitives pass body.salt body.md5Salt 0).mapError
          fun error => .authentication error.message
      accepted
  | some (.authenticationSm3Password body) => do
      passwordMethod config fun pass =>
        (Authentication.sm3Algorithm primitives pass body.random64code body.token
          body.serverIteration).mapError fun error => .authentication error.message
      accepted
  | some (.authenticationSasl body) => do
      authenticateSasl primitives nonce config body
      accepted
  | some .authenticationKerberosV5 | some .authenticationScmCredential
  | some .authenticationGss | some .authenticationSspi =>
      throw (.authentication "unsupported authentication method")
  | some (.errorResponse body) => throw (.ofBody body)
  | some _ => throw .unexpectedMessage
  | none => throw .closed

end

end OpenGauss.Driver
