import OpenGauss.Protocol.Sasl

/-! What a successful step of the SCRAM exchange has checked and computed. -/

set_option autoImplicit false

namespace OpenGauss.Protocol.Sasl

open Authentication Lib

variable (primitives : Primitives)

/-- The messages that client and server sign. -/
def authMessage (clientNonce : List Char) (channelBinding : ChannelBinding)
    (serverFirst : List Char) (serverNonce : List Char) : List Char :=
  "n=,r=".toList ++ clientNonce ++ ",".toList ++ serverFirst ++ ",".toList ++
    ScramSha256.withoutProof primitives channelBinding serverNonce

/-- The signature that proves that the server knows the salted password. -/
def serverSignature (saltedPassword : Bytes) (authMessage : List Char) : Bytes :=
  primitives.hmacSha256 (primitives.hmacSha256 saltedPassword (ascii "Server Key"))
    (Utf8.encode authMessage)

/-- The proof that the client knows the salted password. -/
def clientProof (saltedPassword : Bytes) (authMessage : List Char) : Bytes :=
  let clientKey := primitives.hmacSha256 saltedPassword (ascii "Client Key")
  xor clientKey (primitives.hmacSha256 (primitives.sha256 clientKey) (Utf8.encode authMessage))

/-- What `update` has read from the server's first message. -/
structure ServerFirst (clientNonce : List Char) (message : Bytes) where
  text : List Char
  parsed : Parser.ServerFirstMessage
  salt : Bytes
  decodes : fromUtf8 message = .ok text
  parses : Parser.serverFirstMessage text = .ok parsed
  extends_ : clientNonce <+: parsed.nonce
  salts : primitives.base64Decode parsed.salt = .ok salt

namespace ServerFirst

variable {primitives} {clientNonce : List Char} {message : Bytes}
  (first : ServerFirst primitives clientNonce message)

def saltedPassword (password : Bytes) : Bytes :=
  hi primitives (normalize primitives password) first.salt first.parsed.iterationCount

def authMessage (channelBinding : ChannelBinding) : List Char :=
  Sasl.authMessage primitives clientNonce channelBinding first.text first.parsed.nonce

/-- The client's final message. -/
def clientFinal (channelBinding : ChannelBinding) (password : Bytes) : List Char :=
  ScramSha256.withoutProof primitives channelBinding first.parsed.nonce ++ ",p=".toList ++
    primitives.base64Encode
      (clientProof primitives (first.saltedPassword password) (first.authMessage channelBinding))

end ServerFirst

/-- The server's final message carries `signature`. -/
def Verifies (message : Bytes) (signature : Bytes) : Prop :=
  ∃ text verifier, fromUtf8 message = .ok text ∧
    Parser.serverFinalMessage text = .ok (.verifier verifier) ∧
    primitives.base64Decode verifier = .ok signature

namespace ScramSha256

variable {primitives}

theorem update_new_ok {password : Bytes} {channelBinding : ChannelBinding} {nonce : List Char}
    {message : Bytes} {scram : ScramSha256}
    (updated : (new primitives password channelBinding nonce).update primitives message =
      (.ok (), scram)) :
    ∃ first : ServerFirst primitives nonce message,
      scram.message = first.clientFinal channelBinding password ∧
      scram.state = .finish (first.saltedPassword password) (first.authMessage channelBinding) := by
  simp only [update, new] at updated
  cases computed : ScramSha256.updated primitives nonce (normalize primitives password)
      channelBinding message with
  | error error => simp [computed] at updated
  | ok next =>
      simp only [computed, Prod.mk.injEq, true_and] at updated
      subst updated
      rw [ScramSha256.updated] at computed
      cases decodes : fromUtf8 message with
      | error error => simp [decodes, bind, Except.bind] at computed
      | ok text =>
          cases parses : Parser.serverFirstMessage text with
          | error error => simp [decodes, parses, bind, Except.bind] at computed
          | ok parsed =>
              simp only [decodes, parses, bind, Except.bind] at computed
              by_cases extended : nonce.isPrefixOf parsed.nonce = true
              · cases salts : primitives.base64Decode parsed.salt with
                | error error =>
                    simp [extended, salts, throw, throwThe, MonadExceptOf.throw] at computed
                | ok salt =>
                    simp only [extended, salts, Bool.not_true, Bool.false_eq_true, if_false, pure,
                      Except.pure, Except.ok.injEq] at computed
                    subst computed
                    exact ⟨⟨text, parsed, salt, decodes, parses,
                      List.isPrefixOf_iff_prefix.mp extended, salts⟩, rfl, rfl⟩
              · simp [extended, throw, throwThe, MonadExceptOf.throw] at computed

theorem verify_ok {saltedPassword : Bytes} {authMessage : List Char} {message : Bytes}
    (verified : verify primitives saltedPassword authMessage message = .ok ()) :
    Verifies primitives message (serverSignature primitives saltedPassword authMessage) := by
  rw [verify] at verified
  cases decodes : fromUtf8 message with
  | error error => simp [decodes, bind, Except.bind] at verified
  | ok text =>
      cases parses : Parser.serverFinalMessage text with
      | error error => simp [decodes, parses, bind, Except.bind] at verified
      | ok parsed =>
          simp only [decodes, parses, bind, Except.bind] at verified
          cases parsed with
          | error error => simp [throw, throwThe, MonadExceptOf.throw] at verified
          | verifier verifier =>
              cases carries : primitives.base64Decode verifier with
              | error error => simp [carries, throw, throwThe, MonadExceptOf.throw] at verified
              | ok signature =>
                  simp only [carries] at verified
                  split at verified
                  · rename_i same
                    exact ⟨text, verifier, decodes, parses, by rw [serverSignature, same, carries]⟩
                  · simp [throw, throwThe, MonadExceptOf.throw] at verified

/-- Finishing succeeds only on the server's signature. -/
theorem finish_ok {scram : ScramSha256} {message saltedPassword : Bytes}
    {authMessage : List Char} (ready : scram.state = .finish saltedPassword authMessage)
    (finished : (scram.finish primitives message).1 = .ok ()) :
    Verifies primitives message (serverSignature primitives saltedPassword authMessage) := by
  simp only [finish, ready] at finished
  exact verify_ok finished

end ScramSha256

end OpenGauss.Protocol.Sasl
