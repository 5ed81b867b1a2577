import OpenGauss.Protocol.SaslProperties

/-! The SCRAM client as a state machine: what a call may answer after any
sequence of earlier calls. -/

set_option autoImplicit false

namespace OpenGauss.Protocol.Sasl

open Authentication Lib

/-! ### The server's final message -/

/-- Decoding accepts only what encoding writes, as the standard alphabet with
canonical padding and no stray bits does. -/
def StrictBase64 (primitives : Primitives) : Prop :=
  ∀ text bytes, primitives.base64Decode text = .ok bytes → text = primitives.base64Encode bytes

namespace Parser

theorem eat_ok {s rest left : List Char} {target : Char} (ate : eat s target rest = .ok left) :
    rest = target :: left := by
  cases rest with
  | nil => cases ate
  | cons char rest =>
    rw [eat] at ate
    split at ate
    · rename_i same
      cases ate
      rw [same]
    · cases ate

theorem field_ok {s rest value left : List Char} {name : Char} {allowed : Char → Bool}
    (read : field s name allowed rest = .ok (value, left)) : rest = name :: '=' :: (value ++ left) := by
  rw [field] at read
  cases first : eat s name rest with
  | error error => rw [first] at read; cases read
  | ok behind =>
    rw [first] at read
    cases second : eat s '=' behind with
    | error error =>
      change (eat s '=' behind >>= _) = _ at read
      rw [second] at read
      cases read
    | ok tail =>
      change (eat s '=' behind >>= _) = _ at read
      rw [second] at read
      cases read
      rw [eat_ok first, eat_ok second, List.takeWhile_append_dropWhile]

theorem eof_ok {s rest : List Char} (ended : eof s rest = .ok ()) : rest = [] := by
  rw [eof] at ended
  split at ended
  · assumption
  · cases ended

/-- A verifier is all that stands behind `v=`. -/
theorem serverFinalMessage_verifier {s verifier : List Char}
    (parsed : serverFinalMessage s = .ok (.verifier verifier)) : s = 'v' :: '=' :: verifier := by
  rw [serverFinalMessage] at parsed
  split at parsed
  · cases read : field s 'e' isValue s with
    | error error => rw [read] at parsed; cases parsed
    | ok found =>
      obtain ⟨error, rest⟩ := found
      rw [read] at parsed
      cases ended : eof s rest with
      | error error' =>
        change (eof s rest >>= _) = _ at parsed
        rw [ended] at parsed
        cases parsed
      | ok done =>
        change (eof s rest >>= _) = _ at parsed
        rw [ended] at parsed
        cases parsed
  · cases read : field s 'v' isBase64 s with
    | error error => rw [read] at parsed; cases parsed
    | ok found =>
      obtain ⟨value, rest⟩ := found
      rw [read] at parsed
      cases ended : eof s rest with
      | error error =>
        change (eof s rest >>= _) = _ at parsed
        rw [ended] at parsed
        cases parsed
      | ok done =>
        change (eof s rest >>= _) = _ at parsed
        rw [ended] at parsed
        cases parsed
        rw [field_ok read, eof_ok ended, List.append_nil]

end Parser

theorem fromUtf8_ok {bytes : Bytes} {text : List Char} (decoded : fromUtf8 bytes = .ok text) :
    bytes = Utf8.encode text := by
  rw [fromUtf8] at decoded
  cases found : Utf8.decode? bytes with
  | none => rw [found] at decoded; cases decoded
  | some decodedText =>
    rw [found] at decoded
    cases decoded
    exact (Utf8.encode_of_decode? found).symm

/-- The one message that carries a signature. -/
theorem Verifies.message {primitives : Primitives} (strict : StrictBase64 primitives)
    {message signature : Bytes} (verifies : Verifies primitives message signature) :
    message = Utf8.encode ("v=".toList ++ primitives.base64Encode signature) := by
  obtain ⟨text, verifier, decodes, parses, carries⟩ := verifies
  rw [fromUtf8_ok decodes, Parser.serverFinalMessage_verifier parses, strict verifier signature carries]
  rfl

/-! Values of the hash functions and of base64 on one exchange with the password
`foobar`, one round and the binding data 1, 2, 3, 4. -/

def vectorSalted : Bytes :=
  [76, 207, 79, 167, 152, 100, 104, 189, 231, 104, 116, 127, 67, 45, 171, 134, 45, 172, 67, 232,
    88, 82, 73, 159, 0, 11, 216, 116, 57, 169, 64, 185]

def vectorClientKey : Bytes :=
  [106, 96, 252, 40, 188, 182, 148, 135, 32, 248, 138, 53, 43, 7, 246, 119, 114, 31, 143, 124,
    199, 46, 124, 109, 98, 60, 224, 239, 8, 159, 123, 173]

def vectorStoredKey : Bytes :=
  [76, 209, 176, 81, 222, 117, 16, 17, 109, 144, 41, 128, 41, 233, 90, 128, 176, 202, 107, 166,
    16, 2, 208, 67, 204, 14, 84, 116, 121, 209, 175, 40]

def vectorClientSignature : Bytes :=
  [230, 110, 129, 40, 232, 57, 246, 98, 235, 73, 56, 193, 113, 11, 119, 138, 142, 39, 220, 74,
    108, 109, 63, 247, 210, 39, 80, 181, 105, 15, 226, 192]

def vectorServerKey : Bytes :=
  [61, 214, 158, 243, 231, 3, 38, 73, 186, 2, 89, 225, 2, 161, 105, 220, 38, 146, 77, 253, 229,
    157, 141, 255, 53, 140, 202, 142, 188, 19, 138, 63]

def vectorServerSignature : Bytes :=
  [136, 13, 151, 134, 190, 38, 112, 87, 136, 161, 2, 175, 178, 233, 166, 62, 196, 243, 117, 205,
    76, 211, 11, 100, 130, 127, 176, 101, 105, 151, 125, 220]

def vectorServerFirst : List Char :=
  "r=9IZ2O01zb9IgiIZ1WJ/zgpJBjx/oIRLs02gGSHcw1KEty3eY,s=fs3IXBy7U7+IvVjZ,i=1".toList

def vectorAuthMessage : List Char :=
  ("n=,r=9IZ2O01zb9IgiIZ1WJ/zgpJB," ++
    "r=9IZ2O01zb9IgiIZ1WJ/zgpJBjx/oIRLs02gGSHcw1KEty3eY,s=fs3IXBy7U7+IvVjZ,i=1," ++
    "c=cD10bHMtc2VydmVyLWVuZC1wb2ludCwsAQIDBA==,r=9IZ2O01zb9IgiIZ1WJ/zgpJBjx/oIRLs02gGSHcw1KEty3eY").toList

/-- The hash functions and base64 on what this exchange asks of them. -/
private def exchangeVectors : Primitives where
  hmacSha256 key message :=
    ([((ascii "foobar", [126, 205, 200, 92, 28, 187, 83, 191, 136, 189, 88, 217, 0, 0, 0, 1]), vectorSalted),
      ((vectorSalted, ascii "Client Key"), vectorClientKey),
      ((vectorSalted, ascii "Server Key"), vectorServerKey),
      ((vectorStoredKey, Utf8.encode vectorAuthMessage), vectorClientSignature),
      ((vectorServerKey, Utf8.encode vectorAuthMessage), vectorServerSignature)].lookup
        (key, message)).getD []
  sha256 message := if message = vectorClientKey then vectorStoredKey else []
  md5 _ := []
  pbkdf2HmacSha1 _ _ _ := []
  saslprep text := some text
  base64Encode bytes :=
    if bytes = [126, 205, 200, 92, 28, 187, 83, 191, 136, 189, 88, 217] then "fs3IXBy7U7+IvVjZ".toList
    else if bytes = vectorServerSignature then "iA2Xhr4mcFeIoQKvsummPsTzdc1M0wtkgn+wZWmXfdw=".toList
    else if bytes = ascii "p=tls-server-end-point,," ++ [1, 2, 3, 4] then
      "cD10bHMtc2VydmVyLWVuZC1wb2ludCwsAQIDBA==".toList
    else "jA59AFSPYuXLsbL0WgyB/fw4UzarQ0OasBuwWmGQmW0=".toList
  base64Decode text :=
    if text = "fs3IXBy7U7+IvVjZ".toList then
      .ok [126, 205, 200, 92, 28, 187, 83, 191, 136, 189, 88, 217]
    else if text = "iA2Xhr4mcFeIoQKvsummPsTzdc1M0wtkgn+wZWmXfdw=".toList then .ok vectorServerSignature
    else .error "Invalid symbol"
  hexDecode _ := .error "Odd number of digits"

private theorem exchangeVectors_strict : StrictBase64 exchangeVectors := by
  intro text bytes decoded
  change (if text = "fs3IXBy7U7+IvVjZ".toList then _ else _) = Except.ok bytes at decoded
  split at decoded
  · rename_i salt
    cases decoded
    rw [salt]
    rfl
  · split at decoded
    · rename_i signature
      cases decoded
      rw [signature]
      rfl
    · cases decoded

/-! ### Sequences of calls -/

inductive Call where
  | update (message : Bytes)
  | finish (message : Bytes)
  deriving DecidableEq, Repr

namespace ScramSha256

variable (primitives : Primitives)

def perform (scram : ScramSha256) : Call → Except IoError Unit × ScramSha256
  | .update message => scram.update primitives message
  | .finish message => scram.finish primitives message

/-- The client after calls of which each may have failed. -/
def run (scram : ScramSha256) (calls : List Call) : ScramSha256 :=
  calls.foldl (fun scram call => (scram.perform primitives call).2) scram

/-- What the client's first message says after the GS2 header. -/
def clientFirstBare (nonce : List Char) : List Char := "n=,r=".toList ++ nonce

variable {primitives} {scram : ScramSha256}

theorem run_append (before after : List Call) :
    scram.run primitives (before ++ after) = (scram.run primitives before).run primitives after :=
  List.foldl_append

theorem perform_done (done : scram.state = .done) (call : Call) :
    (scram.perform primitives call).1 = .error invalidState ∧
      (scram.perform primitives call).2.state = .done := by
  cases call with
  | update message => simp [perform, update, done]
  | finish message => simp [perform, finish, done]

theorem run_done (done : scram.state = .done) (calls : List Call) :
    (scram.run primitives calls).state = .done := by
  induction calls generalizing scram with
  | nil => exact done
  | cons call calls ih => exact ih (perform_done done call).2

/-- A call that fails leaves the state `Done`. -/
theorem perform_failed {call : Call} {error : IoError} (failed : (scram.perform primitives call).1 = .error error) :
    (scram.perform primitives call).2.state = .done := by
  cases call with
  | update message =>
    cases ready : scram.state with
    | update nonce password channelBinding =>
      simp only [perform, update, ready] at failed ⊢
      cases computed : updated primitives nonce password channelBinding message with
      | error error => rfl
      | ok next => simp [computed] at failed
    | finish saltedPassword authMessage => simp [perform, update, ready]
    | done => simp [perform, update, ready]
  | finish message =>
    rw [perform, finish]
    split <;> rfl

/-- `finish` always leaves the state `Done`. -/
theorem finish_done (message : Bytes) : (scram.finish primitives message).2.state = .done := by
  rw [finish]
  split <;> rfl

theorem perform_finish_done {saltedPassword : Bytes} {authMessage : List Char}
    (ready : scram.state = .finish saltedPassword authMessage) (call : Call) :
    (scram.perform primitives call).2.state = .done := by
  cases call with
  | update message => simp [perform, update, ready]
  | finish message => exact finish_done message

theorem not_ok_of_done {calls : List Call} {call : Call} (done : scram.state = .done)
    (ok : ((scram.run primitives calls).perform primitives call).1 = .ok ()) : False := by
  rw [(perform_done (run_done done calls) call).1] at ok
  cases ok

/-- In every sequence of calls only the first may succeed, as an `update` whose
nonce extends the client's, and then the second, as a `finish` of the server's
signature of the three messages. After a failed call every call fails. -/
theorem run_sound (strict : StrictBase64 primitives) (password : Bytes) (channelBinding : ChannelBinding)
    (nonce : List Char) :
    (∀ before call,
      (((new primitives password channelBinding nonce).run primitives before).perform primitives call).1 = .ok () →
      (∃ serverFirst, before = [] ∧ call = .update serverFirst ∧
        Nonempty (ServerFirst primitives nonce serverFirst)) ∨
      ∃ serverFirst message, ∃ first : ServerFirst primitives nonce serverFirst, ∃ proof,
        before = [.update serverFirst] ∧ call = .finish message ∧
        (new primitives password channelBinding nonce).update primitives serverFirst =
          (.ok (), (new primitives password channelBinding nonce).run primitives before) ∧
        (new primitives password channelBinding nonce).message =
          channelBinding.gs2Header.toList ++ clientFirstBare nonce ∧
        ((new primitives password channelBinding nonce).run primitives before).message =
          withoutProof primitives channelBinding first.parsed.nonce ++ ",p=".toList ++ proof ∧
        message = Utf8.encode ("v=".toList ++ primitives.base64Encode
          (primitives.hmacSha256
            (primitives.hmacSha256 (first.saltedPassword password) (ascii "Server Key"))
            (Utf8.encode (clientFirstBare nonce ++ ",".toList ++ first.text ++ ",".toList ++
              withoutProof primitives channelBinding first.parsed.nonce))))) ∧
    (∀ before failed after call error,
      (((new primitives password channelBinding nonce).run primitives before).perform primitives failed).1 =
        .error error →
      (((new primitives password channelBinding nonce).run primitives
        (before ++ failed :: after)).perform primitives call).1 = .error invalidState) := by
  refine ⟨fun before call ok => ?_, fun before failed after call error failing => ?_⟩
  · cases before with
    | nil =>
      cases call with
      | finish message => cases ok
      | update serverFirst =>
        obtain ⟨first, -⟩ := update_new_ok (Prod.ext ok rfl)
        exact .inl ⟨serverFirst, rfl, rfl, ⟨first⟩⟩
    | cons earlier rest =>
      cases outcome : ((new primitives password channelBinding nonce).perform primitives earlier).1 with
      | error error => exact (not_ok_of_done (perform_failed outcome) ok).elim
      | ok done =>
        cases earlier with
        | finish message => cases outcome
        | update serverFirst =>
          obtain ⟨first, message, ready⟩ := update_new_ok (Prod.ext outcome rfl)
          cases rest with
          | cons second rest => exact (not_ok_of_done (perform_finish_done ready second) ok).elim
          | nil =>
            cases call with
            | update again =>
              change (update primitives
                ((new primitives password channelBinding nonce).update primitives serverFirst).2 again).1 =
                  .ok () at ok
              rw [update, ready] at ok
              cases ok
            | finish serverFinal =>
              have verified := (finish_ok ready ok).message strict
              exact .inr ⟨serverFirst, serverFinal, first, _, rfl, rfl, Prod.ext outcome rfl,
                List.append_assoc _ _ _, message, verified⟩
  · rw [run_append]
    exact (perform_done (run_done (perform_failed failing) after) call).1

theorem run_sound_vectors :
    Nonempty (ServerFirst exchangeVectors "9IZ2O01zb9IgiIZ1WJ/zgpJB".toList (Utf8.encode vectorServerFirst)) ∧
      (((ScramSha256.new exchangeVectors (ascii "foobar") (.tlsServerEndPoint [1, 2, 3, 4])
        "9IZ2O01zb9IgiIZ1WJ/zgpJB".toList).run exchangeVectors
          [.finish [], .update (Utf8.encode vectorServerFirst)]).perform exchangeVectors
            (.finish (ascii "v=iA2Xhr4mcFeIoQKvsummPsTzdc1M0wtkgn+wZWmXfdw="))).1 =
        .error ScramSha256.invalidState := by
  obtain ⟨successes, failures⟩ := run_sound exchangeVectors_strict (ascii "foobar")
    (.tlsServerEndPoint [1, 2, 3, 4]) "9IZ2O01zb9IgiIZ1WJ/zgpJB".toList
  refine ⟨?_, failures [] (.finish []) [.update (Utf8.encode vectorServerFirst)] _ _ rfl⟩
  have finished := successes [.update (Utf8.encode vectorServerFirst)]
    (.finish (ascii "v=iA2Xhr4mcFeIoQKvsummPsTzdc1M0wtkgn+wZWmXfdw=")) (by decide +kernel)
  obtain ⟨_, impossible, -⟩ | ⟨serverFirst, _, first, _, before, -⟩ := finished
  · cases impossible
  · obtain ⟨same, -⟩ := List.cons.inj before
    exact ⟨Call.update.inj same ▸ first⟩

end ScramSha256

end OpenGauss.Protocol.Sasl
