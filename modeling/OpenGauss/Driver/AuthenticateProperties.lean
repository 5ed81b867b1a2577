import OpenGauss.Driver.Authenticate
import OpenGauss.Protocol.SaslRuns

/-! Authentication that requires channel binding. -/

set_option autoImplicit false

namespace OpenGauss.Driver

open Protocol Protocol.Backend Lib Handshake
open Protocol.Sasl (vectorSalted vectorClientKey vectorStoredKey vectorClientSignature vectorServerKey
  vectorServerSignature vectorServerFirst vectorAuthMessage)

namespace Handshake

theorem bind_ok {First Second : Type} {first : Handshake First} {next : First → Handshake Second}
    {stream final : StartupStream} {value : Second} :
    (first >>= next) stream = .ok value final ↔
      ∃ middle between, first stream = .ok middle between ∧ next middle between = .ok value final := by
  simp only [bind, EStateM.bind]
  cases ran : first stream with
  | ok middle between => simp
  | error error between => simp

@[simp] theorem lift_ok {Value : Type} {result : Except Error Value} {value : Value}
    {stream final : StartupStream} :
    lift result stream = .ok value final ↔ result = .ok value ∧ final = stream := by
  cases result with
  | ok found => simp [lift, eq_comm]
  | error error => simp [lift]

@[simp] theorem throw_ne_ok {Value : Type} {error : Error} {value : Value}
    {stream final : StartupStream} :
    (throw error : Handshake Value) stream ≠ .ok value final := by
  change EStateM.Result.error error stream ≠ _
  exact fun same => by cases same

@[simp] theorem pure_ok {Value : Type} {found value : Value} {stream final : StartupStream} :
    (pure found : Handshake Value) stream = .ok value final ↔ found = value ∧ stream = final := by
  simp [pure, EStateM.pure]

theorem tryNext_ok {message : Option Message} {stream final : StartupStream}
    (answered : tryNext stream = .ok message final) :
    (message = none ∧ final = stream) ∨
      ∃ found incoming, message = some found ∧ stream.incoming = .ok found :: incoming ∧
        final = { stream with incoming } := by
  rw [tryNext] at answered
  split at answered
  · cases answered
    exact .inl ⟨rfl, rfl⟩
  · rename_i found incoming arrived
    cases answered
    exact .inr ⟨found, incoming, rfl, arrived, rfl⟩
  · cases answered

theorem send_ok {message : Bytes} {stream final : StartupStream}
    (sent : send message stream = .ok () final) :
    final.sent = stream.sent ++ [message] ∧ final.incoming = stream.incoming ∧
      final.tlsServerEndPoint = stream.tlsServerEndPoint := by
  rw [send] at sent
  split at sent
  · cases sent
  · cases sent
    exact ⟨rfl, rfl, rfl⟩

end Handshake

theorem canSkipChannelBinding_require {config : Config}
    (require : config.channelBinding = .require) :
    canSkipChannelBinding config =
      .error (.authentication "server did not use channel binding") := by
  rw [canSkipChannelBinding, require]

/-- A password method never succeeds when channel binding is required. -/
theorem passwordMethod_require {config : Config} {output : Bytes → Except Error Bytes}
    {stream final : StartupStream} (require : config.channelBinding = .require) :
    passwordMethod config output stream ≠ .ok () final := by
  intro succeeded
  rw [passwordMethod, bind_ok] at succeeded
  obtain ⟨_, _, skipped, _⟩ := succeeded
  rw [lift_ok, canSkipChannelBinding_require require] at skipped
  cases skipped.1

/-- The mechanism with channel binding is chosen only when the server offers it
and the TLS session has binding data, and the other one cannot be used. -/
theorem chooseMechanism_plus {config : Config} {tlsServerEndPoint : Option Bytes}
    {names : List Text} {channelBinding : Sasl.ChannelBinding}
    (chosen : chooseMechanism config tlsServerEndPoint names =
      .ok (channelBinding, Sasl.scramSha256Plus)) :
    Sasl.scramSha256Plus.toList ∈ names ∧
      ∃ endPoint, tlsServerEndPoint = some endPoint ∧
        channelBinding = .tlsServerEndPoint endPoint := by
  have differ : Sasl.scramSha256 ≠ Sasl.scramSha256Plus := by decide
  simp only [chooseMechanism] at chosen
  split at chosen
  · rename_i offered
    refine ⟨offered, ?_⟩
    split at chosen
    · rename_i binding found
      cases chosen
      split at found
      · cases found
      · obtain ⟨endPoint, has, rfl⟩ := Option.map_eq_some_iff.mp found
        exact ⟨endPoint, has, rfl⟩
    · exact absurd (Prod.mk.inj (Except.ok.inj chosen)).2 differ
  · split at chosen
    · split at chosen
      · exact absurd (Prod.mk.inj (Except.ok.inj chosen)).2 differ
      · exact absurd (Prod.mk.inj (Except.ok.inj chosen)).2 differ
    · cases chosen

theorem encoded_ok {message : Except IoError Bytes} {bytes : Bytes}
    (ok : encoded message = .ok bytes) : message = .ok bytes := by
  cases message with
  | ok found => exact congrArg Except.ok (Except.ok.inj ok)
  | error error => cases ok

theorem getPassword_ok {config : Config} {password : Bytes}
    (ok : getPassword config = .ok password) : config.password = some password := by
  rw [getPassword] at ok
  split at ok
  · rename_i found has
    rw [has, Except.ok.inj ok]
  · cases ok

theorem parsed_ok {Value : Type} {result : Except IoError Value} {value : Value}
    (ok : result.mapError Error.parse = .ok value) : result = .ok value := by
  cases result with
  | ok found => exact congrArg Except.ok (Except.ok.inj ok)
  | error error => cases ok

theorem exchanged_ok {result : Except IoError Unit} (ok : exchanged result = .ok ()) :
    result = .ok () := by
  cases result with
  | ok value => rfl
  | error error => cases ok

theorem scramMessage_ok {scram : Sasl.ScramSha256} {message : Bytes}
    (ok : scramMessage scram = .ok message) : message = Utf8.encode scram.message := by
  rw [scramMessage, Sasl.ScramSha256.getMessage] at ok
  cases state : scram.state with
  | done => simp [state] at ok
  | update nonce password channelBinding => simpa [state, eq_comm] using ok
  | finish saltedPassword authMessage => simpa [state, eq_comm] using ok

/-- A SCRAM exchange that has been run to its end: what the client has sent
carries the channel binding, and the server has proved that it knows the
password and has seen the same messages. -/
def Exchanged (primitives : Primitives) (nonce : Text) (password : Bytes)
    (channelBinding : Sasl.ChannelBinding) (mechanism : String) (serverFirst serverFinal : Bytes)
    (sent : List Bytes) : Prop :=
  ∃ (first : Sasl.ServerFirst primitives nonce serverFirst) (initial response : Bytes),
    sent = [initial, response] ∧
    Frontend.saslInitialResponse mechanism.toList
      (Utf8.encode (channelBinding.gs2Header.toList ++ "n=,r=".toList ++ nonce)) = .ok initial ∧
    Frontend.saslResponse (Utf8.encode (first.clientFinal channelBinding password)) =
      .ok response ∧
    Sasl.Verifies primitives serverFinal (Sasl.serverSignature primitives
      (first.saltedPassword password) (first.authMessage channelBinding))

theorem accepted_ok {stream final : StartupStream} (ok : accepted stream = .ok () final) :
    ∃ incoming, stream.incoming = .ok .authenticationOk :: incoming ∧
      final = { stream with incoming } := by
  rw [accepted, bind_ok] at ok
  obtain ⟨message, between, answered, rest⟩ := ok
  rcases tryNext_ok answered with ⟨rfl, _⟩ | ⟨found, incoming, rfl, arrived, rfl⟩
  · exact absurd rest throw_ne_ok
  · cases found with
    | authenticationOk =>
        obtain ⟨_, rfl⟩ := pure_ok.mp rest
        exact ⟨incoming, arrived, rfl⟩
    | _ => exact absurd rest throw_ne_ok

theorem expectData_ok {data : Message → Option Bytes} {found : Bytes}
    {stream final : StartupStream} (ok : expectData data stream = .ok found final) :
    ∃ message incoming, stream.incoming = .ok message :: incoming ∧ data message = some found ∧
      final = { stream with incoming } := by
  rw [expectData, bind_ok] at ok
  obtain ⟨answer, between, answered, rest⟩ := ok
  rcases tryNext_ok answered with ⟨rfl, _⟩ | ⟨message, incoming, rfl, arrived, rfl⟩
  · exact absurd rest throw_ne_ok
  · cases has : data message with
    | some value =>
        simp only [has, pure_ok] at rest
        obtain ⟨rfl, rfl⟩ := rest
        exact ⟨message, incoming, arrived, has, rfl⟩
    | none =>
        simp only [has] at rest
        cases message <;> exact absurd rest throw_ne_ok

theorem saslContinueData_some {message : Message} {data : Bytes}
    (has : saslContinueData message = some data) : message = .authenticationSaslContinue data := by
  cases message with
  | authenticationSaslContinue found => exact congrArg _ (Option.some.inj has)
  | _ => cases has

theorem saslFinalData_some {message : Message} {data : Bytes}
    (has : saslFinalData message = some data) : message = .authenticationSaslFinal data := by
  cases message with
  | authenticationSaslFinal found => exact congrArg _ (Option.some.inj has)
  | _ => cases has

/-- With channel binding required, only the bound mechanism passes the check. -/
theorem mechanism_require {config : Config} {mechanism : String}
    (require : config.channelBinding = .require)
    (passed : (if mechanism ≠ Sasl.scramSha256Plus then canSkipChannelBinding config
      else .ok ()) = .ok ()) : mechanism = Sasl.scramSha256Plus := by
  by_contra other
  rw [if_pos other, canSkipChannelBinding_require require] at passed
  cases passed

theorem saslExchange_ok {primitives : Primitives} {nonce : Text} {password : Bytes}
    {channelBinding : Sasl.ChannelBinding} {mechanism : String} {stream final : StartupStream}
    (ok : saslExchange primitives nonce password channelBinding mechanism stream = .ok () final) :
    ∃ serverFirst serverFinal sent incoming,
      stream.incoming = .ok (.authenticationSaslContinue serverFirst) ::
        .ok (.authenticationSaslFinal serverFinal) :: incoming ∧
      final.incoming = incoming ∧ final.sent = stream.sent ++ sent ∧
      Exchanged primitives nonce password channelBinding mechanism serverFirst serverFinal sent := by
  simp only [saslExchange, bind_ok, lift_ok] at ok
  obtain ⟨initial, _, ⟨first, rfl⟩, initialMessage, _, ⟨initialEncoded, rfl⟩, rest⟩ := ok
  obtain ⟨_, afterInitial, initialSent, serverFirst, _, firstArrived, rest⟩ := rest
  obtain ⟨_, _, ⟨updated, rfl⟩, response, _, ⟨responded, rfl⟩, rest⟩ := rest
  obtain ⟨responseMessage, _, ⟨responseEncoded, rfl⟩, _, afterResponse, responseSent, rest⟩ := rest
  obtain ⟨serverFinal, _, finalArrived, finished, rfl⟩ := rest
  obtain ⟨sentInitial, incomingInitial, _⟩ := send_ok initialSent
  obtain ⟨_, incoming, arrived, isContinue, rfl⟩ := expectData_ok firstArrived
  obtain rfl := saslContinueData_some isContinue
  obtain ⟨sentResponse, incomingResponse, _⟩ := send_ok responseSent
  obtain ⟨_, incoming', arrived', isFinal, rfl⟩ := expectData_ok finalArrived
  obtain rfl := saslFinalData_some isFinal
  refine ⟨serverFirst, serverFinal, [initialMessage, responseMessage], incoming', ?_, rfl, ?_, ?_⟩
  · rw [← incomingInitial, arrived, ← arrived', incomingResponse]
  · simp only [sentResponse, sentInitial, List.append_assoc]
    rfl
  · obtain ⟨server, message, state⟩ :=
      Sasl.ScramSha256.update_new_ok (Prod.ext (exchanged_ok updated) rfl)
    refine ⟨server, initialMessage, responseMessage, rfl, ?_, ?_, ?_⟩
    · rw [← encoded_ok initialEncoded, scramMessage_ok first]
      rfl
    · rw [← message, ← scramMessage_ok responded]
      exact encoded_ok responseEncoded
    · exact Sasl.ScramSha256.finish_ok state (exchanged_ok finished)

theorem authenticateSasl_require {primitives : Primitives} {nonce : Text} {config : Config}
    {body : Bytes} {stream final : StartupStream}
    (require : config.channelBinding = .require)
    (ok : authenticateSasl primitives nonce config body stream = .ok () final) :
    ∃ password endPoint names serverFirst serverFinal sent incoming,
      config.password = some password ∧ stream.tlsServerEndPoint = some endPoint ∧
      mechanisms (body.length + 1) body = .ok names ∧ Sasl.scramSha256Plus.toList ∈ names ∧
      stream.incoming = .ok (.authenticationSaslContinue serverFirst) ::
        .ok (.authenticationSaslFinal serverFinal) :: incoming ∧
      final.incoming = incoming ∧ final.sent = stream.sent ++ sent ∧
      Exchanged primitives nonce password (.tlsServerEndPoint endPoint) Sasl.scramSha256Plus
        serverFirst serverFinal sent := by
  simp only [authenticateSasl, bind_ok, lift_ok] at ok
  obtain ⟨password, _, ⟨hasPassword, rfl⟩, names, _, ⟨listed, rfl⟩, _, _, got, rest⟩ := ok
  obtain ⟨⟨channelBinding, mechanism⟩, _, ⟨chosen, rfl⟩, _, _, ⟨passed, rfl⟩, ran⟩ := rest
  obtain ⟨rfl, rfl⟩ := EStateM.Result.ok.inj got
  obtain rfl := mechanism_require require passed
  obtain ⟨offered, endPoint, has, rfl⟩ := chooseMechanism_plus chosen
  obtain ⟨serverFirst, serverFinal, sent, incoming, arrived, left, wrote, exchange⟩ :=
    saslExchange_ok ran
  exact ⟨password, endPoint, names, serverFirst, serverFinal, sent, incoming,
    getPassword_ok hasPassword, has, parsed_ok listed, offered, arrived, left, wrote, exchange⟩

/-- When channel binding is required, authentication succeeds only with a
SCRAM-SHA-256-PLUS exchange, bound to the TLS session, whose final signature of
the server has been verified: the server sends these messages and no others. -/
theorem authenticate_require {primitives : Primitives} {nonce user : Text} {config : Config}
    {stream final : StartupStream} (require : config.channelBinding = .require)
    (ok : authenticate primitives nonce config user stream = .ok () final) :
    ∃ password endPoint body names serverFirst serverFinal sent,
      config.password = some password ∧ stream.tlsServerEndPoint = some endPoint ∧
      mechanisms (body.length + 1) body = .ok names ∧ Sasl.scramSha256Plus.toList ∈ names ∧
      stream.incoming.dropWhile isNegotiation =
        .ok (.authenticationSasl body) :: .ok (.authenticationSaslContinue serverFirst) ::
          .ok (.authenticationSaslFinal serverFinal) :: .ok .authenticationOk :: final.incoming ∧
      final.sent = stream.sent ++ sent ∧
      Exchanged primitives nonce password (.tlsServerEndPoint endPoint) Sasl.scramSha256Plus
        serverFirst serverFinal sent := by
  rw [authenticate, bind_ok] at ok
  obtain ⟨answer, between, answered, rest⟩ := ok
  rcases tryNext_ok answered with ⟨rfl, _⟩ | ⟨first, incoming, rfl, arrived, rfl⟩
  · exact absurd rest throw_ne_ok
  · dsimp only at arrived
    cases first with
    | authenticationOk =>
        rw [lift_ok, canSkipChannelBinding_require require] at rest
        cases rest.1
    | authenticationCleartextPassword | authenticationMd5Password
    | authenticationSha256Password | authenticationMd5Sha256Password
    | authenticationSm3Password =>
        obtain ⟨_, _, succeeded, _⟩ := bind_ok.mp rest
        exact absurd succeeded (passwordMethod_require require)
    | authenticationSasl body =>
        obtain ⟨_, _, ran, last⟩ := bind_ok.mp rest
        obtain ⟨password, endPoint, names, serverFirst, serverFinal, sent, _, hasPassword, has,
          listed, offered, exchangeArrived, left, wrote, exchange⟩ :=
            authenticateSasl_require require ran
        obtain ⟨_, okArrived, rfl⟩ := accepted_ok last
        refine ⟨password, endPoint, body, names, serverFirst, serverFinal, sent, hasPassword, has,
          listed, offered, ?_, wrote, exchange⟩
        dsimp only at exchangeArrived
        rw [arrived, exchangeArrived, ← left, okArrived]
    | _ => exact absurd rest throw_ne_ok

private def vectors : Primitives where
  hmacSha256 key message :=
    ([((Authentication.ascii "foobar",
          [126, 205, 200, 92, 28, 187, 83, 191, 136, 189, 88, 217, 0, 0, 0, 1]), vectorSalted),
      ((vectorSalted, Authentication.ascii "Client Key"), vectorClientKey),
      ((vectorSalted, Authentication.ascii "Server Key"), vectorServerKey),
      ((vectorStoredKey, Utf8.encode vectorAuthMessage), vectorClientSignature),
      ((vectorServerKey, Utf8.encode vectorAuthMessage), vectorServerSignature)].lookup
        (key, message)).getD []
  sha256 message := if message = vectorClientKey then vectorStoredKey else []
  md5 _ := []
  pbkdf2HmacSha1 _ _ _ := []
  saslprep text := some text
  base64Encode bytes :=
    if bytes = Authentication.ascii "p=tls-server-end-point,," ++ [1, 2, 3, 4] then
      "cD10bHMtc2VydmVyLWVuZC1wb2ludCwsAQIDBA==".toList
    else "jA59AFSPYuXLsbL0WgyB/fw4UzarQ0OasBuwWmGQmW0=".toList
  base64Decode text :=
    if text = "fs3IXBy7U7+IvVjZ".toList then
      .ok [126, 205, 200, 92, 28, 187, 83, 191, 136, 189, 88, 217]
    else if text = "iA2Xhr4mcFeIoQKvsummPsTzdc1M0wtkgn+wZWmXfdw=".toList then .ok vectorServerSignature
    else .error "Invalid symbol"
  hexDecode _ := .error "Odd number of digits"

private def vectorStream : StartupStream where
  incoming :=
    [.ok (.authenticationSasl (Authentication.ascii "SCRAM-SHA-256-PLUS" ++ [0, 0])),
      .ok (.authenticationSaslContinue (Utf8.encode vectorServerFirst)),
      .ok (.authenticationSaslFinal
        (Authentication.ascii "v=iA2Xhr4mcFeIoQKvsummPsTzdc1M0wtkgn+wZWmXfdw=")),
      .ok .authenticationOk]
  writeErrors := []
  sent := []
  tlsServerEndPoint := some [1, 2, 3, 4]

theorem authenticate_require_vectors :
    ∃ final, authenticate vectors "9IZ2O01zb9IgiIZ1WJ/zgpJB".toList
        { password := some (Authentication.ascii "foobar"), channelBinding := .require }
        "user".toList vectorStream = .ok () final ∧
      ∃ password endPoint serverFirst serverFinal, Exchanged vectors
        "9IZ2O01zb9IgiIZ1WJ/zgpJB".toList password (.tlsServerEndPoint endPoint)
        Sasl.scramSha256Plus serverFirst serverFinal final.sent := by
  have evaluated : (match authenticate vectors "9IZ2O01zb9IgiIZ1WJ/zgpJB".toList
      { password := some (Authentication.ascii "foobar"), channelBinding := .require }
      "user".toList vectorStream with
    | .ok _ _ => true
    | .error _ _ => false) = true := by
    decide +kernel
  split at evaluated
  · rename_i final ok
    obtain ⟨password, endPoint, _, _, serverFirst, serverFinal, sent, _, _, _, _, _, wrote,
      exchange⟩ := authenticate_require rfl ok
    refine ⟨final, ok, password, endPoint, serverFirst, serverFinal, ?_⟩
    rw [wrote]
    exact exchange
  · cases evaluated

end OpenGauss.Driver
