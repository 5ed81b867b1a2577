import OpenGauss.Lib.Base64
import OpenGauss.Protocol.SaslRuns
import OpenGauss.Protocol.ScramServer

/-! Client and server of a SCRAM exchange accept each other when the server's
verifier is the one of the client's password. -/

set_option autoImplicit false

namespace OpenGauss.Protocol.Sasl

open Authentication Password Lib

/-- What the packages document: HMAC-SHA-256 has an output of 32 bytes, and
base64 is decoded to what has been encoded and uses its alphabet. -/
structure Standard (primitives : Primitives) : Prop where
  length_hmac : ∀ key message, (primitives.hmacSha256 key message).length = 32
  decode_encode : ∀ bytes, primitives.base64Decode (primitives.base64Encode bytes) = .ok bytes
  alphabet : ∀ bytes, ∀ char ∈ primitives.base64Encode bytes, Parser.isBase64 char = true

variable {primitives : Primitives}

/-- A verifier and an exchange start from the same text. -/
theorem prepared_eq_normalize (password : Bytes) :
    prepared primitives password = normalize primitives password := by
  rw [prepared, normalize]
  cases Utf8.decode? password with
  | none => rfl
  | some text => rfl

theorem xor_cancel {first second : Bytes} (same : first.length = second.length) :
    xor (xor first second) second = first := by
  induction first generalizing second with
  | nil => rfl
  | cons byte first ih =>
      cases second with
      | nil => cases same
      | cons other second =>
          have rest := ih (Nat.succ.inj same)
          have byteSame : byte ^^^ other ^^^ other = byte := by
            rw [UInt8.xor_assoc, UInt8.xor_self, UInt8.xor_zero]
          simp only [Authentication.xor, List.zipWith_cons_cons, byteSame]
          exact congrArg _ rest

/-! ### Reading what has been written -/

theorem cut?_append {separator : Char} {first : List Char} (inside : separator ∉ first)
    (rest : List Char) : cut? separator (first ++ separator :: rest) = some (first, rest) := by
  rw [cut?, Text.splitTwo_append inside]
  rfl

theorem notMem_of_all {holds : Char → Bool} {text : List Char} {char : Char}
    (all : ∀ char ∈ text, holds char = true) (fails : holds char = false) : char ∉ text := by
  intro member
  rw [all char member] at fails
  cases fails

theorem isDigit_of_isDigit {char : Char} (digit : char.isDigit = true) :
    Parser.isDigit char = true := by
  rw [Char.isDigit, Bool.and_eq_true, decide_eq_true_eq, decide_eq_true_eq] at digit
  rw [Parser.isDigit, Bool.and_eq_true, decide_eq_true_eq, decide_eq_true_eq]
  exact digit

theorem digits (number : Nat) : ∀ char ∈ Nat.toDigits 10 number, Parser.isDigit char = true := by
  intro char member
  exact isDigit_of_isDigit (Nat.isDigit_of_mem_toDigits (by decide) (by decide) member)

theorem eat_append (s rest : List Char) (char : Char) : Parser.eat s char (char :: rest) = .ok rest :=
  if_pos rfl

theorem eof_nil (s : List Char) : Parser.eof s [] = .ok () := if_pos rfl

theorem field_append {s value rest : List Char} (name : Char) {allowed : Char → Bool}
    (inside : ∀ char ∈ value, allowed char = true)
    (ends : ∀ char ∈ rest.head?, allowed char = false) :
    Parser.field s name allowed (name :: '=' :: (value ++ rest)) = .ok (value, rest) := by
  have taken : rest.takeWhile allowed = [] ∧ rest.dropWhile allowed = rest := by
    cases rest with
    | nil => exact ⟨rfl, rfl⟩
    | cons char rest =>
        have stops : ¬allowed char = true := by
          rw [ends char rfl]
          exact Bool.false_ne_true
        exact ⟨List.takeWhile_cons_of_neg stops, List.dropWhile_cons_of_neg stops⟩
  simp only [Parser.field, eat_append, bind, Except.bind, pure, Except.pure,
    List.takeWhile_append_of_pos inside, List.dropWhile_append_of_pos inside, taken.1, taken.2,
    List.append_nil]

/-- A server's first message is read as it has been written. -/
theorem serverFirstMessage_text {nonce salt : List Char} {iterations : Nat}
    (printable : ∀ char ∈ nonce, Parser.isPrintable char = true)
    (base64 : ∀ char ∈ salt, Parser.isBase64 char = true) (fits : iterations < 2 ^ 32) :
    Parser.serverFirstMessage ("r=".toList ++ nonce ++ ",s=".toList ++ salt ++ ",i=".toList ++
      Nat.toDigits 10 iterations) = .ok ⟨nonce, salt, iterations⟩ := by
  have text : "r=".toList ++ nonce ++ ",s=".toList ++ salt ++ ",i=".toList ++
      Nat.toDigits 10 iterations = 'r' :: '=' :: (nonce ++ (',' :: 's' :: '=' :: (salt ++
        (',' :: 'i' :: '=' :: (Nat.toDigits 10 iterations ++ []))))) := by
    simp
  rw [text, Parser.serverFirstMessage]
  simp only [Parser.nonce, Parser.salt, Parser.iterationCount]
  have second : ∀ char ∈ (',' :: 's' :: '=' :: (salt ++
        (',' :: 'i' :: '=' :: (Nat.toDigits 10 iterations ++ [])))).head?,
      Parser.isPrintable char = false := by
    intro char found
    cases found
    rfl
  have third : ∀ char ∈ (',' :: 'i' :: '=' :: (Nat.toDigits 10 iterations ++ [])).head?,
      Parser.isBase64 char = false := by
    intro char found
    cases found
    rfl
  have fourth : ∀ char ∈ ([] : List Char).head?, Parser.isDigit char = false := by
    intro char found
    cases found
  have number : Parser.positNumber (Nat.toDigits 10 iterations) = .ok iterations := by
    rw [Parser.positNumber, Numeral.parseUnsigned_toDigits fits]
  simp only [field_append 'r' printable second, field_append 's' base64 third,
    field_append 'i' (digits iterations) fourth, eat_append, eof_nil, number, bind, Except.bind,
    pure, Except.pure]

/-- A server's final message is read as it has been written. -/
theorem serverFinalMessage_text {verifier : List Char}
    (base64 : ∀ char ∈ verifier, Parser.isBase64 char = true) :
    Parser.serverFinalMessage ("v=".toList ++ verifier) = .ok (.verifier verifier) := by
  have text : "v=".toList ++ verifier = 'v' :: '=' :: (verifier ++ []) := by simp
  have ends : ∀ char ∈ ([] : List Char).head?, Parser.isBase64 char = false := by
    intro char found
    cases found
  rw [text, Parser.serverFinalMessage, if_neg (by simp)]
  simp only [field_append 'v' base64 ends, eof_nil, bind, Except.bind, pure, Except.pure]

/-- A verifier is read as it has been written. -/
theorem Verifier.read?_text (standard : Standard primitives) (verifier : Verifier)
    (fits : verifier.iterations < 2 ^ 32)
    (base64 : ∀ char ∈ verifier.salt, Parser.isBase64 char = true) :
    read? primitives (scramSha256.toList ++ '$' :: (Nat.toDigits 10 verifier.iterations ++ ':' ::
      (verifier.salt ++ '$' :: (primitives.base64Encode verifier.storedKey ++ ':' ::
        primitives.base64Encode verifier.serverKey)))) = some verifier := by
  have scheme : '$' ∉ scramSha256.toList := by decide
  have number : ':' ∉ Nat.toDigits 10 verifier.iterations :=
    notMem_of_all (digits verifier.iterations) rfl
  have salt : '$' ∉ verifier.salt := notMem_of_all base64 rfl
  have storedKey : ':' ∉ primitives.base64Encode verifier.storedKey :=
    notMem_of_all (standard.alphabet verifier.storedKey) rfl
  simp only [read?, cut?_append scheme, cut?_append number, cut?_append salt,
    cut?_append storedKey, Option.bind_eq_bind, Option.bind_some, guard, if_true, Option.pure_def,
    Numeral.parseUnsigned_toDigits fits, standard.decode_encode, Except.toOption]

/-! ### The messages of an exchange -/

variable (password salt : Bytes) (iterations : UInt32) (channelBinding : ChannelBinding)
  (nonce extension : Nonce)

/-- The salted password, on either side. -/
def salted (primitives : Primitives) : Bytes :=
  hi primitives (normalize primitives password) salt iterations.toNat

/-- What the server reads in the verifier. -/
def verifierOf (primitives : Primitives) : Verifier where
  iterations := iterations.toNat
  salt := primitives.base64Encode salt
  storedKey := primitives.sha256
    (primitives.hmacSha256 (salted password salt iterations primitives) (ascii "Client Key"))
  serverKey :=
    primitives.hmacSha256 (salted password salt iterations primitives) (ascii "Server Key")

theorem read?_scramSha256Salt (standard : Standard primitives) :
    Verifier.read? primitives (scramSha256Salt primitives password salt iterations) =
      some (verifierOf password salt iterations primitives) := by
  have start : "SCRAM-SHA-256$".toList = scramSha256.toList ++ ['$'] := by decide +kernel
  have colon : ":".toList = [':'] := rfl
  have dollar : "$".toList = ['$'] := rfl
  rw [← Verifier.read?_text standard (verifierOf password salt iterations primitives)
    iterations.toNat_lt (standard.alphabet salt)]
  unfold scramSha256Salt
  simp only [prepared_eq_normalize, start, colon, dollar, List.append_assoc, List.cons_append,
    List.nil_append, verifierOf, salted]

/-- The exchange that the client's first message starts. -/
def exchangeOf (primitives : Primitives) : Exchange where
  verifier := verifierOf password salt iterations primitives
  gs2Header := channelBinding.gs2Header.toList
  bare := ScramSha256.clientFirstBare nonce.text
  nonce := nonce.text ++ extension.text

theorem start_clientFirst :
    Exchange.start (verifierOf password salt iterations primitives) extension
        (Utf8.encode (ScramSha256.new primitives password channelBinding nonce.text).message) =
      some (exchangeOf password salt iterations channelBinding nonce extension primitives) := by
  rw [Exchange.start, Utf8.decode?_encode]
  have user : ',' ∉ "n=".toList := by decide
  have flag : ∃ flag : List Char, ',' ∉ flag ∧
      channelBinding.gs2Header.toList = flag ++ ",,".toList := by
    cases channelBinding with
    | unrequested => exact ⟨"y".toList, by decide, rfl⟩
    | unsupported => exact ⟨"n".toList, by decide, rfl⟩
    | tlsServerEndPoint signature => 
        have header : "p=tls-server-end-point,,".toList =
            "p=tls-server-end-point".toList ++ ",,".toList := by decide +kernel
        exact ⟨"p=tls-server-end-point".toList, by decide, header⟩
  obtain ⟨flag, inside, header⟩ := flag
  have text : (ScramSha256.new primitives password channelBinding nonce.text).message =
      flag ++ ',' :: ([] ++ ',' :: ("n=".toList ++ ',' :: ("r=".toList ++ nonce.text))) := by
    rw [ScramSha256.new, header]
    simp
  simp only [text, cut?_append inside, cut?_append List.not_mem_nil, cut?_append user,
    Option.bind_eq_bind, Option.bind_some, guard, if_true, Option.pure_def]
  have named : Text.stripPrefix? "n=".toList "n=".toList = some [] := by decide
  rw [named, Text.stripPrefix?_append]
  simp only [Option.bind_some, exchangeOf, header, ScramSha256.clientFirstBare]
  rfl

/-- What both sides sign. -/
def signed (primitives : Primitives) : List Char :=
  authMessage primitives nonce.text channelBinding
    (exchangeOf password salt iterations channelBinding nonce extension primitives).serverFirst
    (nonce.text ++ extension.text)

/-- The client after the server's first message. -/
def clientOf (primitives : Primitives) : ScramSha256 where
  message := ScramSha256.withoutProof primitives channelBinding (nonce.text ++ extension.text) ++
    ",p=".toList ++ primitives.base64Encode
      (clientProof primitives (salted password salt iterations primitives)
        (signed password salt iterations channelBinding nonce extension primitives))
  state := .finish (salted password salt iterations primitives)
    (signed password salt iterations channelBinding nonce extension primitives)

theorem update_serverFirst (standard : Standard primitives) :
    (ScramSha256.new primitives password channelBinding nonce.text).update primitives
        (Utf8.encode (exchangeOf password salt iterations channelBinding nonce extension
          primitives).serverFirst) =
      (.ok (), clientOf password salt iterations channelBinding nonce extension primitives) := by
  have printable : ∀ char ∈ nonce.text ++ extension.text, Parser.isPrintable char = true := by
    intro char member
    rcases List.mem_append.mp member with own | other
    · exact nonce.printable char own
    · exact extension.printable char other
  have parsed : Parser.serverFirstMessage (exchangeOf password salt iterations channelBinding nonce
        extension primitives).serverFirst =
      .ok ⟨nonce.text ++ extension.text, primitives.base64Encode salt, iterations.toNat⟩ :=
    serverFirstMessage_text printable (standard.alphabet salt) iterations.toNat_lt
  have extended : nonce.text.isPrefixOf (nonce.text ++ extension.text) = true :=
    List.isPrefixOf_iff_prefix.mpr (List.prefix_append _ _)
  simp only [ScramSha256.update, ScramSha256.new, ScramSha256.updated, fromUtf8,
    Utf8.decode?_encode, parsed, extended, standard.decode_encode, bind, Except.bind, pure,
    Except.pure, Bool.not_true, Bool.false_eq_true, if_false]
  rfl

/-- The server takes the client's proof apart with the stored key alone. -/
theorem proof_accepted (standard : Standard primitives) (saltedPassword : Bytes)
    (authMessage : List Char) :
    primitives.sha256 (xor (clientProof primitives saltedPassword authMessage)
        (primitives.hmacSha256
          (primitives.sha256 (primitives.hmacSha256 saltedPassword (ascii "Client Key")))
          (Utf8.encode authMessage))) =
      primitives.sha256 (primitives.hmacSha256 saltedPassword (ascii "Client Key")) := by
  rw [clientProof, xor_cancel]
  rw [standard.length_hmac, standard.length_hmac]

theorem serverFinal_clientFinal (standard : Standard primitives) :
    (exchangeOf password salt iterations channelBinding nonce extension primitives).serverFinal
        primitives channelBinding.cbindData
        (Utf8.encode (clientOf password salt iterations channelBinding nonce extension
          primitives).message) =
      some ("v=".toList ++ primitives.base64Encode
        (serverSignature primitives (salted password salt iterations primitives)
          (signed password salt iterations channelBinding nonce extension primitives))) := by
  generalize bound : primitives.base64Encode
    (ascii channelBinding.gs2Header ++ channelBinding.cbindData) = bindingText
  have first : ',' ∉ "c=".toList ++ bindingText := by
    rw [List.mem_append]
    rintro (start | member)
    · exact absurd start (by decide)
    · exact notMem_of_all (bound ▸ standard.alphabet _) rfl member
  have second : ',' ∉ "r=".toList ++ (nonce.text ++ extension.text) := by
    rw [List.mem_append, List.mem_append]
    rintro (start | own | other)
    · exact absurd start (by decide)
    · exact notMem_of_all nonce.printable rfl own
    · exact notMem_of_all extension.printable rfl other
  have text : (clientOf password salt iterations channelBinding nonce extension
        primitives).message =
      ("c=".toList ++ bindingText) ++ ',' :: (("r=".toList ++ (nonce.text ++ extension.text)) ++
        ',' :: ("p=".toList ++ primitives.base64Encode
          (clientProof primitives (salted password salt iterations primitives)
            (signed password salt iterations channelBinding nonce extension primitives)))) := by
    have separator : ",r=".toList = ',' :: "r=".toList := rfl
    have proof : ",p=".toList = ',' :: "p=".toList := rfl
    simp only [clientOf, ScramSha256.withoutProof, bound, separator, proof, List.append_assoc,
      List.cons_append]
  have same : (exchangeOf password salt iterations channelBinding nonce extension primitives).bare ++
        ",".toList ++ (exchangeOf password salt iterations channelBinding nonce extension
          primitives).serverFirst ++ ",".toList ++ ("c=".toList ++ bindingText) ++ ",".toList ++
        ("r=".toList ++ (nonce.text ++ extension.text)) =
      signed password salt iterations channelBinding nonce extension primitives := by
    have separator : ",r=".toList = ",".toList ++ "r=".toList := rfl
    have bare : (exchangeOf password salt iterations channelBinding nonce extension
        primitives).bare = "n=,r=".toList ++ nonce.text := rfl
    unfold signed authMessage ScramSha256.withoutProof
    simp only [bound, separator, bare, List.append_assoc]
  have binds : "c=".toList ++ bindingText = "c=".toList ++ primitives.base64Encode
      (Utf8.encode (exchangeOf password salt iterations channelBinding nonce extension
        primitives).gs2Header ++ channelBinding.cbindData) := by
    rw [← bound]
    rfl
  have extended : "r=".toList ++ (nonce.text ++ extension.text) = "r=".toList ++
      (exchangeOf password salt iterations channelBinding nonce extension primitives).nonce := rfl
  rw [text]
  unfold Exchange.serverFinal
  simp only [Utf8.decode?_encode, cut?_append first, cut?_append second, Option.bind_eq_bind, Option.bind_some, guard,
    if_pos binds, if_pos extended, Text.stripPrefix?_append, standard.decode_encode,
    Except.toOption, same, Option.pure_def]
  have accepted : primitives.sha256 (xor (clientProof primitives
        (salted password salt iterations primitives)
        (signed password salt iterations channelBinding nonce extension primitives))
      (primitives.hmacSha256
        (exchangeOf password salt iterations channelBinding nonce extension
          primitives).verifier.storedKey
        (Utf8.encode (signed password salt iterations channelBinding nonce extension
          primitives)))) =
      (exchangeOf password salt iterations channelBinding nonce extension
        primitives).verifier.storedKey :=
    proof_accepted standard _ _
  rw [if_pos accepted]
  rfl

theorem verify_serverFinal (standard : Standard primitives) (saltedPassword : Bytes)
    (authMessage : List Char) :
    ScramSha256.verify primitives saltedPassword authMessage
      (Utf8.encode ("v=".toList ++ primitives.base64Encode
        (serverSignature primitives saltedPassword authMessage))) = .ok () := by
  rw [ScramSha256.verify, fromUtf8, Utf8.decode?_encode]
  simp only [serverFinalMessage_text (standard.alphabet _), standard.decode_encode, bind,
    Except.bind]
  exact if_pos rfl

/-- A server that keeps the verifier of a password accepts the client that is
given this password, and the client accepts the server. This is so for every
salt, number of iterations, pair of nonces and channel binding, whether the
password can be prepared or not. -/
theorem exchange_completes (standard : Standard primitives) :
    ∃ verifier exchange client serverFinal,
      Verifier.read? primitives (scramSha256Salt primitives password salt iterations) =
        some verifier ∧
      Exchange.start verifier extension
        (Utf8.encode (ScramSha256.new primitives password channelBinding nonce.text).message) =
          some exchange ∧
      (ScramSha256.new primitives password channelBinding nonce.text).update primitives
        (Utf8.encode exchange.serverFirst) = (.ok (), client) ∧
      exchange.serverFinal primitives channelBinding.cbindData (Utf8.encode client.message) =
        some serverFinal ∧
      (client.finish primitives (Utf8.encode serverFinal)).1 = .ok () := by
  refine ⟨verifierOf password salt iterations primitives,
    exchangeOf password salt iterations channelBinding nonce extension primitives,
    clientOf password salt iterations channelBinding nonce extension primitives, _,
    read?_scramSha256Salt password salt iterations standard,
    start_clientFirst password salt iterations channelBinding nonce extension,
    update_serverFirst password salt iterations channelBinding nonce extension standard,
    serverFinal_clientFinal password salt iterations channelBinding nonce extension standard, ?_⟩
  exact verify_serverFinal standard _ _

/-- Base64, and the hash functions on what one exchange asks of them. -/
private def serverVectors : Primitives where
  hmacSha256 key message :=
    if key = ascii "foobar" ∧
        message = [126, 205, 200, 92, 28, 187, 83, 191, 136, 189, 88, 217, 0, 0, 0, 1] then
      vectorSalted
    else if key = vectorSalted ∧ message = ascii "Client Key" then vectorClientKey
    else if key = vectorSalted ∧ message = ascii "Server Key" then vectorServerKey
    else if key = vectorStoredKey ∧ message = Utf8.encode vectorAuthMessage then
      vectorClientSignature
    else if key = vectorServerKey ∧ message = Utf8.encode vectorAuthMessage then
      vectorServerSignature
    else List.replicate 32 0
  sha256 message := if message = vectorClientKey then vectorStoredKey else List.replicate 32 0
  md5 _ := []
  pbkdf2HmacSha1 _ _ _ := []
  saslprep text := some text
  base64Encode := Base64.encode
  base64Decode text :=
    match Base64.decode? text with
    | some bytes => .ok bytes
    | none => .error "Invalid symbol"
  hexDecode _ := .error "Odd number of digits"

private theorem serverVectors_standard : Standard serverVectors where
  length_hmac := by
    intro key message
    simp only [serverVectors]
    repeat' split
    all_goals decide
  decode_encode := by
    intro bytes
    simp only [serverVectors, Base64.decode?_encode]
  alphabet := by
    intro bytes char member
    rcases Base64.isSymbol_of_mem bytes char member with rfl | symbol
    · decide
    · have each : ∀ char ∈ Base64.alphabet, Parser.isBase64 char = true := by decide +kernel
      exact each char symbol

private def clientNonce : Nonce := ⟨"9IZ2O01zb9IgiIZ1WJ/zgpJB".toList, by decide +kernel⟩

private def serverNonce : Nonce := ⟨"jx/oIRLs02gGSHcw1KEty3eY".toList, by decide +kernel⟩

private def vectorSalt : Bytes := [126, 205, 200, 92, 28, 187, 83, 191, 136, 189, 88, 217]

theorem exchange_completes_vectors :
    ∃ (verifier : Verifier) (exchange : Exchange) (client : ScramSha256)
        (serverFinal : List Char),
      Verifier.read? serverVectors (scramSha256Salt serverVectors (ascii "foobar") vectorSalt 1) =
        some verifier ∧
      Exchange.start verifier serverNonce
        (Utf8.encode (ScramSha256.new serverVectors (ascii "foobar")
          (.tlsServerEndPoint [1, 2, 3, 4]) clientNonce.text).message) = some exchange ∧
      (ScramSha256.new serverVectors (ascii "foobar") (.tlsServerEndPoint [1, 2, 3, 4])
        clientNonce.text).update serverVectors (Utf8.encode exchange.serverFirst) =
          (.ok (), client) ∧
      exchange.serverFinal serverVectors
        (ChannelBinding.tlsServerEndPoint [1, 2, 3, 4]).cbindData
        (Utf8.encode client.message) = some serverFinal ∧
      (client.finish serverVectors (Utf8.encode serverFinal)).1 = .ok () :=
  exchange_completes (ascii "foobar") vectorSalt 1 (.tlsServerEndPoint [1, 2, 3, 4]) clientNonce
    serverNonce serverVectors_standard

end OpenGauss.Protocol.Sasl
