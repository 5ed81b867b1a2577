import OpenGauss.Gaussdb.ConfigProperties
import OpenGauss.Gaussdb.Resolution
import OpenGauss.Gaussdb.SslmodeProperties

/-! What a connection resolves to, and when its mode is the one that its
connection string gives. -/

set_option autoImplicit false

namespace OpenGauss.Gaussdb

open Driver Lib

section Resolution

variable {Chain Entry Error : Type} (keyring : Keyring Chain Entry Error) (chain : Chain)
  (conn : TimedConnection) (configPath : Option Text) (baseTimeout : Option TimeoutConfig)
  (service : Text)

/-- A password that a connection resolves with. -/
inductive PasswordOf : Option Text → Prop where
  | plaintext (plaintext : conn.isPlaintext = true) : PasswordOf conn.password
  | keychain {password : Text} (secret : conn.isPlaintext = false)
      (found : lookUpPassword keyring chain conn.keyringUsername service = .ok password) :
      PasswordOf (some password)

/-- The connection string of a connection, with a password. -/
inductive StringOf (password : Option Text) : Text → Prop where
  | url {url : Text} (given : conn.url = some url) : StringOf password url
  | fields (noUrl : conn.url = none) (given : conn.host.isSome = true ∨ conn.user.isSome = true) :
      StringOf password ([' '].intercalate (part "host" conn.host ++
        part "port" (conn.port.map decimal) ++ part "user" conn.user ++ part "password" password ++
        part "dbname" conn.dbname ++ part "sslmode" conn.sslmode))

theorem isSentinel_or_hasNoPassword (conn : NamedConnection) :
    (conn.isSentinel || conn.hasNoPassword) = !conn.isPlaintext := by
  rw [NamedConnection.isSentinel, NamedConnection.hasNoPassword, NamedConnection.isPlaintext]
  cases conn.password with
  | none => rfl
  | some password => by_cases same : password = keyringSentinel <;> simp [same]

variable {keyring chain conn configPath baseTimeout service}

theorem resolvePassword_iff {password : Option Text} :
    resolvePassword keyring chain conn.toNamedConnection service = .ok password ↔
      PasswordOf keyring chain conn service password := by
  rw [resolvePassword, isSentinel_or_hasNoPassword]
  cases kind : conn.isPlaintext with
  | true =>
      simp only [Bool.not_true, Bool.false_eq_true, if_false]
      constructor
      · intro same
        cases same
        exact .plaintext kind
      · intro own
        cases own with
        | plaintext _ => rfl
        | keychain secret _ => exact absurd (kind.symm.trans secret) (by decide)
  | false =>
      simp only [Bool.not_false, if_true]
      constructor
      · intro found
        cases looked : lookUpPassword keyring chain conn.keyringUsername service with
        | error error =>
            rw [looked] at found
            cases found
        | ok password =>
            rw [looked] at found
            cases found
            exact .keychain kind looked
      · intro own
        cases own with
        | plaintext plaintext => exact absurd (kind.symm.trans plaintext) (by decide)
        | keychain _ found =>
            rw [found]
            rfl

theorem toConnectionUrl_iff {password : Option Text} {text : Text} :
    { conn.toNamedConnection with password }.toConnectionUrl = some text ↔
      StringOf conn password text := by
  rw [NamedConnection.toConnectionUrl]
  cases given : conn.url with
  | some url =>
      constructor
      · intro same
        cases same
        exact .url given
      · intro string
        cases string with
        | url other => rw [given] at other; exact other
        | fields noUrl _ => exact absurd (given.symm.trans noUrl) (by simp)
  | none =>
      by_cases missing : (conn.host.isNone && conn.user.isNone) = true
      · simp only [missing, if_true, reduceCtorEq, false_iff]
        intro string
        simp only [Bool.and_eq_true, Option.isNone_iff_eq_none] at missing
        cases string with
        | url other => exact absurd (given.symm.trans other) (by simp)
        | fields _ either => simp [missing] at either
      · have either : conn.host.isSome = true ∨ conn.user.isSome = true := by
          cases host : conn.host with
          | some host => exact .inl rfl
          | none =>
              cases user : conn.user with
              | some user => exact .inr rfl
              | none => simp [host, user] at missing
        simp only [missing, Bool.false_eq_true, if_false, Option.some.injEq]
        constructor
        · intro same
          exact same ▸ .fields given either
        · intro string
          cases string with
          | url other => exact absurd (given.symm.trans other) (by simp)
          | fields _ _ => rfl

variable (conn configPath) in
/-- A connection, resolved to a connection string and timeouts. -/
def resolvedTo (text : Text) (timeoutConfig : TimeoutConfig) : Resolved where
  name := conn.name
  connectionUrl := text
  configPath
  plaintextPassword := if conn.isPlaintext then conn.password else none
  keyringUsername := conn.keyringUsername
  passwordSource := conn.passwordSource
  sslmode := sslmodeFromValue conn.sslmode
  timeoutConfig

theorem resolved_of_password {password : Option Text}
    (own : PasswordOf keyring chain conn service password) :
    Gaussdb.resolveSingleConnection keyring chain conn.toNamedConnection configPath service =
      match { conn.toNamedConnection with password }.toConnectionUrl with
      | none =>
          .error (.generic ("connection '".toList ++ conn.name ++
            "' must contain either `url` or at least `host`/`user` fields".toList))
      | some text =>
          .ok (resolvedTo conn configPath text .default).toResolvedConnection := by
  have mode : (conn.sslmode.elim SslMode.disable fun value => sslmodeFromValue (some value)) =
      sslmodeFromValue conn.sslmode := by
    cases conn.sslmode <;> rfl
  rw [Gaussdb.resolveSingleConnection, resolvePassword_iff.mpr own, mode]
  rfl

/-- What a connection resolves to. -/
theorem resolveSingleConnection_iff {resolved : Resolved} :
    conn.resolveSingleConnection keyring chain configPath baseTimeout service = .ok resolved ↔
      ∃ password text timeoutConfig, PasswordOf keyring chain conn service password ∧
        StringOf conn password text ∧ conn.timeoutConfig baseTimeout = .ok timeoutConfig ∧
        resolved = resolvedTo conn configPath text timeoutConfig := by
  constructor
  · intro resolves
    rw [TimedConnection.resolveSingleConnection] at resolves
    cases found : resolvePassword keyring chain conn.toNamedConnection service with
    | error error =>
        rw [Gaussdb.resolveSingleConnection, found] at resolves
        cases resolves
    | ok password =>
        have own := resolvePassword_iff.mp found
        rw [resolved_of_password own] at resolves
        cases string : { conn.toNamedConnection with password }.toConnectionUrl with
        | none =>
            rw [string] at resolves
            cases resolves
        | some text =>
            rw [string] at resolves
            cases timeouts : conn.timeoutConfig baseTimeout with
            | error error =>
                rw [timeouts] at resolves
                cases resolves
            | ok timeoutConfig =>
                rw [timeouts] at resolves
                cases resolves
                exact ⟨password, text, timeoutConfig, own, toConnectionUrl_iff.mp string, rfl, rfl⟩
  · intro resolves
    obtain ⟨password, text, timeoutConfig, own, string, timeouts, rfl⟩ := resolves
    rw [TimedConnection.resolveSingleConnection, resolved_of_password own,
      toConnectionUrl_iff.mpr string, timeouts]
    rfl

end Resolution

/-! ### The mode of the connection string -/

section Mode

variable {Chain Entry Error : Type} (keyring : Keyring Chain Entry Error)
  (percentDecode : UrlParser.PercentDecode) (chain : Chain) (conn : TimedConnection)
  (configPath : Option Text) (baseTimeout : Option TimeoutConfig) (service : Text)

/-- Where the driver reads a mode in the connection string, the resolved
connection has that mode; and TLS is used unless this mode turns it off. -/
def KeepsMode : Prop :=
  ∀ resolved config values,
    conn.resolveSingleConnection keyring chain configPath baseTimeout service = .ok resolved →
    Config.fromStr percentDecode resolved.connectionUrl = .ok config →
    AsksFor percentDecode resolved.connectionUrl values → values ≠ [] →
      resolved.sslmode = modeOf config.sslMode ∧
        (config.sslMode ≠ .disable → ∃ opened connector,
          connectAsync percentDecode resolved = .ok (opened, connector) ∧
            opened.sslMode = .require ∧ connector ≠ .noTls)

/-- The last `sslmode` parameter of the connection string gives the mode that the
`sslmode` field of the connection gives, without which TLS is off. -/
def FieldGivesMode : Prop :=
  ∀ password text values value mode, PasswordOf keyring chain conn service password →
    StringOf conn password text →
    (∃ timeoutConfig, conn.timeoutConfig baseTimeout = .ok timeoutConfig) →
    AsksFor percentDecode text values → values.getLast? = some value →
    sslModeOf? value = some mode → sslmodeFromValue conn.sslmode = modeOf mode

theorem connectAsync_tls {resolved : Resolved} {config : Config}
    (accepted : Config.fromStr percentDecode resolved.connectionUrl = .ok config)
    (tls : resolved.sslmode ≠ .disable) :
    ∃ opened connector, connectAsync percentDecode resolved = .ok (opened, connector) ∧
      opened.sslMode = .require ∧ connector ≠ .noTls := by
  rw [connectAsync, accepted]
  cases mode : resolved.sslmode with
  | disable => exact absurd mode tls
  | prefer => exact ⟨_, _, rfl, rfl, by decide⟩
  | require => exact ⟨_, _, rfl, rfl, by decide⟩
  | verifyCa => exact ⟨_, _, rfl, rfl, by decide⟩
  | verifyFull => exact ⟨_, _, rfl, rfl, by decide⟩

theorem keepsMode_iff :
    KeepsMode keyring percentDecode chain conn configPath baseTimeout service ↔
      FieldGivesMode keyring percentDecode chain conn baseTimeout service := by
  constructor
  · intro keeps password text values value mode own string timeouts asks final word
    obtain ⟨timeoutConfig, timeouts⟩ := timeouts
    obtain ⟨config, accepted, settles⟩ := asks.fromStr
    have given : values ≠ [] := by
      intro none
      rw [none] at final
      cases final
    rw [Settles, final] at settles
    have same : mode = config.sslMode := Option.some.inj (word.symm.trans settles)
    have resolves : conn.resolveSingleConnection keyring chain configPath baseTimeout service =
        .ok (resolvedTo conn configPath text timeoutConfig) :=
      resolveSingleConnection_iff.mpr ⟨password, text, timeoutConfig, own, string, timeouts, rfl⟩
    rw [same]
    exact (keeps _ config values resolves accepted asks given).1
  · intro gives resolved config values resolves accepted asks given
    obtain ⟨password, text, timeoutConfig, own, string, timeouts, rfl⟩ :=
      resolveSingleConnection_iff.mp resolves
    have settles := sslMode_last accepted asks
    have final := List.getLast?_eq_some_getLast given
    rw [Settles, final] at settles
    have same := gives password text values _ config.sslMode own string ⟨timeoutConfig, timeouts⟩
      asks final settles
    refine ⟨same, ?_⟩
    intro tls
    have moded : (resolvedTo conn configPath text timeoutConfig).sslmode =
        modeOf config.sslMode := same
    apply connectAsync_tls percentDecode accepted
    rw [moded]
    cases mode : config.sslMode with
    | disable => exact absurd mode tls
    | prefer => decide
    | require => decide

/-- A word of the driver is read as the same mode. -/
theorem sslmodeFromValue_word {text : Text} {mode : Driver.SslMode}
    (word : sslModeOf? text = some mode) : sslmodeFromValue (some text) = modeOf mode := by
  have each (name : String) (same : String.ofList text = name)
      (fits : ∀ mode, sslModeOf? name.toList = some mode →
        sslmodeFromValue (some name.toList) = modeOf mode) :
      sslmodeFromValue (some text) = modeOf mode := by
    subst same
    rw [String.toList_ofList] at fits
    exact fits mode word
  have known : String.ofList text ∈ ["disable", "prefer", "require"] := by
    have asks : ({ sslmode := some text } : NamedConnection).AsksFor mode := word
    exact word_of_asksFor asks text rfl
  simp only [List.mem_cons, List.not_mem_nil, or_false] at known
  rcases known with same | same | same
  · exact each _ same (by decide +kernel)
  · exact each _ same (by decide +kernel)
  · exact each _ same (by decide +kernel)

theorem sslmodes_field {key : String} (value : Option Text) :
    sslmodes (field key value) = if key.toList = "sslmode".toList then value.toList else [] := by
  cases value with
  | none =>
      rw [field, sslmodes]
      split <;> rfl
  | some value =>
      change List.filterMap _ [(key.toList, value)] = _
      rw [List.filterMap_cons]
      by_cases same : key.toList = "sslmode".toList
      · simp only [if_pos same]
        rfl
      · simp only [if_neg same]
        rfl

theorem sslmodes_parameters (conn : NamedConnection) :
    sslmodes conn.parameters = conn.sslmode.toList := by
  have append (first second : List (Text × Text)) :
      sslmodes (first ++ second) = sslmodes first ++ sslmodes second := List.filterMap_append
  simp only [NamedConnection.parameters, append, sslmodes_field]
  rfl

/-- A connection, with the password it resolves with. -/
def withPassword (password : Option Text) : NamedConnection :=
  { conn.toNamedConnection with password }

/-- Fields that are plain, without a url, give the mode of their string. -/
theorem fieldGivesMode_plain (noUrl : conn.url = none)
    (plain : ∀ password, PasswordOf keyring chain conn service password →
      (withPassword conn password).Plain) :
    FieldGivesMode keyring percentDecode chain conn baseTimeout service := by
  intro password text values value mode own string _ asks final word
  cases string with
  | url given => exact absurd (noUrl.symm.trans given) (by simp)
  | fields _ either =>
      have given : (withPassword conn password).host.isSome ||
          (withPassword conn password).user.isSome := by
        rw [Bool.or_eq_true]
        exact either
      have rendered := parts_render (withPassword conn password)
      have known := removeUrlPrefix_render given
      obtain ⟨read, -⟩ := (roundTrips_render percentDecode given).mpr (plain password own)
      rw [← rendered] at read known
      have last : values = conn.sslmode.toList := by
        cases asks with
        | @settings pairs stop config noUrl items stops applied =>
            have same : (withPassword conn password).parameters = pairs :=
              Except.ok.inj (read.symm.trans
                (Parser.parametersFrom_items (Nat.lt_succ_self _) items stops))
            exact same ▸ sslmodes_parameters (withPassword conn password)
        | url isUrl => exact absurd (known.symm.trans isUrl) (by simp)
      cases moded : conn.sslmode with
      | none =>
          rw [last, moded] at final
          cases final
      | some text =>
          rw [last, moded] at final
          cases final
          exact sslmodeFromValue_word word

/-- No keychain can be opened. -/
def noKeychain : Keyring Unit Empty Unit where
  entry _ _ := .error ()
  getPassword _ entry := entry.elim
  setPassword _ entry _ := entry.elim
  display _ := "no secure storage".toList
  entry_username := by
    intro service username other found opened
    cases opened
  get_set := by
    intro chain stored found
    exact found.elim
  get_set_other := by
    intro chain stored found
    exact found.elim

/-- A keychain that has one password for all entries, and stores no other. -/
def sealedKeychain (password : Text) : Keyring Unit (Text × Text) Unit where
  entry service username := .ok (service, username)
  getPassword _ _ := .ok password
  setPassword _ _ _ := .error ()
  display _ := "the secure storage is sealed".toList
  entry_username := by
    intro service username other found opened same
    obtain rfl := Except.ok.inj opened
    exact (Prod.mk.inj (Except.ok.inj same)).2.symm
  get_set := by
    intro chain stored found written set
    cases set
  get_set_other := by
    intro chain stored found other written set
    cases set

theorem lookUpPassword_sealed (password username service : Text) :
    lookUpPassword (sealedKeychain password) () username service = .ok password := rfl

/-- A connection whose only mode is in its string. -/
def stagingUrl : Text := "host=10.0.0.5 user=admin dbname=staging sslmode=require".toList

/-- The mode in the string of a connection is overridden by the missing field:
there is no TLS, where the same string in the environment demands it. -/
theorem not_keepsMode_url :
    ¬KeepsMode noKeychain PercentEncoding.decode ()
        { url := some stagingUrl, password := some "secret".toList } none none
        defaultKeyringService ∧
      (resolveEnvVarConnection stagingUrl).sslmode = .require := by
  refine ⟨?_, by decide +kernel⟩
  intro keeps
  have accepted : (Config.fromStr PercentEncoding.decode stagingUrl).map Config.sslMode =
      .ok .require := by decide +kernel
  cases parsed : Config.fromStr PercentEncoding.decode stagingUrl with
  | error error =>
      rw [parsed] at accepted
      cases accepted
  | ok config =>
      rw [parsed] at accepted
      have mode : config.sslMode = .require := Except.ok.inj accepted
      obtain ⟨values, asks⟩ := asksFor_of_fromStr parsed
      have given : values ≠ [] := by
        intro none
        subst none
        exact absurd (mode.symm.trans (sslMode_last parsed asks)) (by decide)
      have found := (keeps _ config values rfl parsed asks given).1
      rw [mode] at found
      exact absurd found (by decide +kernel)

end Mode

end OpenGauss.Gaussdb
