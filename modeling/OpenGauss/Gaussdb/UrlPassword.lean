import OpenGauss.Driver.ConfigPassword
import OpenGauss.Gaussdb.ResolutionProperties

/-! What becomes of a password in the keychain where the connection has a url. -/

set_option autoImplicit false

namespace OpenGauss.Gaussdb

open Driver Lib

section UrlPassword

variable {Chain Entry Error : Type} (keyring : Keyring Chain Entry Error)
  (percentDecode : UrlParser.PercentDecode) (chain : Chain) (conn : TimedConnection)
  (configPath : Option Text) (baseTimeout : Option TimeoutConfig) (service : Text)

/-- Where a connection has a url, a password that is read from the keychain is the
one of the driver, and the sentinel is never the one. -/
def SendsKeychain : Prop :=
  ∀ url resolved, conn.url = some url →
    conn.resolveSingleConnection keyring chain configPath baseTimeout service = .ok resolved →
      (∀ password, resolved.passwordSource = .keyring ∨ conn.isPlaintext = false →
        lookUpPassword keyring chain conn.keyringUsername service = .ok password →
          ∃ config, Config.fromStr percentDecode resolved.connectionUrl = .ok config ∧
            config.password = some (Utf8.encode password)) ∧
      ∀ config, Config.fromStr percentDecode resolved.connectionUrl = .ok config →
        config.password ≠ some (Utf8.encode keyringSentinel)

/-- If the connection resolves, the sentinel is not the password that stands in
its url; the one that the keychain has is, unless the connection has its own. -/
def UrlHasPassword : Prop :=
  ∀ url password, conn.url = some url →
    (∃ timeoutConfig, conn.timeoutConfig baseTimeout = .ok timeoutConfig) →
    PasswordOf keyring chain conn service password →
      (conn.isPlaintext = false →
        GivesPassword percentDecode url (password.map Utf8.encode)) ∧
      ¬GivesPassword percentDecode url (some (Utf8.encode keyringSentinel))

variable {keyring percentDecode chain conn configPath baseTimeout service}

theorem secret_of_passwordSource (source : conn.passwordSource = .keyring) :
    conn.isPlaintext = false := by
  rw [NamedConnection.passwordSource] at source
  split at source
  · cases source
  · rename_i secret
    exact Bool.eq_false_iff.mpr secret

/-- A connection with a url resolves to it, whatever the password is. -/
theorem resolve_url {url : Text} {resolved : Resolved} (given : conn.url = some url)
    (resolves : conn.resolveSingleConnection keyring chain configPath baseTimeout service =
      .ok resolved) :
    ∃ password timeoutConfig, PasswordOf keyring chain conn service password ∧
      conn.timeoutConfig baseTimeout = .ok timeoutConfig ∧
      resolved = resolvedTo conn configPath url timeoutConfig := by
  obtain ⟨password, text, timeoutConfig, own, string, timeouts, rfl⟩ :=
    resolveSingleConnection_iff.mp resolves
  cases string with
  | url other =>
      obtain rfl := Option.some.inj (given.symm.trans other)
      exact ⟨password, timeoutConfig, own, timeouts, rfl⟩
  | fields noUrl _ => exact absurd (given.symm.trans noUrl) (by simp)

theorem PasswordOf.of_secret {password : Option Text}
    (own : PasswordOf keyring chain conn service password) (secret : conn.isPlaintext = false) :
    ∃ found, password = some found ∧
      lookUpPassword keyring chain conn.keyringUsername service = .ok found := by
  cases own with
  | plaintext plaintext => exact absurd (plaintext.symm.trans secret) (by decide)
  | keychain _ found => exact ⟨_, rfl, found⟩

theorem urlHasPassword_of_sends
    (sends : SendsKeychain keyring percentDecode chain conn configPath baseTimeout service) :
    UrlHasPassword keyring percentDecode chain conn baseTimeout service := by
  intro url password given timeouts own
  obtain ⟨timeoutConfig, timeouts⟩ := timeouts
  have resolves : conn.resolveSingleConnection keyring chain configPath baseTimeout service =
      .ok (resolvedTo conn configPath url timeoutConfig) :=
    resolveSingleConnection_iff.mpr
      ⟨password, url, timeoutConfig, own, .url given, timeouts, rfl⟩
  obtain ⟨reaches, never⟩ := sends url _ given resolves
  constructor
  · intro secret
    obtain ⟨found, rfl, looked⟩ := own.of_secret secret
    exact givesPassword_iff.mpr (reaches found (.inr secret) looked)
  · intro sentinel
    obtain ⟨config, accepted, same⟩ := givesPassword_iff.mp sentinel
    exact never config accepted same

theorem sends_of_urlHasPassword
    (has : UrlHasPassword keyring percentDecode chain conn baseTimeout service) :
    SendsKeychain keyring percentDecode chain conn configPath baseTimeout service := by
  intro url resolved given resolves
  obtain ⟨password, timeoutConfig, own, timeouts, rfl⟩ := resolve_url given resolves
  obtain ⟨gives, never⟩ := has url password given ⟨timeoutConfig, timeouts⟩ own
  constructor
  · intro found source looked
    have secret : conn.isPlaintext = false := source.elim secret_of_passwordSource id
    obtain ⟨other, rfl, same⟩ := own.of_secret secret
    obtain rfl := Except.ok.inj (looked.symm.trans same)
    exact givesPassword_iff.mp (gives secret)
  · intro config accepted same
    exact never (givesPassword_iff.mpr ⟨config, accepted, same⟩)

theorem givesPassword_unique {s : Text} {first second : Option Protocol.Bytes}
    (gives : GivesPassword percentDecode s first) (again : GivesPassword percentDecode s second) :
    first = second := by
  obtain ⟨config, accepted, rfl⟩ := givesPassword_iff.mp gives
  obtain ⟨other, same, rfl⟩ := givesPassword_iff.mp again
  rw [Except.ok.inj (accepted.symm.trans same)]

/-- With every keychain this holds only where none is read: the connection has a
password of its own, and the sentinel does not stand in the url. -/
theorem sendsEveryKeychain_iff {url : Text} (given : conn.url = some url)
    {timeoutConfig : TimeoutConfig} (timeouts : conn.timeoutConfig baseTimeout = .ok timeoutConfig) :
    (∀ (Chain Entry Error : Type) (keyring : Keyring Chain Entry Error) (chain : Chain),
      SendsKeychain keyring percentDecode chain conn configPath baseTimeout service) ↔
    conn.isPlaintext = true ∧
      ¬GivesPassword percentDecode url (some (Utf8.encode keyringSentinel)) := by
  constructor
  · intro sends
    have has (password : Text) :=
      urlHasPassword_of_sends (sends _ _ _ (sealedKeychain password) ())
    cases kind : conn.isPlaintext with
    | true => exact ⟨rfl, (has [] url _ given ⟨_, timeouts⟩ (.plaintext kind)).2⟩
    | false =>
        have gives (password : Text) : GivesPassword percentDecode url
            (some (Utf8.encode password)) :=
          (has password url _ given ⟨_, timeouts⟩
            (.keychain kind (lookUpPassword_sealed password _ _))).1 kind
        cases givesPassword_unique (gives []) (gives ['x'])
  · intro own Chain Entry Error keyring chain
    apply sends_of_urlHasPassword
    intro other password other_given _ _
    obtain rfl := Option.some.inj (given.symm.trans other_given)
    exact ⟨fun secret => absurd (own.1.symm.trans secret) (by decide), own.2⟩

variable (keyring percentDecode chain conn configPath baseTimeout service)

theorem sendsKeychain_iff :
    SendsKeychain keyring percentDecode chain conn configPath baseTimeout service ↔
      UrlHasPassword keyring percentDecode chain conn baseTimeout service := by
  constructor
  · exact urlHasPassword_of_sends
  · exact sends_of_urlHasPassword

/-- A url with the sentinel. -/
def keyringUrl : Text :=
  "host=10.0.0.5 user=admin password=keyring dbname=staging sslmode=require".toList

/-- The sentinel in a url is sent as it is. -/
theorem not_sendsKeychain :
    ¬SendsKeychain (sealedKeychain "s3cret".toList) PercentEncoding.decode ()
      { name := "staging".toList, url := some keyringUrl } none none defaultKeyringService := by
  intro sends
  obtain ⟨-, never⟩ := sends keyringUrl _ rfl rfl
  have sent : (Config.fromStr PercentEncoding.decode keyringUrl).map Config.password =
      .ok (some (Utf8.encode keyringSentinel)) := by decide +kernel
  cases accepted : Config.fromStr PercentEncoding.decode keyringUrl with
  | error error =>
      rw [accepted] at sent
      cases sent
  | ok config =>
      rw [accepted] at sent
      exact never config accepted (Except.ok.inj sent)

end UrlPassword

end OpenGauss.Gaussdb
