import OpenGauss.Gaussdb.ResolutionProperties
import OpenGauss.Mcp.LazyResolution

/-! When a connection that is resolved at once and one that is resolved when it
is used come to the same. -/

set_option autoImplicit false

namespace OpenGauss.Mcp

open Driver Gaussdb

/-- A list with one more text in it makes a longer text. -/
theorem length_intercalate_insert (separator inserted : Text) (before after : List Text) :
    (separator.intercalate (before ++ after)).length + inserted.length ≤
      (separator.intercalate (before ++ inserted :: after)).length := by
  induction before with
  | nil =>
      cases after with
      | nil => simp [List.intercalate]
      | cons piece after =>
          rw [List.nil_append, List.nil_append, List.intercalate_cons_cons, List.length_append,
            List.length_append]
          omega
  | cons piece before ih =>
      cases before with
      | nil =>
          cases after with
          | nil =>
              rw [List.append_nil, List.singleton_append, List.intercalate_cons_cons,
                List.length_append, List.length_append]
              simp [List.intercalate]
          | cons next after =>
              rw [List.singleton_append, List.singleton_append, List.intercalate_cons_cons,
                List.intercalate_cons_cons, List.intercalate_cons_cons]
              simp only [List.length_append]
              omega
      | cons second before =>
          simp only [List.cons_append] at ih
          simp only [List.cons_append, List.intercalate_cons_cons, List.length_append] at ih ⊢
          omega

section Entries

variable {Chain Entry Error : Type} (keyring : Keyring Chain Entry Error) (chain : Chain)
  (conn : TimedConnection) (configPath : Option Text) (baseTimeout : Option TimeoutConfig)

/-- What `resolve_single_connection` comes to: a connection string and timeouts. -/
def eager : Option (Text × TimeoutConfig) :=
  (conn.resolveSingleConnection keyring chain configPath baseTimeout keyringService).toOption.map
    fun resolved => (resolved.connectionUrl, resolved.timeoutConfig)

/-- What an entry comes to when it is used. -/
def LazyConnectionEntry.use (chain : Chain) :
    LazyConnectionEntry Chain → Option (Text × TimeoutConfig)
  | .ready resolved => some (resolved.connectionUrl, resolved.timeoutConfig)
  | .pending _ resolver timeoutConfig =>
      (resolver chain).toOption.map fun url => (url, timeoutConfig)

/-- What the entry of a connection comes to. -/
def lazy : Option (Text × TimeoutConfig) :=
  (buildLazyResolver keyring chain conn configPath baseTimeout).toOption.bind
    (LazyConnectionEntry.use chain)

/-- The password of a user, under a service of the keychain. -/
def stored? (service username : Text) : Option Text :=
  (keyring.entry service username).toOption.bind fun entry =>
    (keyring.getPassword chain entry).toOption

/-- The connections that resolve alike: the timeouts are not valid, or there is a
url or a plaintext password, or there is nothing to connect to, or the password
is to be found in the keychain, where the service opens if the legacy service
has a password. -/
inductive ResolvesAlike : Prop where
  | invalidTimeout {error : TimeoutError}
      (invalid : conn.timeoutConfig baseTimeout = .error error) : ResolvesAlike
  | url {url : Text} (given : conn.url = some url) : ResolvesAlike
  | plaintext (plaintext : conn.isPlaintext = true) : ResolvesAlike
  | nothing (noUrl : conn.url = none) (noHost : conn.host = none) (noUser : conn.user = none) :
      ResolvesAlike
  | keychain (sentinel : conn.isSentinel = true)
      (opens : (∃ entry, keyring.entry keyringService conn.keyringUsername = .ok entry) ∨
        stored? keyring chain legacyKeyringService conn.keyringUsername = none) : ResolvesAlike

variable {keyring chain conn configPath baseTimeout}

/-! ### The keychain -/

theorem readKeyringPassword_toOption (username service : Text) :
    (Gaussdb.readKeyringPassword keyring chain username service).toOption =
      stored? keyring chain service username := by
  rw [Gaussdb.readKeyringPassword, stored?]
  cases keyring.entry service username with
  | error source => rfl
  | ok entry =>
      dsimp only [Except.toOption, Option.bind_some]
      cases keyring.getPassword chain entry <;> rfl

theorem lookUpPassword_toOption (username : Text) :
    (lookUpPassword keyring chain username keyringService).toOption =
      (stored? keyring chain keyringService username).or
        (stored? keyring chain legacyKeyringService username) := by
  have legacy := @readKeyringPassword_toOption _ _ _ keyring chain username legacyKeyringService
  rw [lookUpPassword, ← readKeyringPassword_toOption, ← legacy]
  cases Gaussdb.readKeyringPassword keyring chain username keyringService with
  | ok password => rfl
  | error error => rfl

/-- The server looks for the legacy entry only where the other one opens. -/
theorem pendingPassword_toOption (username : Text) :
    (readKeyringPassword keyring chain username).toOption =
      (keyring.entry keyringService username).toOption.bind fun _ =>
        (stored? keyring chain keyringService username).or
          (stored? keyring chain legacyKeyringService username) := by
  rw [readKeyringPassword]
  cases opened : keyring.entry keyringService username with
  | error error => rfl
  | ok entry =>
      simp only [stored?, opened, Except.toOption, Option.bind_some]
      cases keyring.getPassword chain entry with
      | ok password => rfl
      | error primary =>
          cases keyring.entry legacyKeyringService username with
          | error error => rfl
          | ok legacy =>
              dsimp only [Option.bind_some, Option.none_or]
              cases keyring.getPassword chain legacy <;> rfl

/-- The two ways to read the keychain differ only where the entry of the
service cannot be opened. -/
theorem readings_agree_iff (username : Text) :
    (lookUpPassword keyring chain username keyringService).toOption =
        (readKeyringPassword keyring chain username).toOption ↔
      (∃ entry, keyring.entry keyringService username = .ok entry) ∨
        stored? keyring chain legacyKeyringService username = none := by
  rw [lookUpPassword_toOption, pendingPassword_toOption]
  cases opened : keyring.entry keyringService username with
  | error error =>
      have nothing : stored? keyring chain keyringService username = none := by
        rw [stored?, opened]
        rfl
      rw [nothing, Option.none_or]
      simp [Except.toOption]
  | ok entry => simp [Except.toOption]

/-! ### A connection without url and without plaintext password -/

/-- The string of a connection that is made from its fields. -/
def fieldsText (conn : NamedConnection) (password : Option Text) : Text :=
  [' '].intercalate (part "host" conn.host ++ part "port" (conn.port.map decimal) ++
    part "user" conn.user ++ part "password" password ++ part "dbname" conn.dbname ++
    part "sslmode" conn.sslmode)

/-- The password is one more part of the string. -/
theorem fieldsText_password (conn : NamedConnection) (password : Text) :
    fieldsText conn (some password) ≠ fieldsText conn none := by
  intro same
  have given : part "password" (some password) = ["password".toList ++ '=' :: password] := rfl
  have missing : part "password" none = [] := rfl
  rw [fieldsText, fieldsText, given, missing, List.append_nil] at same
  have longer := length_intercalate_insert [' '] ("password".toList ++ '=' :: password)
    (part "host" conn.host ++ part "port" (conn.port.map decimal) ++ part "user" conn.user)
    (part "dbname" conn.dbname ++ part "sslmode" conn.sslmode)
  have lengths := congrArg List.length same
  simp only [List.append_assoc, List.cons_append, List.nil_append]
    at lengths longer
  rw [lengths, List.length_append, List.length_cons] at longer
  omega

/-- What is resolved only when it is used. -/
structure Pending (conn : NamedConnection) : Prop where
  noUrl : conn.url = none
  secret : conn.isPlaintext = false
  given : conn.host.isSome = true ∨ conn.user.isSome = true

theorem Pending.notReady {connection : NamedConnection} (pending : Pending connection) :
    (connection.isPlaintext || connection.url.isSome) = false := by
  rw [pending.secret, pending.noUrl]
  rfl

theorem Pending.reachable {connection : NamedConnection} (pending : Pending connection) :
    (connection.host.isNone && connection.user.isNone) = false := by
  rcases pending.given with host | user
  · rw [Option.isNone_eq_false_iff.mpr host]
    rfl
  · rw [Option.isNone_eq_false_iff.mpr user, Bool.and_false]

/-- The resolver of a pending connection, with this keychain to read. -/
theorem lazyResolver_pending {connection : NamedConnection} (pending : Pending connection) :
    lazyResolver (readKeyringPassword keyring chain) connection =
      some (pendingResolver keyring connection chain) := by
  have notReady := pending.notReady
  rw [NamedConnection.isPlaintext] at notReady
  rw [lazyResolver, notReady, pending.reachable, pendingResolver]
  by_cases sentinel : connection.password = some keyringSentinel
  · have known : connection.isSentinel = true := decide_eq_true sentinel
    simp only [sentinel, known, if_true]
    rfl
  · have known : connection.isSentinel = false := decide_eq_false sentinel
    simp only [sentinel, known, if_false]
    rfl

theorem eager_pending {timeoutConfig : TimeoutConfig} (pending : Pending conn.toNamedConnection)
    (timeouts : conn.timeoutConfig baseTimeout = .ok timeoutConfig) :
    eager keyring chain conn configPath baseTimeout =
      (lookUpPassword keyring chain conn.keyringUsername keyringService).toOption.map
        fun password => (fieldsText conn.toNamedConnection (some password), timeoutConfig) := by
  rw [eager, TimedConnection.resolveSingleConnection]
  cases found : lookUpPassword keyring chain conn.keyringUsername keyringService with
  | error error =>
      have failed : resolvePassword keyring chain conn.toNamedConnection keyringService =
          .error error := by
        rw [resolvePassword, isSentinel_or_hasNoPassword, pending.secret, found]
        rfl
      rw [Gaussdb.resolveSingleConnection, failed]
      rfl
  | ok password =>
      have own : PasswordOf keyring chain conn keyringService (some password) :=
        .keychain pending.secret found
      rw [resolved_of_password own, toConnectionUrl_iff.mpr (.fields pending.noUrl pending.given),
        timeouts]
      rfl

theorem lazy_pending {timeoutConfig : TimeoutConfig} (pending : Pending conn.toNamedConnection)
    (timeouts : conn.timeoutConfig baseTimeout = .ok timeoutConfig) :
    lazy keyring chain conn configPath baseTimeout =
      (pendingResolver keyring conn.toNamedConnection chain).toOption.map
        fun url => (url, timeoutConfig) := by
  rw [lazy, buildLazyResolver, pending.notReady, pending.reachable, timeouts]
  rfl

theorem lazy_ready (ready : (conn.isPlaintext || conn.url.isSome) = true) :
    lazy keyring chain conn configPath baseTimeout =
      eager keyring chain conn configPath baseTimeout := by
  rw [lazy, buildLazyResolver, if_pos ready, eager]
  cases conn.resolveSingleConnection keyring chain configPath baseTimeout keyringService <;> rfl

theorem eager_eq_none {connection : TimedConnection}
    (fails : ∀ password text timeoutConfig,
      PasswordOf keyring chain connection keyringService password →
      StringOf connection password text →
      connection.timeoutConfig baseTimeout ≠ .ok timeoutConfig) :
    eager keyring chain connection configPath baseTimeout = none := by
  rw [eager]
  cases resolves : connection.resolveSingleConnection keyring chain configPath baseTimeout
      keyringService with
  | error error => rfl
  | ok resolved =>
      obtain ⟨password, text, timeoutConfig, own, string, timeouts, -⟩ :=
        resolveSingleConnection_iff.mp resolves
      exact absurd timeouts (fails password text timeoutConfig own string)

/-- A pending connection with the sentinel comes to what the keychain has. -/
theorem pendingResolver_sentinel {connection : NamedConnection}
    (sentinel : connection.isSentinel = true) :
    (pendingResolver keyring connection chain).toOption =
      (readKeyringPassword keyring chain connection.keyringUsername).toOption.map fun password =>
        fieldsText connection (some password) := by
  rw [pendingResolver, if_pos sentinel]
  cases readKeyringPassword keyring chain connection.keyringUsername <;> rfl

theorem pendingResolver_none {connection : NamedConnection}
    (sentinel : connection.isSentinel = false) :
    pendingResolver keyring connection chain = .ok (fieldsText connection none) := by
  rw [pendingResolver, sentinel]
  rfl

/-- A connection is resolved at once, or fails for its timeouts or for want of a
host, or is pending. -/
theorem kinds (connection : TimedConnection) (baseTimeout : Option TimeoutConfig) :
    (connection.isPlaintext || connection.url.isSome) = true ∨
      (∃ error, connection.timeoutConfig baseTimeout = .error error) ∨
      (connection.url = none ∧ connection.host = none ∧ connection.user = none) ∨
      Pending connection.toNamedConnection ∧
        ∃ timeoutConfig, connection.timeoutConfig baseTimeout = .ok timeoutConfig := by
  by_cases ready : (connection.isPlaintext || connection.url.isSome) = true
  · exact .inl ready
  have notReady := Bool.or_eq_false_iff.mp (Bool.eq_false_iff.mpr ready)
  have noUrl : connection.url = none := 
    Option.isNone_iff_eq_none.mp (Option.isSome_eq_false_iff.mp notReady.2)
  cases timeouts : connection.timeoutConfig baseTimeout with
  | error error => exact .inr (.inl ⟨error, rfl⟩)
  | ok timeoutConfig =>
      cases host : connection.host with
      | some host =>
          exact .inr (.inr (.inr ⟨⟨noUrl, notReady.1, .inl (by rw [host]; rfl)⟩, _, rfl⟩))
      | none =>
          cases user : connection.user with
          | some user =>
              exact .inr (.inr (.inr ⟨⟨noUrl, notReady.1, .inr (by rw [user]; rfl)⟩, _, rfl⟩))
          | none => exact .inr (.inr (.inl ⟨noUrl, rfl, rfl⟩))

theorem lazy_invalidTimeout {error : TimeoutError}
    (invalid : conn.timeoutConfig baseTimeout = .error error) :
    eager keyring chain conn configPath baseTimeout =
      lazy keyring chain conn configPath baseTimeout := by
  by_cases ready : (conn.isPlaintext || conn.url.isSome) = true
  · exact (lazy_ready ready).symm
  have failed : eager keyring chain conn configPath baseTimeout = none := by
    apply eager_eq_none
    intro password text timeoutConfig own string timeouts
    rw [invalid] at timeouts
    cases timeouts
  rw [failed, lazy, buildLazyResolver, if_neg ready, invalid]
  split <;> rfl

theorem lazy_nothing (noUrl : conn.url = none) (noHost : conn.host = none)
    (noUser : conn.user = none) :
    eager keyring chain conn configPath baseTimeout =
      lazy keyring chain conn configPath baseTimeout := by
  by_cases ready : (conn.isPlaintext || conn.url.isSome) = true
  · exact (lazy_ready ready).symm
  have failed : eager keyring chain conn configPath baseTimeout = none := by
    apply eager_eq_none
    intro password text timeoutConfig own string
    cases string with
    | url given =>
        rw [noUrl] at given
        cases given
    | fields _ given =>
        rw [noHost, noUser] at given
        rcases given with host | user
        · cases host
        · cases user
  rw [failed, lazy, buildLazyResolver, if_neg ready, noHost, noUser]
  rfl

theorem ResolvesAlike.agree (alike : ResolvesAlike keyring chain conn baseTimeout) :
    eager keyring chain conn configPath baseTimeout =
      lazy keyring chain conn configPath baseTimeout := by
  cases alike with
  | url given =>
      apply Eq.symm
      apply lazy_ready
      rw [given, Option.isSome_some, Bool.or_true]
  | plaintext plaintext =>
      apply Eq.symm
      apply lazy_ready
      rw [plaintext, Bool.true_or]
  | invalidTimeout invalid => exact lazy_invalidTimeout invalid
  | nothing noUrl noHost noUser => exact lazy_nothing noUrl noHost noUser
  | keychain sentinel opens =>
      rcases kinds conn baseTimeout with ready | ⟨error, invalid⟩ | ⟨noUrl, noHost, noUser⟩ |
        ⟨pending, timeoutConfig, timeouts⟩
      · exact (lazy_ready ready).symm
      · exact lazy_invalidTimeout invalid
      · exact lazy_nothing noUrl noHost noUser
      · rw [eager_pending pending timeouts, lazy_pending pending timeouts,
          pendingResolver_sentinel sentinel, (readings_agree_iff _).mpr opens, Option.map_map]
        rfl

/-- Resolving a connection at once and when it is used comes to the same exactly
for the connections that resolve alike. -/
theorem eager_eq_lazy_iff (keyring : Keyring Chain Entry Error) (chain : Chain)
    (conn : TimedConnection) (configPath : Option Text) (baseTimeout : Option TimeoutConfig) :
    eager keyring chain conn configPath baseTimeout =
        lazy keyring chain conn configPath baseTimeout ↔
      ResolvesAlike keyring chain conn baseTimeout := by
  refine ⟨?_, ResolvesAlike.agree⟩
  intro same
  rcases kinds conn baseTimeout with ready | ⟨error, invalid⟩ | ⟨noUrl, noHost, noUser⟩ |
    ⟨pending, timeoutConfig, timeouts⟩
  · rcases Bool.or_eq_true_iff.mp ready with plaintext | given
    · exact .plaintext plaintext
    · obtain ⟨url, given⟩ := Option.isSome_iff_exists.mp given
      exact .url given
  · exact .invalidTimeout invalid
  · exact .nothing noUrl noHost noUser
  · rw [eager_pending pending timeouts, lazy_pending pending timeouts] at same
    cases sentinel : conn.isSentinel with
    | false =>
        rw [pendingResolver_none sentinel] at same
        cases found : (lookUpPassword keyring chain conn.keyringUsername keyringService).toOption with
        | none =>
            rw [found] at same
            cases same
        | some password =>
            rw [found] at same
            have texts := congrArg Prod.fst (Option.some.inj same)
            exact absurd texts (fieldsText_password conn.toNamedConnection password)
    | true =>
        apply ResolvesAlike.keychain sentinel
        cases opened : keyring.entry keyringService conn.keyringUsername with
        | ok entry => exact .inl ⟨entry, rfl⟩
        | error error =>
            right
            rw [pendingResolver_sentinel sentinel, pendingPassword_toOption, opened] at same
            have nothing := Option.map_eq_none_iff.mp same
            rw [lookUpPassword_toOption] at nothing
            exact (Option.or_eq_none_iff.mp nothing).2

/-- A connection without a password: the server connects without one, and the
command line fails where the keychain has none either. -/
theorem not_eager_eq_lazy_noPassword :
    eager noKeychain () { host := some "db".toList, user := some "u".toList } none none ≠
      lazy noKeychain () { host := some "db".toList, user := some "u".toList } none none := by
  decide +kernel

end Entries

end OpenGauss.Mcp
