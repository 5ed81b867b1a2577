import OpenGauss.Gaussdb.ResolutionProperties
import OpenGauss.Mcp.RawConfig

/-! What becomes of the timeouts outside of the connections. -/

set_option autoImplicit false

namespace OpenGauss.Mcp

open Driver Gaussdb

/-- A connection resolves only if the flat timeouts are valid, and to those of
them that it does not override. -/
def KeepsTimeouts {Error : Type} (config : TimedMultiConfig) (conn : TimedConnection)
    (result : Except Error TimeoutConfig) : Prop :=
  match config.flatTimeouts with
  | .error _ => ∃ error, result = .error error
  | .ok flat => ∀ timeoutConfig, result = .ok timeoutConfig →
      (conn.statementTimeout = none →
        timeoutConfig.statementTimeout = flat.statementTimeout) ∧
      (conn.connectionMaxLifetime = none →
        timeoutConfig.connectionMaxLifetime = flat.connectionMaxLifetime) ∧
      (conn.timeoutAction = none → timeoutConfig.timeoutAction = flat.timeoutAction)

/-- A connection that overrides no timeout has the flat ones, if they are valid. -/
def InheritsTimeouts (config : TimedMultiConfig) (conn : TimedConnection)
    (baseTimeout : Option TimeoutConfig) : Prop :=
  ∀ flat, config.flatTimeouts = .ok flat → conn.statementTimeout = none →
    conn.connectionMaxLifetime = none → conn.timeoutAction = none →
      conn.timeoutConfig baseTimeout = .ok flat

/-- Over every keychain, what either crate reads of the configuration resolves
to the flat timeouts or to an error. -/
def ReadsTimeouts (config : TimedMultiConfig) : Prop :=
  ∀ (Chain Entry Error : Type) (keyring : Keyring Chain Entry Error) (chain : Chain)
    (path service : Text),
    (∀ raw, Gaussdb.readConfig none (.ok (path, config)) = .ok raw → ∀ conn ∈ raw.connections,
      InheritsTimeouts config conn raw.baseTimeout ∧
      KeepsTimeouts config conn ((conn.resolveSingleConnection keyring chain raw.configPath
        raw.baseTimeout service).map Resolved.timeoutConfig)) ∧
    ∀ raw, Mcp.readConfig none (.ok (path, config)) = .ok raw → ∀ conn ∈ raw.connections,
      InheritsTimeouts config conn raw.baseTimeout ∧
      KeepsTimeouts config conn ((conn.resolveSingleConnection keyring chain raw.configPath
        raw.baseTimeout keyringService).map Resolved.timeoutConfig) ∧
      KeepsTimeouts config conn ((buildLazyResolver keyring chain conn raw.configPath
        raw.baseTimeout).map LazyConnectionEntry.timeoutConfig)

/-- A connection that does not resolve, whatever the flat timeouts are. -/
def Unresolvable (conn : TimedConnection) : Prop :=
  (∃ error, conn.timeoutConfig none = .error error) ∨
    conn.url = none ∧ conn.host = none ∧ conn.user = none

/-! ### Reading -/

section Reading

variable {config : TimedMultiConfig} {path : Text}

theorem readConfig_file {raw : RawConfig}
    (read : Gaussdb.readConfig none (.ok (path, config)) = .ok raw) :
    raw.baseTimeout = config.flatTimeouts.toOption ∧
      ∃ defaultName, config.resolve = .ok (raw.connections, defaultName) := by
  obtain ⟨file, found, read⟩ := TimeoutConfig.bind_ok read
  obtain rfl := Except.ok.inj found
  obtain ⟨resolved, resolves, read⟩ := TimeoutConfig.bind_ok read
  cases read
  exact ⟨rfl, resolved.2, resolves⟩

theorem mcpReadConfig_file {raw : McpRawConfig}
    (read : Mcp.readConfig none (.ok (path, config)) = .ok raw) :
    raw.baseTimeout = config.flatTimeouts.toOption ∧
      ∃ defaultName, config.resolve = .ok (raw.connections, defaultName) := by
  obtain ⟨file, found, read⟩ := TimeoutConfig.bind_ok read
  obtain rfl := Except.ok.inj found
  obtain ⟨resolved, resolves, read⟩ := TimeoutConfig.bind_ok read
  cases read
  exact ⟨rfl, resolved.2, resolves⟩

theorem readConfig_of_resolve {connections : List TimedConnection} {defaultName : Option Text}
    (resolves : config.resolve = .ok (connections, defaultName)) :
    ∃ raw, Gaussdb.readConfig none (.ok (path, config)) = .ok raw ∧
      raw.connections = connections ∧ raw.baseTimeout = config.flatTimeouts.toOption := by
  refine ⟨{ connections, defaultName := defaultName.getD
              ((connections.head?.map fun conn => conn.name).getD []), configPath := some path,
            baseTimeout := config.flatTimeouts.toOption }, ?_, rfl, rfl⟩
  change (config.resolve >>= _) = _
  rw [resolves]
  rfl

/-- The connections of a configuration: those of the file, under their names, or
the flat one. -/
theorem mem_resolve {connections : List TimedConnection} {defaultName : Option Text}
    (resolves : config.resolve = .ok (connections, defaultName)) {conn : TimedConnection}
    (member : conn ∈ connections) :
    (∃ entry ∈ config.connections, conn = { entry.2 with name := entry.1 }) ∨
      config.connections = [] ∧ conn = { config.flat with name := "default".toList } := by
  unfold TimedMultiConfig.resolve at resolves
  split at resolves
  · cases resolves
    obtain ⟨entry, listed, rfl⟩ := List.mem_map.mp member
    exact .inl ⟨entry, listed, rfl⟩
  · rename_i empty
    split at resolves
    · cases resolves
    · cases resolves
      rw [List.mem_singleton] at member
      refine .inr ⟨?_, member⟩
      cases listed : config.connections with
      | nil => rfl
      | cons entry others =>
          rw [listed] at empty
          exact absurd rfl empty

theorem resolve_entries {entry : Text × TimedConnection} (listed : entry ∈ config.connections) :
    ∃ connections defaultName, config.resolve = .ok (connections, defaultName) ∧
      { entry.2 with name := entry.1 } ∈ connections := by
  have some : (!config.connections.isEmpty) = true := by
    cases connections : config.connections with
    | nil =>
        rw [connections] at listed
        cases listed
    | cons first others => rfl
  refine ⟨config.connections.map fun entry => { entry.2 with name := entry.1 },
    config.defaultConnection <|> config.connections.head?.map Prod.fst, ?_, ?_⟩
  · unfold TimedMultiConfig.resolve
    rw [if_pos some]
  · exact List.mem_map.mpr ⟨entry, listed, rfl⟩

end Reading

/-! ### The timeouts of a connection -/

section Connection

/-- A result is an error, or has the own timeouts of a connection that says where
the server is. -/
def HasOwnTimeouts {Error : Type} (conn : TimedConnection) (baseTimeout : Option TimeoutConfig)
    (result : Except Error TimeoutConfig) : Prop :=
  ∀ timeoutConfig, result = .ok timeoutConfig →
    conn.timeoutConfig baseTimeout = .ok timeoutConfig ∧
      ¬(conn.url = none ∧ conn.host = none ∧ conn.user = none)

variable {Chain Entry Error : Type} {keyring : Keyring Chain Entry Error} {chain : Chain}
  {config : TimedMultiConfig} {conn : TimedConnection} {configPath : Option Text}
  {baseTimeout : Option TimeoutConfig} {service : Text}

theorem hasOwnTimeouts_resolved {resolved : Resolved}
    (resolves : conn.resolveSingleConnection keyring chain configPath baseTimeout service =
      .ok resolved) :
    conn.timeoutConfig baseTimeout = .ok resolved.timeoutConfig ∧
      ¬(conn.url = none ∧ conn.host = none ∧ conn.user = none) := by
  obtain ⟨password, text, timeoutConfig, own, string, timeouts, rfl⟩ :=
    resolveSingleConnection_iff.mp resolves
  refine ⟨timeouts, ?_⟩
  intro nowhere
  obtain ⟨noUrl, noHost, noUser⟩ := nowhere
  cases string with
  | url given => exact absurd (given.symm.trans noUrl) (by simp)
  | fields _ either =>
      rw [noHost, noUser] at either
      rcases either with given | given <;> exact absurd given Bool.false_ne_true

theorem hasOwnTimeouts_resolveSingleConnection :
    HasOwnTimeouts conn baseTimeout ((conn.resolveSingleConnection keyring chain configPath
      baseTimeout service).map Resolved.timeoutConfig) := by
  intro timeoutConfig same
  cases resolves : conn.resolveSingleConnection keyring chain configPath baseTimeout service with
  | error error =>
      rw [resolves] at same
      cases same
  | ok resolved =>
      rw [resolves] at same
      cases same
      exact hasOwnTimeouts_resolved resolves

theorem hasOwnTimeouts_buildLazyResolver :
    HasOwnTimeouts conn baseTimeout ((buildLazyResolver keyring chain conn configPath
      baseTimeout).map LazyConnectionEntry.timeoutConfig) := by
  intro timeoutConfig same
  unfold buildLazyResolver at same
  split at same
  · split at same
    · cases same
    · cases same
      exact hasOwnTimeouts_resolved (by assumption)
  · split at same
    · cases same
    · rename_i given
      split at same
      · cases same
      · cases same
        refine ⟨by assumption, ?_⟩
        intro nowhere
        apply given
        rw [nowhere.2.1, nowhere.2.2]
        rfl

/-- Valid flat timeouts are kept. -/
theorem keepsTimeouts_valid {Error : Type} {flat : TimeoutConfig}
    (valid : config.flatTimeouts = .ok flat) {result : Except Error TimeoutConfig}
    (own : HasOwnTimeouts conn (some flat) result) : KeepsTimeouts config conn result := by
  rw [KeepsTimeouts, valid]
  intro timeoutConfig same
  exact TimeoutConfig.fromOverrides_inherits (TimeoutConfig.fromOverrides_full valid)
    (own timeoutConfig same).1

theorem inheritsTimeouts_valid {flat : TimeoutConfig} (valid : config.flatTimeouts = .ok flat) :
    InheritsTimeouts config conn (some flat) := by
  intro same flatTimeouts noTimeout noLifetime noAction
  cases valid.symm.trans flatTimeouts
  rw [TimedConnection.timeoutConfig, noTimeout, noLifetime, noAction]
  exact TimeoutConfig.fromOverrides_none (TimeoutConfig.fromOverrides_full valid)
    (TimeoutConfig.validate_fromOverrides valid)

/-- With flat timeouts that are not valid, a connection without a resolution
fails. -/
theorem keepsTimeouts_invalid {Error : Type} {error : TimeoutError}
    (invalid : config.flatTimeouts = .error error) (fails : Unresolvable conn)
    {result : Except Error TimeoutConfig} (own : HasOwnTimeouts conn none result) :
    KeepsTimeouts config conn result := by
  rw [KeepsTimeouts, invalid]
  cases result with
  | error error => exact ⟨error, rfl⟩
  | ok timeoutConfig =>
      obtain ⟨timeouts, somewhere⟩ := own timeoutConfig rfl
      rcases fails with ⟨error, fails⟩ | nowhere
      · cases fails.symm.trans timeouts
      · exact absurd nowhere somewhere

theorem inheritsTimeouts_invalid {error : TimeoutError}
    (invalid : config.flatTimeouts = .error error) (baseTimeout : Option TimeoutConfig) :
    InheritsTimeouts config conn baseTimeout := by
  intro flat valid
  cases invalid.symm.trans valid

/-- With a keychain that has a password, every other connection resolves. -/
theorem resolves_sealed (configPath : Option Text) (service password : Text)
    (resolvable : ¬Unresolvable conn) :
    ∃ resolved, conn.resolveSingleConnection (sealedKeychain password) () configPath none service =
      .ok resolved := by
  rw [Unresolvable, not_or] at resolvable
  obtain ⟨valid, somewhere⟩ := resolvable
  cases timeouts : conn.timeoutConfig none with
  | error error => exact absurd ⟨error, timeouts⟩ valid
  | ok timeoutConfig =>
      obtain ⟨found, own⟩ : ∃ found, PasswordOf (sealedKeychain password) () conn service found := by
        cases kind : conn.isPlaintext with
        | true => exact ⟨_, .plaintext kind⟩
        | false => exact ⟨_, .keychain kind (lookUpPassword_sealed password _ _)⟩
      obtain ⟨text, string⟩ : ∃ text, StringOf conn found text := by
        cases url : conn.url with
        | some url => exact ⟨_, .url url⟩
        | none =>
            cases host : conn.host with
            | some host => exact ⟨_, .fields url (.inl (by rw [host]; rfl))⟩
            | none =>
                cases user : conn.user with
                | some user => exact ⟨_, .fields url (.inr (by rw [user]; rfl))⟩
                | none => exact absurd ⟨url, host, user⟩ somewhere
      exact ⟨_, resolveSingleConnection_iff.mpr
        ⟨found, text, timeoutConfig, own, string, timeouts, rfl⟩⟩

/-- No connection of the file resolves, whatever the flat timeouts are. -/
theorem unresolvable_read {connections : List TimedConnection} {defaultName : Option Text}
    {error : TimeoutError} (resolves : config.resolve = .ok (connections, defaultName))
    (invalid : config.flatTimeouts = .error error)
    (entries : ∀ entry ∈ config.connections, Unresolvable entry.2) (member : conn ∈ connections) :
    Unresolvable conn := by
  rcases mem_resolve resolves member with ⟨entry, listed, rfl⟩ | ⟨-, rfl⟩
  · exact entries entry listed
  · exact .inl ⟨error, invalid⟩

theorem keepsTimeouts_read {connections : List TimedConnection} {defaultName : Option Text}
    (resolves : config.resolve = .ok (connections, defaultName))
    (kept : (∃ flat, config.flatTimeouts = .ok flat) ∨
      ∀ entry ∈ config.connections, Unresolvable entry.2) (member : conn ∈ connections) :
    InheritsTimeouts config conn config.flatTimeouts.toOption ∧
      ∀ (Error : Type) (result : Except Error TimeoutConfig),
        HasOwnTimeouts conn config.flatTimeouts.toOption result →
          KeepsTimeouts config conn result := by
  cases flatTimeouts : config.flatTimeouts with
  | ok flat =>
      refine ⟨inheritsTimeouts_valid flatTimeouts, ?_⟩
      intro Error result own
      exact keepsTimeouts_valid flatTimeouts own
  | error error =>
      refine ⟨inheritsTimeouts_invalid flatTimeouts none, ?_⟩
      intro Error result own
      rcases kept with ⟨flat, valid⟩ | entries
      · cases flatTimeouts.symm.trans valid
      · exact keepsTimeouts_invalid flatTimeouts
          (unresolvable_read resolves flatTimeouts entries member) own

end Connection

/-- The flat timeouts are kept exactly if they are valid, or no connection of the
file resolves in any case. -/
theorem readsTimeouts_iff (config : TimedMultiConfig) :
    ReadsTimeouts config ↔ (∃ flat, config.flatTimeouts = .ok flat) ∨
      ∀ entry ∈ config.connections, Unresolvable entry.2 := by
  constructor
  · intro reads
    cases flatTimeouts : config.flatTimeouts with
    | ok flat => exact .inl ⟨flat, rfl⟩
    | error error =>
        right
        intro entry listed
        apply Classical.byContradiction
        intro resolvable
        obtain ⟨connections, defaultName, resolves, member⟩ := resolve_entries listed
        obtain ⟨raw, read, rfl, base⟩ := @readConfig_of_resolve config [] _ _ resolves
        rw [flatTimeouts] at base
        have keeps := ((reads _ _ _ (sealedKeychain []) () [] []).1 raw read _ member).2
        obtain ⟨resolved, found⟩ := @resolves_sealed { entry.2 with name := entry.1 }
          raw.configPath [] [] resolvable
        change raw.baseTimeout = none at base
        rw [KeepsTimeouts, flatTimeouts, base, found] at keeps
        obtain ⟨error, failed⟩ := keeps
        cases failed
  · intro kept Chain Entry Error keyring chain path service
    constructor
    · intro raw read conn member
      obtain ⟨base, defaultName, resolves⟩ := readConfig_file read
      rw [base]
      obtain ⟨inherits, keeps⟩ := keepsTimeouts_read resolves kept member
      exact ⟨inherits, keeps _ _ hasOwnTimeouts_resolveSingleConnection⟩
    · intro raw read conn member
      obtain ⟨base, defaultName, resolves⟩ := mcpReadConfig_file read
      rw [base]
      obtain ⟨inherits, keeps⟩ := keepsTimeouts_read resolves kept member
      exact ⟨inherits, keeps _ _ hasOwnTimeouts_resolveSingleConnection,
        keeps _ _ hasOwnTimeouts_buildLazyResolver⟩

def prodConnection : TimedConnection where
  name := "prod".toList
  host := some "10.0.0.1".toList
  user := some "app".toList
  password := some "secret".toList

/-- A file with a limit that is longer than the lifetime of a connection. -/
def longLimit : TimedMultiConfig where
  flat := { statementTimeout := some "1h".toList, connectionMaxLifetime := some "10min".toList }
  connections := [("prod".toList, prodConnection)]

/-- The connection resolves with the built-in timeouts, without an error. -/
theorem not_readsTimeouts : ¬ReadsTimeouts longLimit := by
  intro reads
  obtain ⟨raw, read, connections, base⟩ :=
    @readConfig_of_resolve longLimit "gaussdb.toml".toList _ _ rfl
  have member : prodConnection ∈ raw.connections := by
    rw [connections]
    exact List.mem_singleton.mpr rfl
  have keeps := ((reads _ _ _ noKeychain () _ defaultKeyringService).1 raw read _ member).2
  have invalid : longLimit.flatTimeouts =
      .error (.exceedsLifetime (3600 * 10 ^ 9) (600 * 10 ^ 9)) := by decide +kernel
  rw [KeepsTimeouts, invalid, base, invalid] at keeps
  obtain ⟨error, failed⟩ := keeps
  have resolves : ((prodConnection.resolveSingleConnection noKeychain () raw.configPath none
      defaultKeyringService).map Resolved.timeoutConfig) = .ok .default := rfl
  cases resolves.symm.trans failed

end OpenGauss.Mcp
