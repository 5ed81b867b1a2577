import OpenGauss.Gaussdb.ResolutionProperties
import OpenGauss.Mcp.MigrationProperties
import OpenGauss.Mcp.RawConfig

/-! The command `check` and its probe of the keychain (`gaussdb-mcp`, `main.rs`), and what they
leave in the keychain. -/

set_option autoImplicit false

namespace OpenGauss.Mcp

open Driver Gaussdb Lib.Text

/-- Which operations fail on an entry, whatever the keychain holds. -/
structure Faults (Error : Type) where
  entry : Option Error := none
  setPassword : Option Error := none
  getPassword : Option Error := none
  deriving DecidableEq, Repr

/-- An operation that fails if it has a fault. -/
def attempt {Error Value : Type} (fault : Option Error) (answer : Except Error Value) :
    Except Error Value :=
  match fault with
  | some error => .error error
  | none => answer

def testKey : Text := "__gaussdb_mcp_keyring_test__".toList

def McpRawConfig.target (raw : McpRawConfig) (connArg : Option Text) : Option TimedConnection :=
  raw.connections.find? fun conn => conn.name = connArg.getD raw.defaultName

/-- How the command `check` ends, or goes on to its attempts to connect. -/
inductive CheckConnection (Error : Type) where
  | unreadable (error : Text)
  | unknownConnection (targetName : Text) (available : List Text)
  | panicked
  | unresolved (error : ResolutionError Error)
  | reported (lines : List Text)
  deriving DecidableEq, Repr

section

variable {Chain Entry Error : Type} (keyring : Keyring Chain Entry Error) (faults : Faults Error)
  (chain : Chain)

/-- The keychain after the call, and its result. -/
def checkKeyringAvailable (username : Text) : Chain × Except Text Unit :=
  match attempt faults.entry (keyring.entry keyringService username) with
  | .error error => (chain, .error (entryCreationFailed keyring error))
  | .ok entry =>
      match attempt faults.setPassword (keyring.setPassword chain entry testKey) with
      | .error error => (chain, .error ("keyring write failed: ".toList ++ keyring.display error))
      | .ok stored =>
          match attempt faults.getPassword (keyring.getPassword stored entry) with
          | .error error =>
              (stored, .error ("keyring read-back failed: ".toList ++ keyring.display error))
          | .ok readBack =>
              if readBack ≠ testKey then (stored, .error "keyring read-back mismatch".toList)
              else (stored, .ok ())

/-- The lines on a password from the keychain. -/
def keyringLines (username : Text) : List Text :=
  ("[Keyring] Password read from OS keychain (user: ".toList ++ username ++ ")".toList) ::
    match attempt faults.entry (keyring.entry keyringService username) >>= fun entry =>
      attempt faults.getPassword (keyring.getPassword chain entry) with
    | .ok password =>
        if password.isEmpty then ["  ⚠ WARNING: keyring returned empty password".toList]
        else ["  ✓ Keyring accessible, password retrieved (".toList ++
          (toString (utf8Length password)).toList ++ " chars)".toList]
    | .error error =>
        ["  ✗ Keyring read-back failed: ".toList ++ keyring.display error,
          ("    This means the password was already read once but keyring " ++
            "may be unreliable.").toList,
          ("    Consider changing password in config from \"keyring\" " ++
            "back to plaintext.").toList]

def availableLines : Except Text Unit → List Text
  | .ok () =>
      [("  ✓ OS keychain is available — password will be migrated on " ++
        "first successful connection").toList]
  | .error error =>
      ["  ⚠ OS keychain NOT available: ".toList ++ error,
        "    Plaintext password will be kept in config file (no migration).".toList]

/-- `handle_check_connection`, up to its attempts to connect: the keychain after it, and the
lines that it prints. -/
def handleCheckConnection (resolved : Resolved) : Chain × List Text :=
  let header := ["Connection: ".toList ++ resolved.name, []]
  match resolved.passwordSource with
  | .keyring => (chain, header ++ keyringLines keyring faults chain resolved.keyringUsername ++ [[]])
  | .plaintext =>
      let (checked, available) := checkKeyringAvailable keyring faults chain resolved.keyringUsername
      (checked, header ++ ["[Keyring] Password from config file (plaintext)".toList] ++
        availableLines available ++ [[]])
  | .envVar =>
      (chain, header ++
        ["[Keyring] Password from environment variable (no keyring involved)".toList, []])
  | .none => (chain, header ++ ["[Keyring] No password configured".toList, []])

/-- `handle_check_connection_cmd`. While the connection is resolved, the keychain answers as
`answers` does. -/
def handleCheckConnectionCmd (answers : Keyring Chain Entry Error) (read : Except Text McpRawConfig)
    (connArg : Option Text) : Chain × CheckConnection Error :=
  match read with
  | .error error => (chain, .unreadable error)
  | .ok raw =>
      match raw.target connArg with
      | none =>
          (chain, .unknownConnection (connArg.getD raw.defaultName)
            (raw.connections.map fun conn => conn.name))
      | some targetConn =>
          if raw.isEnvVar then
            match targetConn.url with
            | none => (chain, .panicked)
            | some url =>
                let (checked, lines) :=
                  handleCheckConnection keyring faults chain (resolveEnvVarConnection url)
                (checked, .reported lines)
          else
            match targetConn.resolveSingleConnection answers chain raw.configPath raw.baseTimeout
              keyringService with
            | .error error => (chain, .unresolved error)
            | .ok resolved =>
                let (checked, lines) := handleCheckConnection keyring faults chain resolved
                (checked, .reported lines)

/-- Every entry is as it was. -/
def Unchanged (after : Chain) : Prop :=
  ∀ entry, keyring.getPassword after entry = keyring.getPassword chain entry

/-- The probe opens the entry of a user and writes it. -/
structure Writes (username : Text) (entry : Entry) (stored : Chain) : Prop where
  opened : attempt faults.entry (keyring.entry keyringService username) = .ok entry
  written : attempt faults.setPassword (keyring.setPassword chain entry testKey) = .ok stored

/-- The probe writes an entry that holds something else. -/
def Overwrites (username : Text) : Prop :=
  ∃ entry stored, Writes keyring faults chain username entry stored ∧
    keyring.getPassword chain entry ≠ .ok testKey

/-- The connection that the command has to check: it has a plaintext password in the file, and it
resolves. -/
structure Probes (raw : McpRawConfig) (connArg : Option Text) (answers : Keyring Chain Entry Error)
    (conn : TimedConnection) : Prop where
  target : raw.target connArg = some conn
  file : raw.isEnvVar = false
  plaintext : conn.isPlaintext = true
  resolves : ∃ resolved, conn.resolveSingleConnection answers chain raw.configPath raw.baseTimeout
    keyringService = .ok resolved

end

theorem attempt_eq_ok {Error Value : Type} {fault : Option Error} {answer : Except Error Value}
    {value : Value} (succeeds : attempt fault answer = .ok value) : answer = .ok value := by
  cases fault with
  | none => exact succeeds
  | some error => cases succeeds

section

variable {Chain Entry Error : Type} {keyring : Keyring Chain Entry Error} {faults : Faults Error}
  {chain : Chain}

theorem unchanged_refl : Unchanged keyring chain chain := fun _ => rfl

/-- What the probe does to the keychain: nothing, or one write. -/
theorem checkKeyringAvailable_cases (keyring : Keyring Chain Entry Error) (faults : Faults Error)
    (chain : Chain) (username : Text) :
    ((checkKeyringAvailable keyring faults chain username).1 = chain ∧
      ∀ entry stored, ¬Writes keyring faults chain username entry stored) ∨
    ∃ entry, Writes keyring faults chain username entry
      (checkKeyringAvailable keyring faults chain username).1 := by
  cases opened : attempt faults.entry (keyring.entry keyringService username) with
  | error error =>
      refine .inl ⟨?_, fun entry stored writes => ?_⟩
      · rw [checkKeyringAvailable, opened]
      · cases opened.symm.trans writes.opened
  | ok entry =>
      cases written : attempt faults.setPassword (keyring.setPassword chain entry testKey) with
      | error error =>
          refine .inl ⟨?_, fun other stored writes => ?_⟩
          · simp only [checkKeyringAvailable, opened, written]
          · obtain rfl := Except.ok.inj (opened.symm.trans writes.opened)
            cases written.symm.trans writes.written
      | ok stored =>
          -- the entry is written, whatever comes of reading it back
          have after : (checkKeyringAvailable keyring faults chain username).1 = stored := by
            simp only [checkKeyringAvailable, opened, written]
            split
            · rfl
            · split <;> rfl
          exact .inr ⟨entry, opened, after ▸ written⟩

/-- One write changes the keychain unless it writes what was there. -/
theorem unchanged_written_iff {username : Text} {entry : Entry} {stored : Chain}
    (writes : Writes keyring faults chain username entry stored) :
    Unchanged keyring chain stored ↔ keyring.getPassword chain entry = .ok testKey := by
  have written := attempt_eq_ok writes.written
  constructor
  · intro unchanged
    exact (unchanged entry).symm.trans (keyring.get_set written)
  · intro held other
    by_cases same : other = entry
    · rw [same, held]
      exact keyring.get_set written
    · exact keyring.get_set_other written same

theorem checkKeyringAvailable_unchanged_iff {username : Text} :
    Unchanged keyring chain (checkKeyringAvailable keyring faults chain username).1 ↔
      ¬Overwrites keyring faults chain username := by
  rcases checkKeyringAvailable_cases keyring faults chain username with
    ⟨same, never⟩ | ⟨entry, writes⟩
  · rw [same]
    refine iff_of_true unchanged_refl ?_
    rintro ⟨entry, stored, writes, _⟩
    exact never entry stored writes
  · rw [unchanged_written_iff writes]
    constructor
    · rintro held ⟨other, stored, again, differs⟩
      obtain rfl := Except.ok.inj (writes.opened.symm.trans again.opened)
      exact differs held
    · intro spared
      by_contra differs
      exact spared ⟨entry, _, writes, differs⟩

/-- Only for a plaintext password does the report touch the keychain. -/
theorem handleCheckConnection_fst (resolved : Resolved) :
    (handleCheckConnection keyring faults chain resolved).1 =
      if resolved.passwordSource = .plaintext then
        (checkKeyringAvailable keyring faults chain resolved.keyringUsername).1
      else chain := by
  rw [handleCheckConnection]
  cases resolved.passwordSource <;> rfl

theorem passwordSource_plaintext_iff {conn : NamedConnection} :
    conn.passwordSource = .plaintext ↔ conn.isPlaintext = true := by
  rw [NamedConnection.passwordSource]
  cases conn.isPlaintext with
  | true => exact iff_of_true rfl rfl
  | false =>
      refine iff_of_false ?_ (by decide)
      cases conn.isSentinel <;> decide

/-- The command leaves the keychain as the probe does, if there is a connection to probe for. -/
theorem handleCheckConnectionCmd_cases (keyring : Keyring Chain Entry Error)
    (faults : Faults Error) (chain : Chain) (answers : Keyring Chain Entry Error)
    (raw : McpRawConfig) (connArg : Option Text) :
    ((handleCheckConnectionCmd keyring faults chain answers (.ok raw) connArg).1 = chain ∧
      ∀ conn, ¬Probes chain raw connArg answers conn) ∨
    ∃ conn, Probes chain raw connArg answers conn ∧
      (handleCheckConnectionCmd keyring faults chain answers (.ok raw) connArg).1 =
        (checkKeyringAvailable keyring faults chain conn.keyringUsername).1 := by
  cases target : raw.target connArg with
  | none =>
      refine .inl ⟨?_, fun conn probes => ?_⟩
      · simp only [handleCheckConnectionCmd, target]
      · cases target.symm.trans probes.target
  | some conn =>
      cases file : raw.isEnvVar with
      | true =>
          refine .inl ⟨?_, fun conn probes => ?_⟩
          · simp only [handleCheckConnectionCmd, target, file, if_true]
            cases conn.url with
            | none => rfl
            | some url => rfl
          · cases file.symm.trans probes.file
      | false =>
          cases resolves : conn.resolveSingleConnection answers chain raw.configPath
            raw.baseTimeout keyringService with
          | error error =>
              refine .inl ⟨?_, fun other probes => ?_⟩
              · simp only [handleCheckConnectionCmd, target, file, resolves]
                rfl
              · obtain rfl := Option.some.inj (target.symm.trans probes.target)
                obtain ⟨resolved, found⟩ := probes.resolves
                cases resolves.symm.trans found
          | ok resolved =>
              have after : (handleCheckConnectionCmd keyring faults chain answers (.ok raw)
                  connArg).1 = (handleCheckConnection keyring faults chain resolved).1 := by
                simp only [handleCheckConnectionCmd, target, file, resolves]
                rfl
              obtain ⟨_, text, timeoutConfig, _, _, _, rfl⟩ := resolveSingleConnection_iff.mp resolves
              rw [after, handleCheckConnection_fst]
              by_cases plaintext : conn.isPlaintext = true
              · refine .inr ⟨conn, ⟨target, file, plaintext, _, resolves⟩, ?_⟩
                exact if_pos (passwordSource_plaintext_iff.mpr plaintext)
              · refine .inl ⟨if_neg (mt passwordSource_plaintext_iff.mp plaintext), ?_⟩
                intro other probes
                obtain rfl := Option.some.inj (target.symm.trans probes.target)
                exact plaintext probes.plaintext

theorem handleCheckConnectionCmd_unchanged_iff {answers : Keyring Chain Entry Error}
    {read : Except Text McpRawConfig} {connArg : Option Text} :
    Unchanged keyring chain (handleCheckConnectionCmd keyring faults chain answers read connArg).1 ↔
      ∀ raw conn, read = .ok raw → Probes chain raw connArg answers conn →
        ¬Overwrites keyring faults chain conn.keyringUsername := by
  cases read with
  | error error =>
      refine iff_of_true unchanged_refl ?_
      intro raw conn readable
      cases readable
  | ok raw =>
      rcases handleCheckConnectionCmd_cases keyring faults chain answers raw connArg with
        ⟨same, never⟩ | ⟨conn, probes, same⟩
      · rw [same]
        refine iff_of_true unchanged_refl ?_
        intro other conn readable probes
        cases readable
        exact absurd probes (never conn)
      · rw [same, checkKeyringAvailable_unchanged_iff]
        constructor
        · intro spared other target readable again
          cases readable
          obtain rfl := Option.some.inj (probes.target.symm.trans again.target)
          exact spared
        · intro spared
          exact spared raw conn rfl probes

end

/-- Exactly when a check leaves every entry as it was. -/
theorem check_unchanged_iff {Chain Entry Error : Type} (keyring : Keyring Chain Entry Error)
    (faults : Faults Error) (chain : Chain) :
    (∀ username,
      Unchanged keyring chain (checkKeyringAvailable keyring faults chain username).1 ↔
        ¬Overwrites keyring faults chain username) ∧
    ∀ answers read connArg,
      Unchanged keyring chain
        (handleCheckConnectionCmd keyring faults chain answers read connArg).1 ↔
        ∀ raw conn, read = .ok raw → Probes chain raw connArg answers conn →
          ¬Overwrites keyring faults chain conn.keyringUsername :=
  ⟨fun _ => checkKeyringAvailable_unchanged_iff, fun _ _ _ => handleCheckConnectionCmd_unchanged_iff⟩

/-- A connection with its password still in the file. -/
def unmovedConnection : TimedConnection where
  name := "prod".toList
  host := some "db".toList
  user := some "u".toList
  password := some "secret".toList
  dbname := some "app".toList

def unmovedConfig : McpRawConfig where
  connections := [unmovedConnection]
  defaultName := unmovedConnection.name
  configPath := some configPath
  baseTimeout := none
  isEnvVar := false

/-- An older password is stored for the user of that connection. -/
def storedEarlier : List ((Text × Text) × Text) :=
  [((keyringService, unmovedConnection.keyringUsername), "hunter2".toList)]

/-- Where the keychain works, a check puts the probe's text in place of a stored password. -/
theorem not_check_unchanged :
    ¬Unchanged inMemory storedEarlier
      (checkKeyringAvailable inMemory {} storedEarlier unmovedConnection.keyringUsername).1 ∧
    ¬Unchanged inMemory storedEarlier
      (handleCheckConnectionCmd inMemory {} storedEarlier inMemory (.ok unmovedConfig) none).1 := by
  constructor
  · intro unchanged
    exact absurd (unchanged (keyringService, unmovedConnection.keyringUsername)) (by decide +kernel)
  · intro unchanged
    exact absurd (unchanged (keyringService, unmovedConnection.keyringUsername)) (by decide +kernel)

end OpenGauss.Mcp
