import Mathlib.Data.List.Nodup
import OpenGauss.Gaussdb.RewriteProperties
import OpenGauss.Mcp.Migration

/-! What the migration of passwords into the keychain conserves: every connection
keeps the password that it had in plaintext, unless another one with the same
user name in the keychain had a different one. -/

set_option autoImplicit false

namespace OpenGauss.Mcp

open Driver Gaussdb

/-- The connections whose passwords the migration moves. -/
structure Migrates (conn : NamedConnection) : Prop where
  plaintext : conn.isPlaintext = true
  resolves : conn.toConnectionUrl.isSome = true

instance (conn : NamedConnection) : Decidable (Migrates conn) :=
  decidable_of_iff (conn.isPlaintext = true ∧ conn.toConnectionUrl.isSome = true)
    ⟨fun ⟨plaintext, resolves⟩ => ⟨plaintext, resolves⟩,
      fun moves => ⟨moves.plaintext, moves.resolves⟩⟩

/-- What a callback is registered with. -/
def resolvedOf (conn : NamedConnection) (configPath connectionUrl : Text) : ResolvedConnection where
  name := conn.name
  connectionUrl
  configPath := some configPath
  plaintextPassword := conn.password
  keyringUsername := conn.keyringUsername
  passwordSource := .plaintext
  sslmode := conn.sslmode.elim .disable fun value => sslmodeFromValue (some value)

theorem isPlaintext_iff {conn : NamedConnection} : conn.isPlaintext = true ↔
    ∃ password, conn.password = some password ∧ password ≠ keyringSentinel := by
  rw [NamedConnection.isPlaintext, Option.any_eq_true]
  simp only [ne_eq, decide_eq_true_eq]

/-! ### The connections of a file -/

theorem named_sections {config : MultiConfig} (sections : config.connections ≠ []) :
    named config = config.connections.map fun entry => { entry.2 with name := entry.1 } := by
  have some : (!config.connections.isEmpty) = true := by
    rw [Bool.not_eq_true', List.isEmpty_eq_false_iff]
    exact sections
  rw [named, MultiConfig.resolve, if_pos some]

theorem named_flat {config : MultiConfig} (flat : config.connections = []) :
    named config = if config.host.isNone && config.user.isNone && config.url.isNone then []
      else [flatConnection config] := by
  have none : ¬(!config.connections.isEmpty) = true := by rw [flat]; decide
  rw [named, MultiConfig.resolve, if_neg none]
  by_cases missing : (config.host.isNone && config.user.isNone && config.url.isNone) = true
  · rw [if_pos missing, if_pos missing]
  · rw [if_neg missing, if_neg missing]
    rfl

theorem named_nodup (config : MultiConfig) : ((named config).map NamedConnection.name).Nodup := by
  by_cases flat : config.connections = []
  · rw [named_flat flat]
    split
    · exact List.nodup_nil
    · exact List.nodup_singleton _
  · have names : (named config).map NamedConnection.name = config.connections.map Prod.fst := by
      rw [named_sections flat, List.map_map]
      rfl
    rw [names]
    exact config.names_nodup

theorem eq_of_name {config : MultiConfig} {first second : NamedConnection}
    (inFirst : first ∈ named config) (inSecond : second ∈ named config)
    (same : first.name = second.name) : first = second :=
  List.inj_on_of_nodup_map (named_nodup config) inFirst inSecond same

/-- The connection that stands in the place of another once a name is rewritten. -/
def rewritten (name : Text) (conn : NamedConnection) : NamedConnection :=
  if conn.name = name then conn.withSentinel else conn

theorem named_rewrite {config : MultiConfig} {name : Text}
    (known : name ∈ (named config).map NamedConnection.name) :
    named (config.rewritePasswordToSentinel name) = (named config).map (rewritten name) := by
  by_cases flat : config.connections = []
  · have rewrites : config.rewritePasswordToSentinel name =
        { config with password := config.password.map fun _ => keyringSentinel } :=
      if_pos (List.isEmpty_iff.mpr flat)
    have single := (congrArg named rewrites).trans (named_flat flat)
    rw [named_flat flat] at known ⊢
    rw [single]
    split at known
    · exact absurd known List.not_mem_nil
    · next given =>
        obtain rfl : name = "default".toList := List.mem_singleton.mp known
        rw [if_neg given, if_neg given]
        rfl
  · have rewrites : (config.rewritePasswordToSentinel name).connections =
        config.connections.map fun pair =>
          (pair.1, if pair.1 = name then pair.2.withSentinel else pair.2) := by
      rw [MultiConfig.rewritePasswordToSentinel, if_neg (mt List.isEmpty_iff.mp flat)]
    have sections : (config.rewritePasswordToSentinel name).connections ≠ [] := by
      rw [rewrites]
      exact mt List.map_eq_nil_iff.mp flat
    rw [named_sections sections, named_sections flat, rewrites, List.map_map, List.map_map]
    refine List.map_congr_left fun pair _ => ?_
    simp only [Function.comp_apply, rewritten]
    split <;> rfl

theorem rewritten_name (name : Text) (conn : NamedConnection) :
    (rewritten name conn).name = conn.name := by
  rw [rewritten]
  split <;> rfl

theorem withSentinel_withSentinel (conn : NamedConnection) :
    conn.withSentinel.withSentinel = conn.withSentinel := by
  cases conn with
  | mk name url host port user password dbname sslmode => cases password <;> rfl

/-! ### One callback -/

section Callbacks

variable {Chain Entry Error : Type} {keyring : Keyring Chain Entry Error}

theorem resolvePassword_plaintext {conn : NamedConnection} (plaintext : conn.isPlaintext = true)
    (chain : Chain) : resolvePassword keyring chain conn keyringService = .ok conn.password := by
  obtain ⟨password, held, apart⟩ := isPlaintext_iff.mp plaintext
  have notSentinel : conn.isSentinel = false := by
    rw [NamedConnection.isSentinel, held]
    exact decide_eq_false fun same => apart (Option.some.inj same)
  have given : conn.hasNoPassword = false := by rw [NamedConnection.hasNoPassword, held]; rfl
  rw [resolvePassword, notSentinel, given]
  rfl

theorem resolve_plaintext {conn : NamedConnection} (plaintext : conn.isPlaintext = true)
    (chain : Chain) (configPath : Text) :
    (resolveSingleConnection keyring chain conn (some configPath) keyringService).toOption =
      conn.toConnectionUrl.map (resolvedOf conn configPath) := by
  have source : conn.passwordSource = .plaintext := by
    rw [NamedConnection.passwordSource, if_pos plaintext]
  rw [resolveSingleConnection, resolvePassword_plaintext plaintext]
  cases found : conn.toConnectionUrl with
  | none => simp only [bind, Except.bind, found]; rfl
  | some connectionUrl =>
      simp only [bind, Except.bind, found, plaintext, source]
      rfl

theorem resolve_other {conn : NamedConnection} (other : conn.isPlaintext = false) (chain : Chain)
    (configPath : Option Text) {resolved : ResolvedConnection}
    (resolves : (resolveSingleConnection keyring chain conn configPath keyringService).toOption =
      some resolved) : resolved.plaintextPassword = none := by
  rw [resolveSingleConnection] at resolves
  cases known : resolvePassword keyring chain conn keyringService with
  | error error =>
      rw [known] at resolves
      cases resolves
  | ok password =>
      rw [known] at resolves
      simp only [bind, Except.bind, other] at resolves
      split at resolves
      · cases resolves
      · cases resolves
        rfl

theorem mem_callbacks {machine : Machine Chain} {configPath : Text} {resolved : ResolvedConnection} :
    resolved ∈ callbacks keyring machine configPath ↔
      ∃ conn ∈ named machine.config, conn.isPlaintext = true ∧
        ∃ url, conn.toConnectionUrl = some url ∧ resolvedOf conn configPath url = resolved := by
  rw [callbacks, List.mem_filter, List.mem_filterMap]
  constructor
  · rintro ⟨⟨conn, inside, resolves⟩, given⟩
    cases plaintext : conn.isPlaintext with
    | false =>
        rw [resolve_other plaintext _ _ resolves] at given
        cases given
    | true =>
        rw [resolve_plaintext plaintext, Option.map_eq_some_iff] at resolves
        exact ⟨conn, inside, plaintext, resolves⟩
  · rintro ⟨conn, inside, plaintext, url, found, rfl⟩
    refine ⟨⟨conn, inside, ?_⟩, ?_⟩
    · rw [resolve_plaintext plaintext, found]
      rfl
    · obtain ⟨password, held, -⟩ := isPlaintext_iff.mp plaintext
      change conn.password.isSome = true
      rw [held]
      rfl

variable (keyring) in
/-- A callback either stores the password and rewrites the file, or changes
nothing: an entry that was just set is read back as it was set. -/
theorem migrate_cases (machine : Machine Chain) {conn : NamedConnection} {password : Text}
    (held : conn.password = some password) (configPath url : Text) :
    (∃ entry stored, keyring.entry keyringService conn.keyringUsername = .ok entry ∧
      keyring.setPassword machine.chain entry password = .ok stored ∧
      migrate keyring machine (resolvedOf conn configPath url) =
        { chain := stored, config := machine.config.rewritePasswordToSentinel conn.name }) ∨
    ((¬∃ entry stored, keyring.entry keyringService conn.keyringUsername = .ok entry ∧
      keyring.setPassword machine.chain entry password = .ok stored) ∧
      migrate keyring machine (resolvedOf conn configPath url) = machine) := by
  rw [migrate, resolvedOf, held]
  dsimp only
  rw [storeKeyringPassword]
  cases opened : keyring.entry keyringService conn.keyringUsername with
  | error source =>
      refine .inr ⟨?_, rfl⟩
      rintro ⟨entry, stored, none, -⟩
      cases none
  | ok entry =>
      cases set : keyring.setPassword machine.chain entry password with
      | error source =>
          refine .inr ⟨?_, by simp only [set]⟩
          rintro ⟨other, stored, same, accepted⟩
          cases same
          rw [set] at accepted
          cases accepted
      | ok stored =>
          refine .inl ⟨entry, stored, rfl, set, ?_⟩
          simp only [set, keyring.get_set set, ne_eq, not_true_eq_false, if_false]

/-! ### A run of the callbacks -/

/-- The file of a machine holds the connections of another one, some of them
with the sentinel. -/
structure Follows (config : MultiConfig) (machine : Machine Chain) : Prop where
  names : (named machine.config).map NamedConnection.name =
    (named config).map NamedConnection.name
  present : ∀ conn ∈ named config,
    conn ∈ named machine.config ∨ conn.withSentinel ∈ named machine.config

theorem mem_rewrite {config : MultiConfig} {name : Text} {conn : NamedConnection}
    (known : name ∈ (named config).map NamedConnection.name) (inside : conn ∈ named config) :
    rewritten name conn ∈ named (config.rewritePasswordToSentinel name) := by
  rw [named_rewrite known]
  exact List.mem_map_of_mem inside

theorem rewritten_withSentinel (name : Text) (conn : NamedConnection) :
    rewritten name conn.withSentinel = conn.withSentinel := by
  rw [rewritten, withSentinel_withSentinel, ite_self]

section Step

variable {machine : Machine Chain} {config : MultiConfig} {moved : NamedConnection}
  {password configPath url : Text}

theorem Follows.known (follows : Follows config machine) (inside : moved ∈ named config) :
    moved.name ∈ (named machine.config).map NamedConnection.name := by
  rw [follows.names]
  exact List.mem_map_of_mem inside

/-- The sentinel stays in the file. -/
theorem sentinel_migrate {conn : NamedConnection} (held : moved.password = some password)
    (known : moved.name ∈ (named machine.config).map NamedConnection.name)
    (inside : conn.withSentinel ∈ named machine.config) :
    conn.withSentinel ∈ named (migrate keyring machine (resolvedOf moved configPath url)).config := by
  obtain ⟨entry, stored, -, -, result⟩ | ⟨-, result⟩ :=
    migrate_cases keyring machine held configPath url
  · rw [result, ← rewritten_withSentinel moved.name]
    exact mem_rewrite known inside
  · rw [result]
    exact inside

theorem Follows.migrate (follows : Follows config machine) (inside : moved ∈ named config)
    (held : moved.password = some password) :
    Follows config (migrate keyring machine (resolvedOf moved configPath url)) := by
  have known := follows.known inside
  obtain ⟨entry, stored, -, -, result⟩ | ⟨-, result⟩ :=
    migrate_cases keyring machine held configPath url
  · rw [result]
    constructor
    · rw [named_rewrite known, List.map_map, ← follows.names]
      exact List.map_congr_left fun conn _ => rewritten_name moved.name conn
    · intro conn given
      obtain plain | sentinel := follows.present conn given
      · have after := mem_rewrite known plain
        by_cases same : conn.name = moved.name
        · rw [rewritten, if_pos same] at after
          exact .inr after
        · rw [rewritten, if_neg same] at after
          exact .inl after
      · have after := mem_rewrite known sentinel
        rw [rewritten_withSentinel] at after
        exact .inr after
  · rw [result]
    exact follows

end Step

/-- Where a connection's password is: in the file, or in the keychain. -/
inductive Holds (keyring : Keyring Chain Entry Error) (machine : Machine Chain)
    (conn : NamedConnection) : Prop where
  | inFile (inside : conn ∈ named machine.config)
  | inKeychain (inside : conn.withSentinel ∈ named machine.config)
      (resolves : conn.toConnectionUrl.isSome = true) {entry : Entry} {password : Text}
      (held : conn.password = some password)
      (opened : keyring.entry keyringService conn.keyringUsername = .ok entry)
      (kept : keyring.getPassword machine.chain entry = .ok password)

/-- Two connections whose passwords do not get in each other's way. -/
def Agree (first second : NamedConnection) : Prop :=
  first.keyringUsername = second.keyringUsername → first.password = second.password

theorem Holds.migrate {machine : Machine Chain} {config : MultiConfig}
    {moved conn : NamedConnection} {configPath url : Text} (holds : Holds keyring machine conn)
    (follows : Follows config machine) (inside : moved ∈ named config)
    (plaintext : moved.isPlaintext = true) (found : moved.toConnectionUrl = some url)
    (given : conn ∈ named config)
    (agree : conn.toConnectionUrl.isSome = true → Agree moved conn) :
    Holds keyring (migrate keyring machine (resolvedOf moved configPath url)) conn := by
  obtain ⟨password, held, -⟩ := isPlaintext_iff.mp plaintext
  have known := follows.known inside
  obtain ⟨entry, stored, opened, set, result⟩ | ⟨-, result⟩ :=
    migrate_cases keyring machine held configPath url
  · rw [result]
    cases holds with
    | inFile plain =>
        have after := mem_rewrite known plain
        by_cases same : conn.name = moved.name
        · obtain rfl := eq_of_name given inside same
          rw [rewritten, if_pos rfl] at after
          exact .inKeychain after (Option.isSome_of_eq_some found) held opened (keyring.get_set set)
        · rw [rewritten, if_neg same] at after
          exact .inFile after
    | @inKeychain sentinel resolves other own ownHeld ownOpened kept =>
        have after := mem_rewrite known sentinel
        rw [rewritten_withSentinel] at after
        by_cases same : other = entry
        · subst same
          have usernames := keyring.entry_username opened ownOpened
          have passwords := agree resolves usernames
          rw [held] at passwords
          exact .inKeychain after resolves passwords.symm ownOpened (keyring.get_set set)
        · refine .inKeychain after resolves ownHeld ownOpened ?_
          rw [keyring.get_set_other set same, kept]
  · rw [result]
    exact holds

/-- What a connection's callback is registered with, for a connection of a file. -/
def Registered (config : MultiConfig) (configPath : Text) (resolved : ResolvedConnection) : Prop :=
  ∃ conn ∈ named config, conn.isPlaintext = true ∧
    ∃ url, conn.toConnectionUrl = some url ∧ resolvedOf conn configPath url = resolved

theorem follows_migrateAll {config : MultiConfig} {configPath : Text}
    {order : List ResolvedConnection}
    (registered : ∀ resolved ∈ order, Registered config configPath resolved)
    {machine : Machine Chain} (follows : Follows config machine) :
    Follows config (migrateAll keyring machine order) := by
  induction order generalizing machine with
  | nil => exact follows
  | cons resolved order ih =>
      obtain ⟨moved, inside, plaintext, url, -, rfl⟩ := registered resolved List.mem_cons_self
      obtain ⟨password, held, -⟩ := isPlaintext_iff.mp plaintext
      exact ih (fun later member => registered later (List.mem_cons_of_mem _ member))
        (follows.migrate inside held)

theorem holds_migrateAll {config : MultiConfig} {configPath : Text}
    {order : List ResolvedConnection}
    (registered : ∀ resolved ∈ order, Registered config configPath resolved)
    {machine : Machine Chain} (follows : Follows config machine) {conn : NamedConnection}
    (given : conn ∈ named config)
    (agree : ∀ moved ∈ named config, Migrates moved → conn.toConnectionUrl.isSome = true →
      Agree moved conn) (holds : Holds keyring machine conn) :
    Holds keyring (migrateAll keyring machine order) conn := by
  induction order generalizing machine with
  | nil => exact holds
  | cons resolved order ih =>
      obtain ⟨moved, inside, plaintext, url, found, rfl⟩ := registered resolved List.mem_cons_self
      obtain ⟨password, held, -⟩ := isPlaintext_iff.mp plaintext
      have resolves : Migrates moved := ⟨plaintext, Option.isSome_of_eq_some found⟩
      exact ih (fun later member => registered later (List.mem_cons_of_mem _ member))
        (follows.migrate inside held)
        (holds.migrate follows inside plaintext found given (agree moved inside resolves))

/-- The keychain takes every password. -/
def Accepting (keyring : Keyring Chain Entry Error) : Prop :=
  ∀ chain username password, ∃ entry stored,
    keyring.entry keyringService username = .ok entry ∧
      keyring.setPassword chain entry password = .ok stored

theorem sentinel_moved (accepting : Accepting keyring) {machine : Machine Chain}
    {config : MultiConfig} {moved : NamedConnection} {password configPath url : Text}
    (follows : Follows config machine) (inside : moved ∈ named config)
    (held : moved.password = some password) :
    moved.withSentinel ∈
      named (migrate keyring machine (resolvedOf moved configPath url)).config := by
  obtain ⟨entry, stored, -, -, result⟩ | ⟨refused, -⟩ :=
    migrate_cases keyring machine held configPath url
  · rw [result]
    have known := follows.known inside
    obtain plain | sentinel := follows.present moved inside
    · have after := mem_rewrite known plain
      rw [rewritten, if_pos rfl] at after
      exact after
    · have after := mem_rewrite known sentinel
      rw [rewritten_withSentinel] at after
      exact after
  · exact absurd (accepting machine.chain moved.keyringUsername password) refused

/-- After a run of the callbacks each of their connections has the sentinel. -/
theorem sentinel_migrateAll (accepting : Accepting keyring) {config : MultiConfig}
    {configPath : Text} {order : List ResolvedConnection}
    (registered : ∀ resolved ∈ order, Registered config configPath resolved)
    {machine : Machine Chain} (follows : Follows config machine) {conn : NamedConnection}
    (moves : conn.withSentinel ∈ named machine.config ∨
      conn ∈ named config ∧ ∃ url, resolvedOf conn configPath url ∈ order) :
    conn.withSentinel ∈ named (migrateAll keyring machine order).config := by
  induction order generalizing machine with
  | nil =>
      obtain sentinel | ⟨-, url, member⟩ := moves
      · exact sentinel
      · exact absurd member List.not_mem_nil
  | cons resolved order ih =>
      obtain ⟨moved, inside, plaintext, url, -, rfl⟩ := registered resolved List.mem_cons_self
      obtain ⟨password, held, -⟩ := isPlaintext_iff.mp plaintext
      refine ih (fun later member => registered later (List.mem_cons_of_mem _ member))
        (follows.migrate inside held) ?_
      obtain sentinel | ⟨given, other, member⟩ := moves
      · exact .inl (sentinel_migrate held (follows.known inside) sentinel)
      · obtain same | later := List.mem_cons.mp member
        · obtain rfl := eq_of_name given inside (congrArg ResolvedConnection.name same)
          exact .inl (sentinel_moved accepting follows inside held)
        · exact .inr ⟨given, other, later⟩

/-- Every connection of a file that had a plaintext password is resolved with
it afterwards. -/
def Conserved (keyring : Keyring Chain Entry Error) (config : MultiConfig)
    (after : Machine Chain) : Prop :=
  ∀ conn ∈ named config, conn.isPlaintext = true →
    ∃ later ∈ named after.config, later.name = conn.name ∧
      resolvePassword keyring after.chain later keyringService = .ok conn.password

instance {Chain Entry Error : Type} [DecidableEq Error] (keyring : Keyring Chain Entry Error)
    (config : MultiConfig) (after : Machine Chain) : Decidable (Conserved keyring config after) :=
  inferInstanceAs (Decidable (∀ conn ∈ named config, conn.isPlaintext = true →
    ∃ later ∈ named after.config, later.name = conn.name ∧
      resolvePassword keyring after.chain later keyringService = .ok conn.password))

theorem resolvePassword_withSentinel {conn : NamedConnection} (plaintext : conn.isPlaintext = true)
    (chain : Chain) : resolvePassword keyring chain conn.withSentinel keyringService =
      some <$> lookUpPassword keyring chain conn.keyringUsername keyringService := by
  obtain ⟨password, held, -⟩ := isPlaintext_iff.mp plaintext
  have sentinel : conn.withSentinel.isSentinel = true := by
    rw [NamedConnection.isSentinel, NamedConnection.withSentinel, held]
    rfl
  rw [resolvePassword, sentinel]
  rfl

theorem Holds.resolves {machine : Machine Chain} {conn : NamedConnection}
    (holds : Holds keyring machine conn) (plaintext : conn.isPlaintext = true) :
    ∃ later ∈ named machine.config, later.name = conn.name ∧
      resolvePassword keyring machine.chain later keyringService = .ok conn.password := by
  cases holds with
  | inFile inside => exact ⟨conn, inside, rfl, resolvePassword_plaintext plaintext machine.chain⟩
  | inKeychain inside resolves held opened kept =>
      refine ⟨conn.withSentinel, inside, rfl, ?_⟩
      rw [resolvePassword_withSentinel plaintext, lookUpPassword, Gaussdb.readKeyringPassword, opened, held]
      simp only [kept]
      rfl

/-- Whatever the keychain refuses, passwords that do not get in each other's way
are conserved. -/
theorem conserved_of_agree {machine : Machine Chain} {configPath : Text}
    {order : List ResolvedConnection}
    (registered : ∀ resolved ∈ order, Registered machine.config configPath resolved)
    (agree : ∀ first ∈ named machine.config, ∀ second ∈ named machine.config,
      Migrates first → Migrates second → Agree first second) :
    Conserved keyring machine.config (migrateAll keyring machine order) := by
  intro conn given plaintext
  have start : Follows machine.config machine := ⟨rfl, fun conn inside => .inl inside⟩
  refine Holds.resolves (holds_migrateAll registered start given ?_ (.inFile given)) plaintext
  intro moved inside moves resolves
  exact agree moved inside conn given moves ⟨plaintext, resolves⟩

theorem agree_of_conserved (accepting : Accepting keyring) {machine : Machine Chain}
    {configPath : Text} {order : List ResolvedConnection}
    (registered : ∀ resolved ∈ order, Registered machine.config configPath resolved)
    (complete : ∀ conn ∈ named machine.config, Migrates conn →
      ∃ url, resolvedOf conn configPath url ∈ order)
    (conserved : Conserved keyring machine.config (migrateAll keyring machine order)) :
    ∀ first ∈ named machine.config, ∀ second ∈ named machine.config,
      Migrates first → Migrates second → Agree first second := by
  have start : Follows machine.config machine := ⟨rfl, fun conn inside => .inl inside⟩
  -- the keychain's answer for a moved connection is its password
  have answers : ∀ conn ∈ named machine.config, Migrates conn →
      some <$> lookUpPassword keyring (migrateAll keyring machine order).chain conn.keyringUsername
        keyringService = .ok conn.password := by
    intro conn given moves
    have moved := sentinel_migrateAll accepting registered start
      (.inr ⟨given, complete conn given moves⟩)
    obtain ⟨later, inside, same, resolves⟩ := conserved conn given moves.plaintext
    obtain rfl := eq_of_name inside moved same
    rw [resolvePassword_withSentinel moves.plaintext] at resolves
    exact resolves
  intro first inFirst second inSecond firstMoves secondMoves same
  have firstAnswer := answers first inFirst firstMoves
  rw [same, answers second inSecond secondMoves] at firstAnswer
  exact (Except.ok.inj firstAnswer).symm

end Callbacks

/-- A keychain in memory, as the `keyring` crate has one for tests. -/
def inMemory : Keyring (List ((Text × Text) × Text)) (Text × Text) Unit where
  entry service username := .ok (service, username)
  getPassword chain entry :=
    match chain.lookup entry with
    | some password => .ok password
    | none => .error ()
  setPassword chain entry password := .ok ((entry, password) :: chain)
  display _ := "No matching entry found in secure storage".toList
  entry_username := by
    intro service username other found opened same
    rw [← Except.ok.inj same] at opened
    exact congrArg Prod.snd (Except.ok.inj opened)
  get_set := by
    intro chain stored found password set
    rw [← Except.ok.inj set, List.lookup_cons_self]
  get_set_other := by
    intro chain stored found other password set apart
    have unequal : (other == found) = false := beq_eq_false_iff_ne.mpr apart
    rw [← Except.ok.inj set, List.lookup_cons, unequal]

/-- Two servers of one host, with their own passwords. -/
def twoPorts : MultiConfig where
  connections :=
    [("a".toList, { host := some "db".toList, port := some 5432, user := some "u".toList,
                    password := some "first".toList, dbname := some "app".toList }),
     ("b".toList, { host := some "db".toList, port := some 5433, user := some "u".toList,
                    password := some "second".toList, dbname := some "app".toList })]

/-- Two users of one host. -/
def twoUsers : MultiConfig where
  connections :=
    [("a".toList, { host := some "db".toList, port := some 5432, user := some "u".toList,
                    password := some "first".toList, dbname := some "app".toList }),
     ("b".toList, { host := some "db".toList, port := some 5432, user := some "v".toList,
                    password := some "second".toList, dbname := some "app".toList })]

def configPath : Text := ".gaussdb.toml".toList

end OpenGauss.Mcp
