import OpenGauss.Gaussdb.Sslmode

/-! Passwords in the keychain of the operating system, and the connections of a
configuration file that are resolved through it (`gaussdb`, `config.rs`). -/

set_option autoImplicit false

namespace OpenGauss.Gaussdb

open Driver

/-- The credential store behind `keyring::Entry`: an entry holds the password
that was set last, and setting it leaves the other entries as they are. -/
structure Keyring (Chain Entry Error : Type) where
  entry : Text → Text → Except Error Entry
  getPassword : Chain → Entry → Except Error Text
  setPassword : Chain → Entry → Text → Except Error Chain
  display : Error → Text
  entry_username {service username other : Text} {found : Entry} :
    entry service username = .ok found → entry service other = .ok found → username = other
  get_set {chain stored : Chain} {found : Entry} {password : Text} :
    setPassword chain found password = .ok stored → getPassword stored found = .ok password
  get_set_other {chain stored : Chain} {found other : Entry} {password : Text} :
    setPassword chain found password = .ok stored → other ≠ found →
      getPassword stored other = getPassword chain other

inductive ConfigError (Error : Type) where
  | keyring (username : Text) (source : Error)
  | generic (message : Text)
  deriving DecidableEq, Repr

def defaultKeyringService : Text := "gaussdb".toList

def legacyKeyringService : Text := "gaussdb-mcp".toList

section Helpers

variable {Chain Entry Error : Type} (keyring : Keyring Chain Entry Error)

def readKeyringPassword (chain : Chain) (username service : Text) :
    Except (ConfigError Error) Text :=
  match keyring.entry service username with
  | .error source => .error (.keyring username source)
  | .ok entry =>
      match keyring.getPassword chain entry with
      | .error source =>
          .error (.generic ("keyring entry not found for user '".toList ++ username ++
            "'; ensure password is stored: ".toList ++ keyring.display source))
      | .ok password => .ok password

/-- The keychain after the call, and its result. -/
def storeKeyringPassword (chain : Chain) (username password service : Text) :
    Chain × Except (ConfigError Error) Unit :=
  match keyring.entry service username with
  | .error source => (chain, .error (.keyring username source))
  | .ok entry =>
      match keyring.setPassword chain entry password with
      | .error source => (chain, .error (.keyring username source))
      | .ok stored =>
          match keyring.getPassword stored entry with
          | .error source =>
              (stored, .error (.generic ("keyring verification failed ".toList ++
                "(password was stored but cannot be read back): ".toList ++
                keyring.display source)))
          | .ok verified =>
              if verified ≠ password then
                (stored, .error (.generic
                  "keyring verification failed: read-back mismatch".toList))
              else (stored, .ok ())

end Helpers

inductive PasswordSource where
  | envVar
  | plaintext
  | keyring
  | none
  deriving DecidableEq, Repr

structure ResolvedConnection where
  name : Text
  connectionUrl : Text
  configPath : Option Text
  plaintextPassword : Option Text
  keyringUsername : Text
  passwordSource : PasswordSource
  sslmode : SslMode
  deriving DecidableEq, Repr

namespace NamedConnection

def isSentinel (conn : NamedConnection) : Bool := conn.password = some keyringSentinel

def isPlaintext (conn : NamedConnection) : Bool :=
  conn.password.any fun password => password ≠ keyringSentinel

def hasNoPassword (conn : NamedConnection) : Bool := conn.password.isNone

def passwordSource (conn : NamedConnection) : PasswordSource :=
  if conn.isPlaintext then .plaintext
  else if conn.isSentinel then .keyring
  else .none

end NamedConnection

section Resolution

variable {Chain Entry Error : Type} (keyring : Keyring Chain Entry Error)

/-- The keychain's password for a user, under the legacy service where the
default one has none. -/
def lookUpPassword (chain : Chain) (username service : Text) : Except (ConfigError Error) Text :=
  match readKeyringPassword keyring chain username service with
  | .ok password => .ok password
  | .error error =>
      if service = defaultKeyringService then
        readKeyringPassword keyring chain username legacyKeyringService
      else .error error

/-- The password that a connection is resolved with. -/
def resolvePassword (chain : Chain) (conn : NamedConnection) (service : Text) :
    Except (ConfigError Error) (Option Text) :=
  if conn.isSentinel || conn.hasNoPassword then
    some <$> lookUpPassword keyring chain conn.keyringUsername service
  else .ok conn.password

def resolveSingleConnection (chain : Chain) (conn : NamedConnection) (configPath : Option Text)
    (service : Text) : Except (ConfigError Error) ResolvedConnection := do
  let password ← resolvePassword keyring chain conn service
  let plaintextPassword := if conn.isPlaintext then conn.password else none
  match { conn with password }.toConnectionUrl with
  | none =>
      .error (.generic ("connection '".toList ++ conn.name ++
        "' must contain either `url` or at least `host`/`user` fields".toList))
  | some connectionUrl =>
      .ok { name := conn.name
            connectionUrl
            configPath
            plaintextPassword
            keyringUsername := conn.keyringUsername
            passwordSource := conn.passwordSource
            sslmode := conn.sslmode.elim .disable fun value => sslmodeFromValue (some value) }

end Resolution

/-- A configuration file as it is read. The connections stand in the order of
their names. -/
structure MultiConfig where
  url : Option Text := none
  host : Option Text := none
  port : Option UInt16 := none
  user : Option Text := none
  password : Option Text := none
  dbname : Option Text := none
  sslmode : Option Text := none
  defaultConnection : Option Text := none
  connections : List (Text × NamedConnection) := []
  sorted : (connections.map Prod.fst).Pairwise (· < ·) := by decide

namespace MultiConfig

def resolve (config : MultiConfig) : Except Text (List NamedConnection × Option Text) :=
  if !config.connections.isEmpty then
    let default := config.defaultConnection <|> config.connections.head?.map Prod.fst
    .ok (config.connections.map fun (name, conn) => { conn with name }, default)
  else if config.host.isNone && config.user.isNone && config.url.isNone then
    .error "config must contain either [connections.<name>] or flat host/user fields".toList
  else
    let single : NamedConnection :=
      { name := "default".toList
        url := config.url
        host := config.host
        port := config.port
        user := config.user
        password := config.password
        dbname := config.dbname
        sslmode := config.sslmode }
    .ok ([single], some "default".toList)

end MultiConfig

end OpenGauss.Gaussdb
