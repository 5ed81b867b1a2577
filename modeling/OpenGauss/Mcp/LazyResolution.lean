import OpenGauss.Gaussdb.Resolution
import OpenGauss.Mcp.Config
import OpenGauss.Mcp.Migration

/-! The entries of a server's connections, of which some are resolved when they
are used (`gaussdb-mcp`, `config.rs`). -/

set_option autoImplicit false

namespace OpenGauss.Mcp

open Driver Gaussdb

inductive LazyError (Error : Type) where
  | resolution (error : ResolutionError Error)
  | invalidTimeout (error : TimeoutError)
  | generic (message : Text)
  deriving DecidableEq, Repr

/-- An entry. The resolver reads the keychain as it is when it is called. -/
inductive LazyConnectionEntry (Chain : Type) where
  | ready (resolved : Resolved)
  | pending (name : Text) (resolver : Chain → Except Text Text) (timeoutConfig : TimeoutConfig)

section Entries

variable {Chain Entry Error : Type} (keyring : Keyring Chain Entry Error)

def entryCreationFailed (error : Error) : Text :=
  "keyring entry creation failed: ".toList ++ keyring.display error

def readKeyringPassword (chain : Chain) (username : Text) : Except Text Text :=
  match keyring.entry keyringService username with
  | .error error => .error (entryCreationFailed keyring error)
  | .ok entry =>
      match keyring.getPassword chain entry with
      | .ok password => .ok password
      | .error primary =>
          match keyring.entry legacyKeyringService username with
          | .error error => .error (entryCreationFailed keyring error)
          | .ok legacy =>
              match keyring.getPassword chain legacy with
              | .ok password => .ok password
              | .error _ =>
                  .error ("keyring password not found for '".toList ++ username ++
                    ("'. Store it first:\n  gaussdb store-password <password> --config <path>\n" ++
                      "  or set password in config file as plaintext " ++
                      "(will be migrated automatically).\n  Keyring error: ").toList ++
                    keyring.display primary)

/-- The closure that `build_lazy_resolver` leaves in a pending entry. -/
def pendingResolver (conn : NamedConnection) (chain : Chain) : Except Text Text := do
  let password ←
    if conn.isSentinel then some <$> readKeyringPassword keyring chain conn.keyringUsername
    else pure none
  let parts := part "host" conn.host ++ part "port" (conn.port.map decimal) ++
    part "user" conn.user ++ part "password" password ++ part "dbname" conn.dbname ++
    part "sslmode" conn.sslmode
  return [' '].intercalate parts

def buildLazyResolver (chain : Chain) (conn : TimedConnection) (configPath : Option Text)
    (baseTimeout : Option TimeoutConfig) : Except (LazyError Error) (LazyConnectionEntry Chain) :=
  if conn.isPlaintext || conn.url.isSome then
    match conn.resolveSingleConnection keyring chain configPath baseTimeout keyringService with
    | .error error => .error (.resolution error)
    | .ok resolved => .ok (.ready resolved)
  else if conn.host.isNone && conn.user.isNone then
    .error (.generic ("connection '".toList ++ conn.name ++
      "' must contain either `url` or at least `host`/`user` fields".toList))
  else
    match conn.timeoutConfig baseTimeout with
    | .error error => .error (.invalidTimeout error)
    | .ok timeoutConfig =>
        .ok (.pending conn.name (pendingResolver keyring conn.toNamedConnection) timeoutConfig)

end Entries

end OpenGauss.Mcp
