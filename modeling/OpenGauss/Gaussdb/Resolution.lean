import OpenGauss.Gaussdb.Keyring
import OpenGauss.Gaussdb.Timeouts

/-! Connections with their timeouts, and how one is opened (`gaussdb`,
`config.rs`). -/

set_option autoImplicit false

namespace OpenGauss.Gaussdb

open Driver

/-- A named connection with all its settings. -/
structure TimedConnection extends NamedConnection where
  statementTimeout : Option Text := none
  connectionMaxLifetime : Option Text := none
  timeoutAction : Option Text := none
  deriving DecidableEq, Repr

def TimedConnection.timeoutConfig (conn : TimedConnection) (base : Option TimeoutConfig) :
    Except TimeoutError TimeoutConfig :=
  TimeoutConfig.fromOverrides conn.statementTimeout conn.connectionMaxLifetime conn.timeoutAction base

/-- A resolved connection with its timeouts. -/
structure Resolved extends ResolvedConnection where
  timeoutConfig : TimeoutConfig
  deriving DecidableEq, Repr

inductive ResolutionError (Error : Type) where
  | config (error : ConfigError Error)
  | invalidTimeout (error : TimeoutError)
  deriving DecidableEq, Repr

/-- `resolve_single_connection`: the timeouts are read last. -/
def TimedConnection.resolveSingleConnection {Chain Entry Error : Type}
    (keyring : Keyring Chain Entry Error) (chain : Chain) (conn : TimedConnection)
    (configPath : Option Text) (baseTimeout : Option TimeoutConfig) (service : Text) :
    Except (ResolutionError Error) Resolved :=
  match Gaussdb.resolveSingleConnection keyring chain conn.toNamedConnection configPath service with
  | .error error => .error (.config error)
  | .ok resolved =>
      match conn.timeoutConfig baseTimeout with
      | .error error => .error (.invalidTimeout error)
      | .ok timeoutConfig => .ok { resolved with timeoutConfig }

def resolveEnvVarConnection (url : Text) : Resolved where
  name := "default".toList
  connectionUrl := url
  configPath := none
  plaintextPassword := none
  keyringUsername := []
  passwordSource := .envVar
  sslmode := sslmodeFromUrl url
  timeoutConfig := .default

/-- The connector that a client is opened with. -/
inductive Connector where
  | noTls
  | nativeTls (acceptInvalidCerts acceptInvalidHostnames : Bool)
  deriving DecidableEq, Repr

/-- The configuration and the connector of `connect_async`, for a resolved
connection. -/
def connectAsync (percentDecode : UrlParser.PercentDecode) (resolved : Resolved) :
    Except Driver.Error (Config × Connector) :=
  match resolved.sslmode with
  | .disable => do
      let config ← Config.fromStr percentDecode resolved.connectionUrl
      return ({ config with sslMode := .disable }, .noTls)
  | mode => do
      let acceptInvalidCerts := mode == .prefer || mode == .require
      let acceptInvalidHostnames := mode == .prefer || mode == .require || mode == .verifyCa
      let config ← Config.fromStr percentDecode resolved.connectionUrl
      return ({ config with sslMode := .require },
        .nativeTls acceptInvalidCerts acceptInvalidHostnames)

end OpenGauss.Gaussdb
