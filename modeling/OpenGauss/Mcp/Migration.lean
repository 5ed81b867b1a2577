import OpenGauss.Gaussdb.Rewrite

/-! The migration of plaintext passwords into the keychain (`gaussdb-mcp`,
`main.rs`): one callback for each connection, run when it is first connected. -/

set_option autoImplicit false

namespace OpenGauss.Mcp

open Driver Gaussdb

def keyringService : Text := defaultKeyringService

/-- What the callbacks change: the keychain and the configuration file. -/
structure Machine (Chain : Type) where
  chain : Chain
  config : MultiConfig

section Callbacks

variable {Chain Entry Error : Type} (keyring : Keyring Chain Entry Error)

def migrate (machine : Machine Chain) (resolved : ResolvedConnection) : Machine Chain :=
  match resolved.configPath, resolved.plaintextPassword with
  | some _, some plaintext =>
      match storeKeyringPassword keyring machine.chain resolved.keyringUsername plaintext
        keyringService with
      -- the config file is not modified
      | (chain, .error _) => { machine with chain }
      | (chain, .ok ()) =>
          { chain, config := machine.config.rewritePasswordToSentinel resolved.name }
  | _, _ => machine

def migrateAll (machine : Machine Chain) (order : List ResolvedConnection) : Machine Chain :=
  order.foldl (migrate keyring) machine

/-- The connections of a file, with their names. -/
def named (config : MultiConfig) : List NamedConnection :=
  match config.resolve with
  | .ok (connections, _) => connections
  | .error _ => []

/-- The connections that a callback is registered for: those that resolve, with
a plaintext password. -/
def callbacks (machine : Machine Chain) (configPath : Text) : List ResolvedConnection :=
  ((named machine.config).filterMap fun conn =>
    (resolveSingleConnection keyring machine.chain conn (some configPath) keyringService).toOption).filter
      fun resolved => resolved.plaintextPassword.isSome

end Callbacks

end OpenGauss.Mcp
