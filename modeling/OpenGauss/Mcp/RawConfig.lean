import OpenGauss.Gaussdb.RawConfig
import OpenGauss.Mcp.LazyResolution

/-! What the server reads of its configuration (`gaussdb-mcp`, `config.rs`). -/

set_option autoImplicit false

namespace OpenGauss.Mcp

open Driver Gaussdb

structure McpRawConfig where
  connections : List TimedConnection
  defaultName : Text
  configPath : Option Text
  baseTimeout : Option TimeoutConfig
  isEnvVar : Bool
  deriving DecidableEq, Repr

/-- `read_config`, as the crate `gaussdb` has it. -/
def readConfig (environment : Option Text) (file : Except Text (Text × TimedMultiConfig)) :
    Except Text McpRawConfig :=
  match environment with
  | some url =>
      .ok { connections := [{ name := "default".toList, url := some url }]
            defaultName := "default".toList
            configPath := none
            baseTimeout := none
            isEnvVar := true }
  | none => do
      let (configPath, config) ← file
      let baseTimeout := config.flatTimeouts.toOption
      let (connections, defaultName) ← config.resolve
      let first := (connections.head?.map fun conn => conn.name).getD []
      return { connections
               defaultName := defaultName.getD first
               configPath := some configPath
               baseTimeout
               isEnvVar := false }

def LazyConnectionEntry.timeoutConfig {Chain : Type} : LazyConnectionEntry Chain → TimeoutConfig
  | .ready resolved => resolved.timeoutConfig
  | .pending _ _ timeoutConfig => timeoutConfig

end OpenGauss.Mcp
