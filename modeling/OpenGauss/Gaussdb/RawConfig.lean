import OpenGauss.Gaussdb.MultiConfig

/-! What is read of a configuration before a connection is resolved (`gaussdb`,
`config.rs`). -/

set_option autoImplicit false

namespace OpenGauss.Gaussdb

open Driver

structure RawConfig where
  connections : List TimedConnection
  defaultName : Text
  configPath : Option Text
  baseTimeout : Option TimeoutConfig
  deriving DecidableEq, Repr

/-- The timeouts outside of the connections. -/
def TimedMultiConfig.flatTimeouts (config : TimedMultiConfig) :
    Except TimeoutError TimeoutConfig :=
  config.flat.timeoutConfig none

/-- `read_config`, with the variable GAUSSDB_URL or else DATABASE_URL, and what
comes of looking for the file, reading it and parsing it. -/
def readConfig (environment : Option Text) (file : Except Text (Text × TimedMultiConfig)) :
    Except Text RawConfig :=
  match environment with
  | some url =>
      .ok { connections := [{ name := "default".toList, url := some url }]
            defaultName := "default".toList
            configPath := none
            baseTimeout := none }
  | none => do
      let (configPath, config) ← file
      let baseTimeout := config.flatTimeouts.toOption
      let (connections, defaultName) ← config.resolve
      let first := (connections.head?.map fun conn => conn.name).getD []
      return { connections
               defaultName := defaultName.getD first
               configPath := some configPath
               baseTimeout }

end OpenGauss.Gaussdb
