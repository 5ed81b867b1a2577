import OpenGauss.Gaussdb.Resolution
import OpenGauss.Gaussdb.Rewrite

/-! A configuration file with all its settings (`gaussdb`, `config.rs`). -/

set_option autoImplicit false

namespace OpenGauss.Gaussdb

open Driver

/-- A configuration file as it is read, with the timeouts. The settings outside
of the connections are kept as those of one connection, without a name. -/
@[ext]
structure TimedMultiConfig where
  flat : TimedConnection := {}
  defaultConnection : Option Text := none
  connections : List (Text × TimedConnection) := []
  sorted : (connections.map Prod.fst).Pairwise (· < ·) := by decide

namespace TimedMultiConfig

/-- What the file says besides the timeouts. -/
def toMultiConfig (config : TimedMultiConfig) : MultiConfig where
  url := config.flat.url
  host := config.flat.host
  port := config.flat.port
  user := config.flat.user
  password := config.flat.password
  dbname := config.flat.dbname
  sslmode := config.flat.sslmode
  defaultConnection := config.defaultConnection
  connections := config.connections.map fun entry => (entry.1, entry.2.toNamedConnection)
  sorted := by
    have names : (config.connections.map fun entry => (entry.1, entry.2.toNamedConnection)).map
        Prod.fst = config.connections.map Prod.fst := by
      rw [List.map_map]
      rfl
    rw [names]
    exact config.sorted

/-- `resolve`. -/
def resolve (config : TimedMultiConfig) : Except Text (List TimedConnection × Option Text) :=
  if !config.connections.isEmpty then
    let default := config.defaultConnection <|> config.connections.head?.map Prod.fst
    .ok (config.connections.map fun entry => { entry.2 with name := entry.1 }, default)
  else if config.flat.host.isNone && config.flat.user.isNone && config.flat.url.isNone then
    .error "config must contain either [connections.<name>] or flat host/user fields".toList
  else .ok ([{ config.flat with name := "default".toList }], some "default".toList)

/-- The password of a connection: the flat one, where there are no others. -/
def passwordOf (config : TimedMultiConfig) (name : Text) : Option Text :=
  if config.connections.isEmpty then config.flat.password
  else (config.connections.lookup name).bind fun conn => conn.password

end TimedMultiConfig

/-- The sentinel in the place of the password. -/
def TimedConnection.withSentinel (conn : TimedConnection) : TimedConnection :=
  { conn with password := conn.password.map fun _ => keyringSentinel }

/-- What the file says once the password of a connection is in the keychain. -/
def TimedMultiConfig.withSentinel (config : TimedMultiConfig) (name : Text) : TimedMultiConfig :=
  if config.connections.isEmpty then { config with flat := config.flat.withSentinel }
  else
    { config with
      connections := config.connections.map fun entry =>
        (entry.1, if entry.1 = name then entry.2.withSentinel else entry.2)
      sorted := by
        have names : (config.connections.map fun entry =>
            (entry.1, if entry.1 = name then entry.2.withSentinel else entry.2)).map Prod.fst =
            config.connections.map Prod.fst := by
          rw [List.map_map]
          rfl
        rw [names]
        exact config.sorted }

theorem TimedMultiConfig.toMultiConfig_withSentinel (config : TimedMultiConfig) (name : Text) :
    (config.withSentinel name).toMultiConfig =
      config.toMultiConfig.rewritePasswordToSentinel name := by
  cases connections : config.connections with
  | nil =>
      have empty : config.toMultiConfig.connections.isEmpty = true := by
        simp [toMultiConfig, connections]
      rw [withSentinel, MultiConfig.rewritePasswordToSentinel, if_pos empty,
        if_pos (by rw [connections]; rfl)]
      rfl
  | cons entry others =>
      have some : ¬config.toMultiConfig.connections.isEmpty = true := by
        simp [toMultiConfig, connections]
      rw [withSentinel, MultiConfig.rewritePasswordToSentinel, if_neg some,
        if_neg (by rw [connections]; exact Bool.false_ne_true)]
      simp only [toMultiConfig, List.map_map]
      congr 1
      apply List.map_congr_left
      intro entry _
      simp only [Function.comp]
      split <;> rfl

end OpenGauss.Gaussdb
