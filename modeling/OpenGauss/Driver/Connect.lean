import OpenGauss.Driver.Config
import OpenGauss.Lib.Attempts
import OpenGauss.Lib.IpAddrText

/-! Connecting to one of the hosts of a configuration (`tokio-opengauss`, `connect.rs`). -/

set_option autoImplicit false

namespace OpenGauss.Driver

open Lib Lib.Attempts Protocol

inductive Addr where
  | tcp (ip : IpAddr)
  | unix (path : Bytes)
  deriving DecidableEq, Repr

inductive ConnectError where
  /-- `Error::connect` -/
  | connect (cause : IoError)
  | driver (error : Error)
  deriving DecidableEq, Repr

/-- What `connect` calls: the resolver, the random numbers, and one connection attempt. Each
changes the state of the world. -/
structure Network (World Connected : Type) where
  lookupHost : Text → Nat → World → Except IoError (List IpAddr) × World
  shuffle {Item : Type} : List Item → World → List Item × World
  shuffle_perm {Item : Type} (items : List Item) (world : World) :
    (shuffle items world).1.Perm items
  connectOnce : Addr → Option Text → Nat → Config → World → Except ConnectError Connected × World

/-- What one attempt is made with. -/
structure Target where
  addr : Host
  hostname : Option Text
  port : Nat
  deriving DecidableEq, Repr

namespace Config

/-- The checks of `connect`, and the number of hosts that is left to visit. -/
def numHosts (config : Config) : Except Error Nat :=
  if config.host.isEmpty && config.hostaddr.isEmpty then
    .error (.config "both host and hostaddr are missing")
  else if !config.host.isEmpty && !config.hostaddr.isEmpty &&
      config.host.length != config.hostaddr.length then
    .error (.config ("number of hosts (" ++ toString config.host.length ++
      ") is different from number of hostaddrs (" ++ toString config.hostaddr.length ++ ")"))
  else
    let numHosts := max config.host.length config.hostaddr.length
    if 1 < config.port.length && config.port.length != numHosts then
      .error (.config "invalid number of ports")
    else .ok numHosts

/-- The host, the host name and the port of an index; `none` is a panic. -/
def target (config : Config) (i : Nat) : Option Target := do
  let host := config.host[i]?
  let hostaddr := config.hostaddr[i]?
  let port := (config.port[i]?.or config.port.head?).getD 5432
  let hostname :=
    match host with
    | some (.tcp host) => some host
    | some (.unix _) => none
    | none => none
  let addr ←
    match hostaddr with
    | some ipaddr => some (.tcp ipaddr.display)
    | none => host
  return { addr, hostname, port }

end Config

section

variable {World Connected : Type} (network : Network World Connected) (config : Config)

def call {Value : Type} (answer : World → Value × World) : StateT World Option Value :=
  fun world => some (answer world)

/-- The order in which a list is visited. -/
def visitingOrder {Item : Type} (items : List Item) : StateT World Option (List Item) :=
  if config.loadBalanceHosts = .random then call (network.shuffle items) else return items

def connectHost (target : Target) : StateT World Option (Except ConnectError Connected) :=
  match target.addr with
  | .tcp host => do
      match ← call (network.lookupHost host target.port) with
      | .error cause => return .error (.connect cause)
      | .ok addrs =>
          let addrs ← visitingOrder network config addrs
          let connectOnce addr :=
            call (network.connectOnce (.tcp addr) target.hostname target.port config)
          match ← tryEach connectOnce none addrs with
          | .ok connected => return .ok connected
          | .error lastErr =>
              return .error (lastErr.getD
                (.connect ⟨.invalidInput, "could not resolve any addresses"⟩))
  | .unix path => call (network.connectOnce (.unix path) target.hostname target.port config)

def attemptHost (i : Nat) : StateT World Option (Except ConnectError Connected) := do
  let target ← (config.target i : Option Target)
  connectHost network config target

/-- The loop, with the `unwrap` behind it. -/
def visit (indices : List Nat) : StateT World Option (Except ConnectError Connected) := do
  match ← tryEach (attemptHost network config) none indices with
  | .ok connected => return .ok connected
  | .error (some error) => return .error error
  | .error none => failure

def connect : StateT World Option (Except ConnectError Connected) :=
  match config.numHosts with
  | .error error => return .error (.driver error)
  | .ok numHosts => do
      let indices ← visitingOrder network config (List.range numHosts)
      visit network config indices

end

end OpenGauss.Driver
