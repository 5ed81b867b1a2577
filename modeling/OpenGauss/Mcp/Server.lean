import Mathlib.Logic.Function.Basic
import OpenGauss.Driver.Config
import OpenGauss.Gaussdb.Timeouts

/-! The connections of the server and the tool calls that share them
(`gaussdb-mcp`, `server.rs`). A call runs from one point where it waits to the
next one; the lock of the connections is held within such a run only. What a
call waits for is an input of the step that resumes it. -/

set_option autoImplicit false

namespace OpenGauss.Mcp

open Driver Gaussdb

/-- The clients are numbered in the order in which they are opened. -/
abbrev Client := Nat

inductive ConnectionState where
  /-- What the resolver answers is an input of the step that calls it. -/
  | pending
  | connecting (url : Text) (timeoutConfig : TimeoutConfig)
  | connected (client : Client) (url : Text) (timeoutConfig : TimeoutConfig) (connectedAt : Nat)
  | unavailable (url : Text)
  deriving DecidableEq, Repr

/-- The errors of a query that `handle_query_error` tells apart. -/
inductive QueryError where
  /-- a database error with the code of a cancelled query -/
  | queryCanceled
  /-- another database error -/
  | database
  /-- no database error: the connection -/
  | connection
  deriving DecidableEq, Repr

inductive McpError where
  | unknownConnection (name : Text)
  | unresolved (name message : Text)
  | connection (url message : Text)
  | query (error : QueryError)
  deriving DecidableEq, Repr

/-- Where a call waits. -/
inductive Phase where
  /-- for the lock, in `get_client_for` or in `try_connect` -/
  | starting
  /-- for the resolver -/
  | resolving
  /-- for `do_connect` -/
  | connecting (url : Text) (timeoutConfig : TimeoutConfig)
  /-- for the lock, with the answer of `do_connect` -/
  | opened (url : Text) (timeoutConfig : TimeoutConfig) (result : Except Text Client)
  /-- for a query on the client that `get_client_for` returned -/
  | querying (client : Client)
  /-- for the lock, in `downgrade_on_error` -/
  | failed (client : Client) (error : QueryError)
  | finished (result : Except McpError Unit)
  deriving DecidableEq, Repr

structure Call where
  name : Text
  /-- the startup probe, and not a tool call -/
  probe : Bool
  phase : Phase
  deriving DecidableEq, Repr

/-- What is set before the server runs. -/
structure Settings where
  defaultName : Text
  timeoutConfigs : Text → Option TimeoutConfig

def Settings.timeoutConfig (settings : Settings) (name : Text) : TimeoutConfig :=
  (settings.timeoutConfigs name).getD TimeoutConfig.default

def Settings.timeoutAction (settings : Settings) (name : Text) : TimeoutAction :=
  ((settings.timeoutConfigs name).map TimeoutConfig.timeoutAction).getD .cancel

structure Server where
  connections : Text → Option ConnectionState
  calls : Nat → Option Call
  /-- the clients whose connection is closed -/
  closed : List Client
  /-- how many clients have been opened -/
  clients : Nat
  now : Nat

namespace Server

def insert (server : Server) (name : Text) (state : ConnectionState) : Server :=
  { server with connections := Function.update server.connections name (some state) }

def setCall (server : Server) (id : Nat) (call : Call) : Server :=
  { server with calls := Function.update server.calls id (some call) }

/-- `try_connect`, up to `do_connect`. -/
def tryConnect (server : Server) (name : Text) : Server × Phase :=
  match server.connections name with
  | some (.connecting url timeoutConfig) => (server, .connecting url timeoutConfig)
  | _ => (server, .finished (.ok ()))

/-- `get_client_for`, up to `do_connect` or to its result. -/
def getClientFor (settings : Settings) (server : Server) (name : Text) : Server × Phase :=
  match server.connections name with
  | some (.connected client url timeoutConfig connectedAt) =>
      if client ∉ server.closed then
        match timeoutConfig.connectionMaxLifetime with
        | some maxLifetime =>
            if maxLifetime ≤ server.now - connectedAt then
              (server.insert name (.connecting url timeoutConfig),
                .connecting url (settings.timeoutConfig name))
            else (server, .querying client)
        | none => (server, .querying client)
      else
        (server.insert name (.connecting url timeoutConfig),
          .connecting url (settings.timeoutConfig name))
  | some .pending => (server, .resolving)
  | some (.connecting url _) => (server, .connecting url (settings.timeoutConfig name))
  | some (.unavailable url) => (server, .connecting url (settings.timeoutConfig name))
  | none => (server, .finished (.error (.unknownConnection name)))

/-- What `try_connect` and `connect_with_url` do once `do_connect` has answered. -/
def storeResult (server : Server) (call : Call) (url : Text) (timeoutConfig : TimeoutConfig)
    (result : Except Text Client) : Server × Phase :=
  match result with
  | .ok client =>
      (server.insert call.name (.connected client url timeoutConfig server.now),
        if call.probe then .finished (.ok ()) else .querying client)
  | .error message =>
      (server.insert call.name (.unavailable url),
        .finished (if call.probe then .ok () else .error (.connection url message)))

def downgradeOnError (server : Server) (name : Text) : Server :=
  match server.connections name with
  | some (.connected _ url timeoutConfig _) => server.insert name (.connecting url timeoutConfig)
  | _ => server

end Server

/-- Whether `handle_query_error` downgrades the connection. -/
def downgrades (settings : Settings) (name : Text) (error : QueryError) : Bool :=
  match error with
  | .queryCanceled => settings.timeoutAction name = .disconnect
  | .database => false
  | .connection => true

inductive Event where
  /-- a tool is called -/
  | called (id : Nat) (connectionName : Option Text)
  | probed (id : Nat)
  /-- a call that waits for the lock gets it -/
  | locked (id : Nat)
  | resolved (id : Nat) (result : Except Text Text)
  | connected (id : Nat) (result : Except Text Unit)
  | queried (id : Nat) (result : Except QueryError Unit)
  /-- a tool has run all its queries -/
  | answered (id : Nat)
  | closed (client : Client)
  | passed (time : Nat)
  deriving DecidableEq, Repr

namespace Server

/-- What a call does with the lock, up to the next point where it waits. -/
def locked (settings : Settings) (server : Server) (call : Call) : Option (Server × Phase) :=
  match call.phase with
  | .starting =>
      some (if call.probe then server.tryConnect call.name
        else server.getClientFor settings call.name)
  | .opened url timeoutConfig result => some (server.storeResult call url timeoutConfig result)
  | .failed _ error =>
      some (server.downgradeOnError call.name, .finished (.error (.query error)))
  | _ => none

/-- A step of one call. -/
def resume (settings : Settings) (server : Server) (call : Call) : Event →
    Option (Server × Phase)
  | .locked _ => server.locked settings call
  | .resolved _ result =>
      match call.phase, result with
      | .resolving, .ok url =>
          some (server, .connecting url (settings.timeoutConfig call.name))
      | .resolving, .error message =>
          some (server, .finished (.error (.unresolved call.name message)))
      | _, _ => none
  | .connected _ result =>
      match call.phase, result with
      | .connecting url timeoutConfig, .ok () =>
          some ({ server with clients := server.clients + 1 },
            .opened url timeoutConfig (.ok server.clients))
      | .connecting url timeoutConfig, .error message =>
          some (server, .opened url timeoutConfig (.error message))
      | _, _ => none
  | .queried _ result =>
      match call.phase, result with
      | .querying client, .ok () => some (server, .querying client)
      | .querying client, .error error =>
          some (server, if downgrades settings call.name error then .failed client error
            else .finished (.error (.query error)))
      | _, _ => none
  | .answered _ =>
      match call.phase with
      | .querying _ => some (server, .finished (.ok ()))
      | _ => none
  | _ => none

def begin (server : Server) (id : Nat) (name : Text) (probe : Bool) : Option Server :=
  if (server.calls id).isSome then none
  else some (server.setCall id { name, probe, phase := .starting })

def step (settings : Settings) (server : Server) (event : Event) : Option Server :=
  match event with
  | .called id connectionName =>
      server.begin id (connectionName.getD settings.defaultName) false
  | .probed id => server.begin id settings.defaultName true
  | .closed client => some { server with closed := client :: server.closed }
  | .passed time => some { server with now := server.now + time }
  | .locked id | .resolved id _ | .connected id _ | .queried id _ | .answered id =>
      match server.calls id with
      | none => none
      | some call =>
          match server.resume settings call event with
          | none => none
          | some (next, phase) => some (next.setCall id { call with phase })

end Server

end OpenGauss.Mcp
