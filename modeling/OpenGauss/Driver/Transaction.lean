import OpenGauss.Driver.Config

/-! Transactions (`tokio-opengauss`, `transaction.rs` and
`transaction_builder.rs`): the queries they send, and the client that owns them. -/

set_option autoImplicit false

namespace OpenGauss.Driver

inductive IsolationLevel where
  | readUncommitted
  | readCommitted
  | repeatableRead
  | serializable
  deriving DecidableEq, Repr

structure TransactionBuilder where
  isolationLevel : Option IsolationLevel := none
  readOnly : Option Bool := none
  deferrable : Option Bool := none
  deriving DecidableEq, Repr

namespace TransactionBuilder

def IsolationLevel.text : IsolationLevel → String
  | .readUncommitted => "READ UNCOMMITTED"
  | .readCommitted => "READ COMMITTED"
  | .repeatableRead => "REPEATABLE READ"
  | .serializable => "SERIALIZABLE"

/-- The query of `start`: the modes that are set, with commas between them. -/
def query (builder : TransactionBuilder) : Text :=
  let level := match builder.isolationLevel with
    | some level => " ISOLATION LEVEL " ++ IsolationLevel.text level
    | none => ""
  let first := builder.isolationLevel.isNone
  let readOnly := match builder.readOnly with
    | some readOnly =>
        (if first then "" else ",") ++ (if readOnly then " READ ONLY" else " READ WRITE")
    | none => ""
  let first := first && builder.readOnly.isNone
  let deferrable := match builder.deferrable with
    | some deferrable =>
        (if first then "" else ",") ++ (if deferrable then " DEFERRABLE" else " NOT DEFERRABLE")
    | none => ""
  "START TRANSACTION".toList ++ (level ++ readOnly ++ deferrable).toList

end TransactionBuilder

structure Savepoint where
  name : Text
  depth : Nat
  deriving DecidableEq, Repr

namespace Transaction

/-- The query of `commit`. -/
def commitQuery (savepoint : Option Savepoint) : Text :=
  match savepoint with
  | some sp => "RELEASE ".toList ++ sp.name
  | none => "COMMIT".toList

/-- The query of `rollback`, and of `__private_api_rollback` for a drop. -/
def rollbackQuery (savepoint : Option Savepoint) : Text :=
  match savepoint with
  | some sp => "ROLLBACK TO ".toList ++ sp.name
  | none => "ROLLBACK".toList

/-- The savepoint that `_savepoint` makes inside a transaction. -/
def nestedSavepoint (outer : Option Savepoint) (name : Option Text) : Savepoint :=
  let depth := outer.elim 0 Savepoint.depth + 1
  { name := name.getD ("sp_".toList ++ (toString depth).toList), depth }

def savepointQuery (savepoint : Savepoint) : Text := "SAVEPOINT ".toList ++ savepoint.name

end Transaction

/-! ### A client and the session of its connection -/

namespace Cancellation

/-- What a simple query does to the transaction block of a session. -/
inductive Command where
  | start
  | commit
  | rollback
  | other
  deriving DecidableEq, Repr

def Command.of (text : Text) : Command :=
  if "START TRANSACTION".toList.isPrefixOf text then .start
  else if text = "COMMIT".toList then .commit
  else if text = "ROLLBACK".toList then .rollback
  else .other

/-- A query in the order of sending: the transaction it is sent for, and
whether the server carries it out. -/
structure Request where
  text : Text
  owner : Option Nat
  succeeds : Bool
  deriving DecidableEq, Repr

structure Session where
  /-- The transaction whose block the session is in. -/
  block : Option Nat := none
  /-- A statement of the block has failed. -/
  aborted : Bool := false
  committed : List Nat := []
  /-- For each rollback of a block, who has sent it and whose block it was. -/
  rolledBack : List (Option Nat × Nat) := []
  deriving DecidableEq, Repr

/-- What the server makes of a query. A commit ends the block even when the
server cannot carry it out. -/
def Session.process (session : Session) (request : Request) : Session :=
  match Command.of request.text, session.block with
  | .start, none =>
      if request.succeeds then { session with block := request.owner, aborted := false }
      else session
  | .start, some _ => session
  | .commit, none => session
  | .commit, some id =>
      { session with
        block := none
        committed :=
          if session.aborted || !request.succeeds then session.committed
          else session.committed ++ [id] }
  | .rollback, none => session
  | .rollback, some id =>
      { session with
        block := none
        rolledBack := session.rolledBack ++ [(request.owner, id)] }
  | .other, none => session
  | .other, some _ => { session with aborted := session.aborted || !request.succeeds }

/-- The session after the queries sent so far. -/
def Session.after (log : List Request) : Session := log.foldl Session.process {}

/-- How a `Transaction` is consumed. -/
inductive Finish where
  | commit
  | rollback
  deriving DecidableEq, Repr

def Finish.query : Finish → Text
  | .commit => Transaction.commitQuery none
  | .rollback => Transaction.rollbackQuery none

/-- The value that borrows the client: a future of `start`, `commit` or
`rollback`, before its first poll or at its await point, or a `Transaction`. -/
inductive Handle where
  | free
  | startCreated (builder : TransactionBuilder)
  | starting (id : Nat) (succeeds : Bool)
  | transaction (id : Nat)
  | finishCreated (finish : Finish) (id : Nat)
  | finishing (finish : Finish) (id : Nat)
  deriving DecidableEq, Repr

structure System where
  handle : Handle := .free
  log : List Request := []
  /-- The connection no longer takes requests. -/
  closed : Bool := false
  started : Nat := 0
  /-- The transactions whose commit future has been polled. -/
  commitsPolled : List Nat := []

/-- The block the session is in. A session ends with its connection, and the
server rolls back what it was doing. -/
def System.block (system : System) : Option Nat :=
  if system.closed then none else (Session.after system.log).block

inductive Event where
  /-- `Client::transaction`, or `start` of a builder: the future is made. -/
  | start (builder : TransactionBuilder)
  /-- `Transaction::commit` and `Transaction::rollback`: the future is made. -/
  | finish (finish : Finish)
  /-- The first poll of a future, which sends its query. -/
  | poll (succeeds : Bool)
  /-- The future at its await point completes. -/
  | complete (ok : Bool)
  /-- The future or the `Transaction` is dropped. -/
  | drop
  /-- A statement of the user. -/
  | execute (text : Text) (succeeds : Bool)
  | close
  deriving DecidableEq, Repr

/-- `InnerClient::send`. -/
def System.send (system : System) (request : Request) : System :=
  if system.closed then system else { system with log := system.log ++ [request] }

/-- `__private_api_rollback(None)`. -/
def System.sendRollback (system : System) (id : Nat) (succeeds : Bool) : System :=
  system.send ⟨Transaction.rollbackQuery none, some id, succeeds⟩

/-- The first poll of the future of `start`: the guard exists from here on. -/
def pollStart (system : System) (builder : TransactionBuilder) (succeeds : Bool) : System :=
  if system.closed then { system with handle := .free }
  else
    { system.send ⟨builder.query, some system.started, succeeds⟩ with
      handle := .starting system.started succeeds
      started := system.started + 1 }

/-- The first poll of the future of `commit` or `rollback`, which sets `done`. -/
def pollFinish (system : System) (finish : Finish) (id : Nat) (succeeds : Bool) : System :=
  { system.send ⟨finish.query, some id, succeeds⟩ with
    handle := if system.closed then .free else .finishing finish id
    commitsPolled :=
      if finish = .commit then system.commitsPolled ++ [id] else system.commitsPolled }

/-- Dropping a value: a future of `start` that has been polled and a
`Transaction` that is not done send a rollback. -/
def dropHandle (system : System) : System :=
  match system.handle with
  | .starting id _ | .transaction id | .finishCreated _ id =>
      { system.sendRollback id true with handle := .free }
  | .free | .startCreated _ | .finishing _ _ => { system with handle := .free }

def step (system : System) (event : Event) : Option System :=
  match event, system.handle with
  | .start builder, .free => some { system with handle := .startCreated builder }
  | .finish finish, .transaction id => some { system with handle := .finishCreated finish id }
  | .poll succeeds, .startCreated builder => some (pollStart system builder succeeds)
  | .poll succeeds, .finishCreated finish id => some (pollFinish system finish id succeeds)
  | .complete ok, .starting id succeeds =>
      -- `batch_execute` answers an error when the server has
      if ok && succeeds then some { system with handle := .transaction id }
      else if ok then none
      else some (dropHandle system)
  | .complete _, .finishing _ _ => some { system with handle := .free }
  | .drop, .free => none
  | .drop, _ => some (dropHandle system)
  | .execute text succeeds, .free =>
      if Command.of text = .other then some (system.send ⟨text, none, succeeds⟩) else none
  | .execute text succeeds, .transaction id =>
      if Command.of text = .other then some (system.send ⟨text, some id, succeeds⟩) else none
  | .close, _ => some { system with closed := true }
  | _, _ => none

end Cancellation

end OpenGauss.Driver
