import OpenGauss.Driver.Transaction

/-! Nested transactions (`tokio-opengauss`, `transaction.rs`): the client's
`Transaction` values, and the savepoints of the session they are made in. -/

set_option autoImplicit false

namespace OpenGauss.Driver.Nesting

open Lib.Text

/-! ### The session -/

/-- What a query of a `Transaction` asks of the session. -/
inductive Command where
  | start
  | commit
  | rollback
  | savepoint (name : Text)
  | release (name : Text)
  | rollbackTo (name : Text)
  | other
  deriving DecidableEq, Repr

/-- `nameOf` is how the server reads an identifier: quotes, letter case, length. -/
def Command.of (nameOf : Text → Text) (query : Text) : Command :=
  match Cancellation.Command.of query with
  | .start => .start
  | .commit => .commit
  | .rollback => .rollback
  | .other =>
      match stripPrefix? "SAVEPOINT ".toList query, stripPrefix? "RELEASE ".toList query,
        stripPrefix? "ROLLBACK TO ".toList query with
      | some name, _, _ => .savepoint (nameOf name)
      | none, some name, _ => .release (nameOf name)
      | none, none, some name => .rollbackTo (nameOf name)
      | none, none, none => .other

variable {Db : Type}

structure Block (Db : Type) where
  start : Db
  /-- The most recent one first, each with the state it restores. -/
  savepoints : List (Text × Db)
  aborted : Bool
  deriving DecidableEq, Repr

structure Session (Db : Type) where
  db : Db
  block : Option (Block Db)
  deriving DecidableEq, Repr

/-- The savepoints from the most recent one with a name on. -/
def Block.downTo (block : Block Db) (name : Text) : List (Text × Db) :=
  block.savepoints.dropWhile fun saved => saved.1 ≠ name

def Block.abort (block : Block Db) : Block Db := { block with aborted := true }

/-- The session after a command, and whether the server has answered without
an error. A failed block takes nothing but its end and `ROLLBACK TO`. -/
def Session.process (session : Session Db) (command : Command) : Session Db × Bool :=
  match session.block with
  | none =>
      match command with
      | .start => ({ session with block := some ⟨session.db, [], false⟩ }, true)
      | .commit | .rollback | .other => (session, true)
      | .savepoint _ | .release _ | .rollbackTo _ => (session, false)
  | some block =>
      match command with
      | .commit => ({ db := if block.aborted then block.start else session.db, block := none }, true)
      | .rollback => ({ db := block.start, block := none }, true)
      | .savepoint name =>
          if block.aborted then (session, false)
          else
            let savepoints := (name, session.db) :: block.savepoints
            ({ session with block := some { block with savepoints } }, true)
      | .release name =>
          if block.aborted then (session, false)
          else
            match block.downTo name with
            | [] => ({ session with block := some block.abort }, false)
            | _ :: older => ({ session with block := some { block with savepoints := older } }, true)
      | .rollbackTo name =>
          match block.downTo name with
          | [] => ({ session with block := some block.abort }, false)
          | saved :: older =>
              ({ db := saved.2
                 block := some { block with savepoints := saved :: older, aborted := false } }, true)
      | .start | .other => (session, !block.aborted)

/-- A statement of the user, by what it makes of the database; `none` is an error. -/
def Session.execute (session : Session Db) (effect : Db → Option Db) : Session Db :=
  match session.block with
  | none => { session with db := (effect session.db).getD session.db }
  | some block =>
      if block.aborted then session
      else
        match effect session.db with
        | some db => { session with db }
        | none => { session with block := some block.abort }

/-! ### The client -/

/-- How a `Transaction` ends. -/
inductive Finish where
  | commit
  | rollback
  | drop
  deriving DecidableEq, Repr

/-- The query of `commit`, of `rollback`, or of the rollback of `Drop`. -/
def Finish.query (savepoint : Option Savepoint) : Finish → Text
  | .commit => Transaction.commitQuery savepoint
  | .rollback | .drop => Transaction.rollbackQuery savepoint

/-- A `Transaction`. The state it was started in, and how many savepoints there
were then, are kept for the statements about it only. -/
structure Transaction (Db : Type) where
  savepoint : Option Savepoint
  started : Db
  below : Nat
  deriving DecidableEq, Repr

/-- The end of a `Transaction`, with the states of the database around it. -/
structure Ended (Db : Type) where
  finish : Finish
  savepoint : Option Savepoint
  started : Db
  last : Db
  aborted : Bool
  final : Db
  deriving DecidableEq, Repr

/-- The `Transaction` in front borrows the one behind it. -/
structure System (Db : Type) where
  session : Session Db
  transactions : List (Transaction Db) := []
  ended : List (Ended Db) := []
  deriving DecidableEq, Repr

inductive Event (Db : Type) where
  /-- `Client::transaction`. -/
  | start
  /-- `Transaction::transaction`, and `Transaction::savepoint` with a name. -/
  | savepoint (name : Option Text)
  | execute (effect : Db → Option Db)
  | finish (finish : Finish)

def Session.savepoints (session : Session Db) : List (Text × Db) :=
  match session.block with
  | none => []
  | some block => block.savepoints

def Session.aborted (session : Session Db) : Bool :=
  match session.block with
  | none => false
  | some block => block.aborted

/-- A `Transaction` is made when the server has accepted its query. -/
def System.begin (nameOf : Text → Text) (system : System Db) (savepoint : Option Savepoint)
    (query : Text) : System Db :=
  match system.session.process (.of nameOf query) with
  | (session, true) =>
      { system with
        session
        transactions := ⟨savepoint, system.session.db, system.session.savepoints.length⟩ ::
          system.transactions }
  | (session, false) => { system with session }

def System.finish (nameOf : Text → Text) (system : System Db) (finish : Finish)
    (transaction : Transaction Db) (outer : List (Transaction Db)) : System Db :=
  let session := (system.session.process (.of nameOf (finish.query transaction.savepoint))).1
  { session
    transactions := outer
    ended := system.ended ++ [
      { finish
        savepoint := transaction.savepoint
        started := transaction.started
        last := system.session.db
        aborted := system.session.aborted
        final := session.db }] }

def step (nameOf : Text → Text) (system : System Db) : Event Db → Option (System Db)
  | .start =>
      match system.transactions with
      | [] => some (system.begin nameOf none (TransactionBuilder.query {}))
      | _ :: _ => none
  | .savepoint name =>
      match system.transactions with
      | [] => none
      | outer :: _ =>
          let savepoint := Transaction.nestedSavepoint outer.savepoint name
          some (system.begin nameOf (some savepoint) (Transaction.savepointQuery savepoint))
  | .execute effect => some { system with session := system.session.execute effect }
  | .finish finish =>
      match system.transactions with
      | [] => none
      | transaction :: outer => some (system.finish nameOf finish transaction outer)

end OpenGauss.Driver.Nesting
