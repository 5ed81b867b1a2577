import OpenGauss.Driver.CopyInSink
import OpenGauss.Driver.CopyOut
import OpenGauss.Driver.Row
import OpenGauss.Lib.Routines
import OpenGauss.Lib.Source

/-! What a client makes of the answers to its requests (`tokio-opengauss`: `query.rs`,
`simple_query.rs`, `bind.rs`, `client.rs`). Its futures are followed to their ends, on any source of
messages. -/

set_option autoImplicit false

namespace OpenGauss.Driver.Query

open Lib Lib.Source Protocol Protocol.Backend

/-- The errors that these functions tell apart; those of the connection among them. -/
inductive ClientError where
  | driver (cause : Error)
  | rowCount
  deriving DecidableEq

/-! ### The sources -/

/-- `Responses`, with all batches that are going to come. -/
def answers : Source Responses Message ClientError where
  poll responses := (responses.pollNext.1.mapError .driver, responses.pollNext.2)
  size := Responses.size
  shorter := by
    intro responses rest message polled
    cases read : responses.pollNext with
    | mk answer left =>
        cases answer with
        | error error => simp [read, Except.mapError] at polled
        | ok found =>
            have same : found = message ∧ left = rest := by
              simpa [read, Except.mapError] using polled
            exact same.2 ▸ Responses.next_shorter read

def errorOf : Message → Option ClientError
  | .errorResponse body => some (.driver (.ofBody body))
  | _ => none

/-- The same messages in a list. -/
def messages : Source (List Message) Message ClientError :=
  .ofList errorOf (.driver .closed)

/-! ### The functions -/

variable {State : Type} (source : Source State Message ClientError)

abbrev Reading (State Value : Type) := Routine State ClientError Value

/-- A loop over the answers. -/
def loop {Local Value : Type} (body : Body Local Message ClientError Value) (locals : Local) :
    Reading State Value := ExceptT.mk fun state =>
  let ended := source.run body locals state
  (ended.result, ended.source)

/-- The items of a stream over the answers, folded until its end. -/
def fold {Local Out Acc : Type} (body : Body Local Message ClientError (Option Out))
    (push : Acc → Out → Except ClientError Acc) (acc : Acc) (locals : Local) : Reading State Acc :=
  ExceptT.mk fun state =>
    let ended := source.fold body push acc locals state
    (ended.result, ended.source)

def unexpected : ClientError := .driver .unexpectedMessage

/-- A `match` on the next message, with `unexpected_message` for all others. -/
def expect {Value : Type} (accept : Message → Option Value) : Reading State Value :=
  loop source (fun _ message =>
    match accept message with
    | some value => (.ok (some value), ())
    | none => (.error unexpected, ())) ()

def acceptBindComplete : Message → Option Unit
  | .bindComplete => some ()
  | _ => none

def acceptReadyForQuery : Message → Option Unit
  | .readyForQuery _ => some ()
  | _ => none

/-- `start`, and the end of `bind`. -/
def start : Reading State Unit := expect source acceptBindComplete

/-- The end of `sync`. -/
def sync : Reading State Unit := expect source acceptReadyForQuery

/-- What the loops do with a `CommandComplete`. -/
def affectedBy {Value : Type} (rows : Nat) (tag : Bytes) : Except ClientError (Option Value) × Nat :=
  match extractRowAffected tag with
  | .error error => (.error (.driver error), rows)
  | .ok affected => (.ok none, affected)

/-- The loop of `execute`. -/
def executeBody : Body Nat Message ClientError Nat
  | rows, .dataRow _ => (.ok none, rows)
  | rows, .commandComplete tag => affectedBy rows tag
  | _, .emptyQueryResponse => (.ok none, 0)
  | rows, .readyForQuery _ => (.ok (some rows), rows)
  | rows, _ => (.error unexpected, rows)

def execute : Reading State Nat := do
  start source
  loop source executeBody 0

/-- The loop of `execute_typed`. -/
def executeTypedBody : Body Nat Message ClientError Nat
  | rows, .parseComplete | rows, .bindComplete | rows, .parameterDescription _
  | rows, .rowDescription _ => (.ok none, rows)
  | _, .noData => (.ok none, 0)
  | rows, .dataRow _ => (.ok none, rows)
  | rows, .commandComplete tag => affectedBy rows tag
  | _, .emptyQueryResponse => (.ok none, 0)
  | rows, .readyForQuery _ => (.ok (some rows), rows)
  | rows, _ => (.error unexpected, rows)

def executeTyped : Reading State Nat := loop source executeTypedBody 0

/-- The loop of `batch_execute`. -/
def batchBody : Body Unit Message ClientError Unit
  | _, .readyForQuery _ => (.ok (some ()), ())
  | _, .commandComplete _ | _, .emptyQueryResponse | _, .rowDescription _ | _, .dataRow _ =>
      (.ok none, ())
  | _, _ => (.error unexpected, ())

def batchExecute : Reading State Unit := loop source batchBody ()

section

variable {Ty : Type} (columns : List (Column Ty))

/-- `Row::new`. -/
def newRow (body : CountedBody) : Except ClientError (Row Ty) :=
  match Driver.ranges body with
  | .error error => .error (.driver (.parse error))
  | .ok ranges => .ok { columns, body, ranges }

/-- The loop of `RowStream::poll_next`, with `rows_affected`. -/
def rowBody : Body (Option Nat) Message ClientError (Option (Row Ty))
  | affected, .dataRow body =>
      match newRow columns body with
      | .error error => (.error error, affected)
      | .ok row => (.ok (some (some row)), affected)
  | affected, .commandComplete tag =>
      match extractRowAffected tag with
      | .error error => (.error (.driver error), affected)
      | .ok rows => (.ok none, some rows)
  | affected, .emptyQueryResponse | affected, .portalSuspended => (.ok none, affected)
  | affected, .readyForQuery _ => (.ok (some none), affected)
  | affected, _ => (.error unexpected, affected)

/-- `try_collect` on a `RowStream`. -/
def tryCollect : Reading State (List (Row Ty)) :=
  fold source (rowBody columns) pushOut [] none

def query : Reading State (List (Row Ty)) := do
  start source
  tryCollect source columns

/-- The loop of `query_opt` keeps the first row. -/
def keepFirst (first : Option (Row Ty)) (row : Row Ty) : Except ClientError (Option (Row Ty)) :=
  if first.isSome then .error .rowCount else .ok (some row)

def queryOpt : Reading State (Option (Row Ty)) := do
  start source
  fold source (rowBody columns) keepFirst none none

def queryOne : Reading State (Row Ty) := do
  match ← queryOpt source columns with
  | some row => return row
  | none => throw .rowCount

end

end OpenGauss.Driver.Query
