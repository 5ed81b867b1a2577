import OpenGauss.Protocol.Backend
import OpenGauss.Lib.Numeral

/-! Errors of the driver (`tokio-opengauss`, `error/mod.rs`). The text fields
of a database error are kept as the bytes they are decoded from. -/

set_option autoImplicit false

namespace OpenGauss.Driver

open Protocol

inductive Severity where
  | panic
  | fatal
  | error
  | warning
  | notice
  | debug
  | info
  | log
  deriving DecidableEq, Repr

def Severity.fromStr (s : Bytes) : Option Severity :=
  [("PANIC", Severity.panic), ("FATAL", .fatal), ("ERROR", .error), ("WARNING", .warning),
    ("NOTICE", .notice), ("DEBUG", .debug), ("INFO", .info), ("LOG", .log)].lookup
      (String.ofList (s.map fun byte => Char.ofNat byte.toNat))

inductive ErrorPosition where
  | original (position : Nat)
  | internal (position : Nat) (query : Bytes)
  deriving DecidableEq, Repr

structure DbError where
  severity : Bytes
  parsedSeverity : Option Severity
  code : Bytes
  message : Bytes
  detail : Option Bytes
  hint : Option Bytes
  position : Option ErrorPosition
  where_ : Option Bytes
  schema : Option Bytes
  table : Option Bytes
  column : Option Bytes
  datatype : Option Bytes
  constraint : Option Bytes
  file : Option Bytes
  line : Option Nat
  routine : Option Bytes
  deriving DecidableEq, Repr

namespace ErrorFields

/-- `ErrorFields::next`: a field and the bytes after it. -/
def next (buf : Bytes) : Except IoError (Option ((UInt8 × Bytes) × Bytes)) :=
  match buf with
  | [] => .error fillWholeBuffer
  | 0 :: [] => .ok none
  | 0 :: _ :: _ =>
      .error ⟨.invalidInput, "invalid message length: error fields is not drained"⟩
  | fieldType :: rest =>
      if rest.contains 0 then
        .ok (some ((fieldType, rest.takeWhile (· ≠ 0)), (rest.dropWhile (· ≠ 0)).drop 1))
      else
        .error unexpectedEof

end ErrorFields

namespace DbError

/-- The local variables of `DbError::parse`. -/
structure Fields where
  severity : Option Bytes := none
  parsedSeverity : Option Severity := none
  code : Option Bytes := none
  message : Option Bytes := none
  detail : Option Bytes := none
  hint : Option Bytes := none
  normalPosition : Option Nat := none
  internalPosition : Option Nat := none
  internalQuery : Option Bytes := none
  where_ : Option Bytes := none
  schema : Option Bytes := none
  table : Option Bytes := none
  column : Option Bytes := none
  datatype : Option Bytes := none
  constraint : Option Bytes := none
  file : Option Bytes := none
  line : Option Nat := none
  routine : Option Bytes := none

private def invalidInput (message : String) : IoError := ⟨.invalidInput, message⟩

/-- `value.parse::<u32>()`, with the error of the field. -/
def parseU32 (value : Bytes) (message : String) : Except IoError Nat :=
  match Lib.Numeral.parseUnsigned (2 ^ 32) (value.map fun byte => Char.ofNat byte.toNat) with
  | some number => .ok number
  | none => .error (invalidInput message)

/-- The `match field.type_()` of `DbError::parse`. -/
def Fields.record (fields : Fields) (fieldType : UInt8) (value : Bytes) :
    Except IoError Fields :=
  match Char.ofNat fieldType.toNat with
  | 'S' => .ok { fields with severity := some value }
  | 'C' => .ok { fields with code := some value }
  | 'M' => .ok { fields with message := some value }
  | 'D' => .ok { fields with detail := some value }
  | 'H' => .ok { fields with hint := some value }
  | 'P' => do
      let position ← parseU32 value "`P` field did not contain an integer"
      return { fields with normalPosition := some position }
  | 'p' => do
      let position ← parseU32 value "`p` field did not contain an integer"
      return { fields with internalPosition := some position }
  | 'q' => .ok { fields with internalQuery := some value }
  | 'W' => .ok { fields with where_ := some value }
  | 's' => .ok { fields with schema := some value }
  | 't' => .ok { fields with table := some value }
  | 'c' => .ok { fields with column := some value }
  | 'd' => .ok { fields with datatype := some value }
  | 'n' => .ok { fields with constraint := some value }
  | 'F' => .ok { fields with file := some value }
  | 'L' => do
      let line ← parseU32 value "`L` field did not contain an integer"
      return { fields with line := some line }
  | 'R' => .ok { fields with routine := some value }
  | 'V' =>
      match Severity.fromStr value with
      | some severity => .ok { fields with parsedSeverity := some severity }
      | none => .error (invalidInput "`V` field contained an invalid value")
  | _ => .ok fields

/-- The `while let` loop of `DbError::parse`; every field takes a byte or more. -/
def collect : Nat → Bytes → Fields → Except IoError Fields
  | 0, _, fields => .ok fields
  | fuel + 1, buf, fields =>
      match ErrorFields.next buf with
      | .error error => .error error
      | .ok none => .ok fields
      | .ok (some ((fieldType, value), rest)) =>
          match fields.record fieldType value with
          | .error error => .error error
          | .ok fields => collect fuel rest fields

def require (value : Option Bytes) (message : String) : Except IoError Bytes :=
  match value with
  | some value => .ok value
  | none => .error (invalidInput message)

/-- `DbError::parse` on the body of an error or a notice. -/
def parse (buf : Bytes) : Except IoError DbError := do
  let fields ← collect (buf.length + 1) buf {}
  let severity ← require fields.severity "`S` field missing"
  let code ← require fields.code "`C` field missing"
  let message ← require fields.message "`M` field missing"
  let position ← match fields.normalPosition, fields.internalPosition with
    | some position, _ => pure (some (ErrorPosition.original position))
    | none, some position => do
        let query ← require fields.internalQuery "`q` field missing but `p` field present"
        pure (some (ErrorPosition.internal position query))
    | none, none => pure none
  return {
    severity, code, message, position
    parsedSeverity := fields.parsedSeverity
    detail := fields.detail
    hint := fields.hint
    where_ := fields.where_
    schema := fields.schema
    table := fields.table
    column := fields.column
    datatype := fields.datatype
    constraint := fields.constraint
    file := fields.file
    line := fields.line
    routine := fields.routine
  }

end DbError

/-- An `Error` by its kind, with the cause it carries. -/
inductive Error where
  | io (cause : IoError)
  | unexpectedMessage
  | closed
  | db (cause : DbError)
  | parse (cause : IoError)
  | encode (cause : IoError)
  | authentication (cause : String)
  | configParse (cause : String)
  | config (cause : String)
  /-- Not an `Error`: the code runs into `unreachable!()`. -/
  | unreachable
  deriving DecidableEq, Repr

/-- `Error::db` on the body of an `ErrorResponse`. -/
def Error.ofBody (storage : Bytes) : Error :=
  match DbError.parse storage with
  | .ok error => .db error
  | .error error => .parse error

/-- `get_str`: the bytes as text, when they are UTF-8. -/
def getStr (buf : Bytes) : Except IoError String :=
  match String.fromUTF8? ⟨buf.toArray⟩ with
  | some text => .ok text
  | none => .error ⟨.invalidInput, "invalid utf-8"⟩

end OpenGauss.Driver
