import OpenGauss.Lib.Utf8
import OpenGauss.Protocol.Backend

/-! Rows (`tokio-opengauss`, `row.rs`), and the ranges of a data row
(`opengauss-protocol`, `message/backend.rs`). -/

set_option autoImplicit false

namespace OpenGauss.Driver

open Protocol Protocol.Backend Lib

/-- `start..stop`. -/
structure Range where
  start : Nat
  stop : Nat
  deriving DecidableEq, Repr

/-- `&buf[range]`; `none` is a panic. -/
def slice? (buf : Bytes) (range : Range) : Option Bytes :=
  if range.start ≤ range.stop ∧ range.stop ≤ buf.length then
    some ((buf.take range.stop).drop range.start)
  else none

structure DataRowRanges where
  buf : Bytes
  len : Nat
  remaining : Nat

namespace DataRowRanges

/-- `DataRowBody::ranges`. -/
def ofBody (body : CountedBody) : DataRowRanges where
  buf := body.storage
  len := body.storage.length
  remaining := body.len

def next (self : DataRowRanges) : Except IoError (Option (Option Range × DataRowRanges)) :=
  match self.remaining with
  | 0 =>
      if self.buf.isEmpty then .ok none
      else .error ⟨.invalidInput, "invalid message length: datarowrange is not empty"⟩
  | remaining + 1 =>
      match Buffer.readI32 self.buf with
      | .error error => .error error
      | .ok (len, buf) =>
          if len < 0 then .ok (some (none, { self with buf, remaining }))
          else
            let len := len.toNat
            if buf.length < len then .error unexpectedEof
            else
              let base := self.len - buf.length
              .ok (some (some ⟨base, base + len⟩, { self with buf := buf.drop len, remaining }))

/-- `collect`. The iterator answers once for each of the remaining fields. -/
def collect : Nat → DataRowRanges → Except IoError (List (Option Range))
  | 0, _ => .ok []
  | fuel + 1, self =>
      match self.next with
      | .error error => .error error
      | .ok none => .ok []
      | .ok (some (range, self)) => (collect fuel self).map (range :: ·)

end DataRowRanges

/-- `body.ranges().collect()`. -/
def ranges (body : CountedBody) : Except IoError (List (Option Range)) :=
  (DataRowRanges.ofBody body).collect (body.len + 1)

/-- What a column is looked up by: `usize` or `str`. -/
inductive RowIndex where
  | index (number : Nat)
  | name (text : List Char)
  deriving DecidableEq, Repr

namespace RowIndex

def display : RowIndex → String
  | .index number => toString number
  | .name text => String.ofList text

def eqIgnoreAsciiCase (first second : List Char) : Bool :=
  first.map Char.toLower == second.map Char.toLower

/-- `__idx`, on the names of the columns. -/
def idx (columns : List (List Char)) : RowIndex → Option Nat
  | .index number => if columns.length ≤ number then none else some number
  | .name text =>
      match columns.findIdx? (· == text) with
      | some found => some found
      | none => columns.findIdx? fun column => eqIgnoreAsciiCase column text

end RowIndex

/-- What a conversion fails with: the wrong type, or an error of its own. -/
inductive FromSqlError (Ty Cause : Type) where
  | wrongType (postgres : Ty)
  | conversion (cause : Cause)
  deriving DecidableEq, Repr

inductive RowError (Cause : Type) where
  | parse (cause : IoError)
  | column (column : String)
  | fromSql (cause : Cause) (idx : Nat)
  deriving DecidableEq, Repr

/-- An implementation of `FromSql`. -/
structure FromSql (Ty Value Cause : Type) where
  accepts : Ty → Bool
  fromSqlNullable : Ty → Option Bytes → Except Cause Value

/-- A column, as far as a row reads it. -/
structure Column (Ty : Type) where
  name : List Char
  type : Ty
  deriving DecidableEq, Repr

section

variable {Ty Value Cause : Type}

structure Row (Ty : Type) where
  columns : List (Column Ty)
  body : CountedBody
  ranges : List (Option Range)

namespace Row

def new (columns : List (Column Ty)) (body : CountedBody) : Except (RowError Cause) (Row Ty) :=
  match Driver.ranges body with
  | .error error => .error (.parse error)
  | .ok ranges => .ok { columns, body, ranges }

/-- `col_buffer`; `none` is a panic. -/
def colBuffer (row : Row Ty) (idx : Nat) : Option (Option Bytes) := do
  match ← row.ranges[idx]? with
  | none => return none
  | some range => return some (← slice? row.body.storage range)

/-- `get_inner`; `none` is a panic. -/
def getInner (row : Row Ty) (fromSql : FromSql Ty Value Cause) (index : RowIndex) :
    Option (Except (RowError (FromSqlError Ty Cause)) Value) :=
  match index.idx (row.columns.map Column.name) with
  | none => return .error (.column index.display)
  | some idx => do
      let column ← row.columns[idx]?
      if !fromSql.accepts column.type then
        return .error (.fromSql (.wrongType column.type) idx)
      else
        let buffer ← row.colBuffer idx
        return (fromSql.fromSqlNullable column.type buffer).mapError fun error =>
          .fromSql (.conversion error) idx

def tryGet (row : Row Ty) (fromSql : FromSql Ty Value Cause) (index : RowIndex) :
    Option (Except (RowError (FromSqlError Ty Cause)) Value) :=
  row.getInner fromSql index

end Row

/-- A row of a simple query, with the names of its columns. -/
structure SimpleQueryRow where
  columns : List (List Char)
  body : CountedBody
  ranges : List (Option Range)

namespace SimpleQueryRow

def new (columns : List (List Char)) (body : CountedBody) :
    Except (RowError Cause) SimpleQueryRow :=
  match Driver.ranges body with
  | .error error => .error (.parse error)
  | .ok ranges => .ok { columns, body, ranges }

/-- `Option<&str>::from_sql_nullable(&Type::TEXT, buf)`. -/
def textFromSql (buf : Option Bytes) : Except String (Option (List Char)) :=
  match buf with
  | none => .ok none
  | some raw =>
      match Utf8.decode? raw with
      | some text => .ok (some text)
      | none => .error "invalid utf-8"

/-- `get_inner`; `none` is a panic. -/
def getInner (row : SimpleQueryRow) (index : RowIndex) :
    Option (Except (RowError String) (Option (List Char))) :=
  match index.idx row.columns with
  | none => return .error (.column index.display)
  | some idx => do
      let buf ← match ← row.ranges[idx]? with
        | none => pure none
        | some range => some <$> slice? row.body.storage range
      return (textFromSql buf).mapError fun error => .fromSql error idx

def tryGet (row : SimpleQueryRow) (index : RowIndex) :
    Option (Except (RowError String) (Option (List Char))) :=
  row.getInner index

end SimpleQueryRow

end

end OpenGauss.Driver
