import OpenGauss.Protocol.SliceReads
import OpenGauss.Types.Kind
import Mathlib.Data.List.Nodup
import Mathlib.Data.List.Perm.Subperm

/-! The code that is derived for a struct with named fields (`opengauss-derive`,
`accepts.rs`, `tosql.rs` and `fromsql.rs`; `opengauss-types`, `private.rs`). -/

set_option autoImplicit false

namespace OpenGauss.Derive

open Lib Protocol OpenGauss.Types
open Protocol.ArraySql (Slice asUsize)

/-- How the derived code ends other than with a value. -/
inductive Stop where
  | panicked
  | failed (error : BoxError)
  deriving DecidableEq, Repr

/-- A field of the struct: its name on the server, and the codec of its type. -/
structure Field where
  name : String
  Value : Type
  toSqlAccepts : PgType → Bool
  toSql : PgType → Value → Put Stop IsNull
  fromSqlAccepts : PgType → Bool
  fromSqlNullable : PgType → Option Bytes → Except Stop Value

structure Struct where
  name : String
  fields : List Field

namespace Struct

/-- A value of the struct. -/
abbrev Values (self : Struct) := (position : Fin self.fields.length) → (self.fields.get position).Value

/-- The arm of `match field.name()` that is taken. -/
def arm (self : Struct) (name : String) : Option (Fin self.fields.length) :=
  self.fields.findFinIdx? fun field => field.name == name

/-! ### `accepts.rs` -/

def acceptsArm (self : Struct) (fieldAccepts : Field → PgType → Bool) (field : PgField PgType) :
    Bool :=
  match self.arm field.name with
  | some position => fieldAccepts (self.fields.get position) field.type_
  | none => false

/-- `composite_body`, for either trait. -/
def accepts (self : Struct) (fieldAccepts : Field → PgType → Bool) (type_ : PgType) : Bool :=
  if type_.name ≠ self.name then false
  else
    match type_.kind with
    | .composite fields =>
        if fields.length ≠ self.fields.length then false
        else fields.all (self.acceptsArm fieldAccepts)
    | _ => false

def toSqlAccepts (self : Struct) : PgType → Bool := self.accepts Field.toSqlAccepts

def fromSqlAccepts (self : Struct) : PgType → Bool := self.accepts Field.fromSqlAccepts

/-! ### `tosql.rs` -/

/-- The length that is patched in before a value. -/
def valueCount (base : Nat) : IsNull → Put Stop Int32
  | .yes => return -1
  | .no => do
      let len := (← len) - base - 4
      if 2147483647 < len then throw (.failed (.text "value too large to transmit"))
      else return Int32.ofNat len

/-- The arm of a field's name. -/
def writeArm (self : Struct) (value : self.Values) (field : PgField PgType) : Put Stop IsNull :=
  match self.arm field.name with
  | some position => (self.fields.get position).toSql field.type_ (value position)
  | none => throw .panicked

/-- The body of the loop. -/
def writeField (self : Struct) (value : self.Values) (field : PgField PgType) : Put Stop Unit := do
  putU32 field.type_.oid
  let base ← len
  putSlice [0, 0, 0, 0]
  let isNull ← self.writeArm value field
  let count ← valueCount base isNull
  writeI32 base count

def writeFields (self : Struct) (value : self.Values) : List (PgField PgType) → Put Stop Unit
  | [] => return
  | field :: fields => do
      self.writeField value field
      self.writeFields value fields

/-- `composite_body`. -/
def toSql (self : Struct) (value : self.Values) (type_ : PgType) : Put Stop IsNull :=
  match type_.kind with
  | .composite fields => do
      putI32 (Int32.ofNat fields.length)
      self.writeFields value fields
      return .no
  | _ => throw .panicked

/-! ### `fromsql.rs` -/

/-- A reader of `private.rs`, in code that can panic. -/
abbrev Reader (Value : Type) := StateT Bytes (Except Stop) Value

def failing {Value : Type} (read : Slice Value) : Reader Value :=
  fun buf => (read buf).mapError .failed

def readBeI32 : Slice Int32 := do
  return (UInt32.ofNat (beNat (← splitAtChecked "invalid buffer size" 4))).toInt32

/-- The bytes that `read_value` hands on. -/
def readRaw : Slice (Option Bytes) := do
  let len ← readBeI32
  if len < 0 then return none
  else return some (← splitAtChecked "invalid buffer size" (asUsize len))

def readValue (field : Field) (type_ : PgType) : Reader field.Value := do
  let value ← failing readRaw
  liftM (field.fromSqlNullable type_ value)

/-- The variables that hold the fields while they are read. -/
abbrev TempVars (self : Struct) :=
  (position : Fin self.fields.length) → Option (self.fields.get position).Value

def readArm (self : Struct) (tempVars : self.TempVars) (field : PgField PgType) :
    Reader self.TempVars :=
  match self.arm field.name with
  | some position => do
      let value ← readValue (self.fields.get position) field.type_
      return Function.update tempVars position (some value)
  | none => throw .panicked

def readFields (self : Struct) :
    List (PgField PgType) → self.TempVars → Reader self.TempVars
  | [], tempVars => return tempVars
  | field :: fields, tempVars => do
      let oid ← failing readBeI32
      if oid.toUInt32 ≠ field.type_.oid then throw (.failed (.text "unexpected OID"))
      else
        let tempVars ← self.readArm tempVars field
        self.readFields fields tempVars

/-- `unwrap` of every variable. -/
def unwrap (self : Struct) (tempVars : self.TempVars) : Except Stop self.Values :=
  if filled : ∀ position, (tempVars position).isSome then
    .ok fun position => (tempVars position).get (filled position)
  else .error .panicked

def readComposite (self : Struct) (fields : List (PgField PgType)) : Reader self.Values := do
  let numFields ← failing readBeI32
  if asUsize numFields ≠ fields.length then
    throw (.failed (.text s!"invalid field count: {numFields} vs {fields.length}"))
  else
    let tempVars ← self.readFields fields fun _ => none
    liftM (self.unwrap tempVars)

/-- `composite_body`. -/
def fromSql (self : Struct) (type_ : PgType) (raw : Bytes) : Except Stop self.Values :=
  match type_.kind with
  | .composite fields => (self.readComposite fields raw).map Prod.fst
  | _ => .error .panicked

end Struct

end OpenGauss.Derive
