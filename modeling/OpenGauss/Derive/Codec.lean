import OpenGauss.Derive.Composite
import OpenGauss.Protocol.ArraySql
import OpenGauss.Protocol.BigEndian
import OpenGauss.Lib.Utf8

/-! The implementations of `ToSql` and `FromSql` that are made of one another
(`opengauss-types`, `lib.rs`; `opengauss-derive`, `accepts.rs`, `tosql.rs` and `fromsql.rs`). -/

set_option autoImplicit false

namespace OpenGauss.Types.PgType

/-- The type below a domain. -/
def bare (type_ : PgType) : PgType :=
  match type_.kind with
  | .domain type_ => type_
  | _ => type_

/-- No composite type within it has two fields of one name, or too many to be counted. -/
inductive Sound : PgType → Prop where
  | new {name schema : String} {oid : UInt32} {kind : Kind PgType}
      (parts : ∀ part ∈ kind.parts, Sound part)
      (distinct : ∀ fields, kind = .composite fields → (fields.map PgField.name).Nodup)
      (counted : ∀ fields, kind = .composite fields → fields.length < 2 ^ 31) :
      Sound (.new name oid kind schema)

end OpenGauss.Types.PgType

namespace OpenGauss.Derive

open Lib Protocol OpenGauss.Types
open Protocol.ArraySql (Slice Checked ArrayDimension ArrayValues readExact arrayFromSql
  drainDimensions writeDimensions)

instance : FromIoError Stop := ⟨fun error => .failed (.io error)⟩

/-- The two implementations of a type. -/
structure Codec where
  Value : Type
  toSqlAccepts : PgType → Bool
  toSql : PgType → Value → Put Stop IsNull
  fromSqlAccepts : PgType → Bool
  fromSql : PgType → Bytes → Except Stop Value
  fromSqlNull : PgType → Except Stop Value

/-- Why a call that looks at the type first ends without a value. -/
inductive Refusal where
  | wrongType (postgres : PgType)
  | stopped (stop : Stop)

namespace Codec

def wasNull {Value : Type} : Except Stop Value :=
  .error (.failed (.text "a Postgres value was `NULL`"))

def fromSqlNullable (self : Codec) (type_ : PgType) : Option Bytes → Except Stop self.Value
  | some raw => self.fromSql type_ raw
  | none => self.fromSqlNull type_

def toSqlChecked (self : Codec) (type_ : PgType) (value : self.Value) : Put Refusal IsNull :=
  if !self.toSqlAccepts type_ then throw (.wrongType type_)
  else Builder.mapError .stopped (self.toSql type_ value)

/-- `Row::get_inner`, on the column's type and bytes. -/
def getInner (self : Codec) (type_ : PgType) (raw : Option Bytes) : Except Refusal self.Value :=
  if !self.fromSqlAccepts type_ then .error (.wrongType type_)
  else (self.fromSqlNullable type_ raw).mapError .stopped

/-! ### Values of a type of their own -/

/-- `simple_to!` and `simple_from!`, with the oids of the types that are named. -/
def simple {Value : Type} (written read : List UInt32) (put : Value → Put Stop Unit)
    (get : Slice Value) : Codec where
  Value
  toSqlAccepts type_ := written.contains type_.oid
  toSql _ value := do
    put value
    return .no
  fromSqlAccepts type_ := read.contains type_.oid
  fromSql _ raw := ((get raw).mapError .failed).map Prod.fst
  fromSqlNull _ := wasNull

/-- The last bytes of a number, the highest first. -/
def beWord : Nat → Nat → Bytes
  | 0, _ => []
  | size + 1, number => beWord size (number / 256) ++ [UInt8.ofNat number]

def putWord (size number : Nat) : Put Stop Unit := putSlice (beWord size number)

def wordFromSql (size : Nat) : Slice Nat := do
  let bytes ← readExact size
  drained "invalid buffer size"
  return beNat bytes

/-- A value of a fixed number of bytes. -/
def word {Value : Type} (size : Nat) (written read : List UInt32) (number : Value → Nat)
    (ofNumber : Nat → Value) : Codec :=
  simple written read (fun value => putWord size (number value)) (ofNumber <$> wordFromSql size)

def boolFromSql : Slice Bool
  | [byte] => .ok (byte != 0, [])
  | _ => .error (.text "invalid buffer size")

def bool : Codec := simple [16] [16] (fun value => putU8 (if value then 1 else 0)) boolFromSql

def i8 : Codec := word 1 [18] [18] (·.toUInt8.toNat) fun number => (UInt8.ofNat number).toInt8

def i16 : Codec := word 2 [21] [21] (·.toUInt16.toNat) fun number => (UInt16.ofNat number).toInt16

def i32 : Codec := word 4 [23] [23] (·.toUInt32.toNat) fun number => (UInt32.ofNat number).toInt32

/-- It is read from every type of an oid, and written only as an `oid`. -/
def u32 : Codec :=
  word 4 [26] [26, 24, 2202, 2203, 2204, 2205, 2206, 4089, 4191, 28, 29] UInt32.toNat UInt32.ofNat

def i64 : Codec := word 8 [20] [20] (·.toUInt64.toNat) fun number => (UInt64.ofNat number).toInt64

/-- `f32`, by its bits. -/
def f32 : Codec := word 4 [700] [700] UInt32.toNat UInt32.ofNat

/-- `f64`, by its bits. -/
def f64 : Codec := word 8 [701] [701] UInt64.toNat UInt64.ofNat

/-- `&[u8]` and `Vec<u8>`. -/
def bytea : Codec := simple [17] [17] putSlice fun buf => .ok (buf, [])

def fromUtf8 (bytes : Bytes) : Except Stop (List Char) :=
  match Utf8.decode? bytes with
  | some text => .ok text
  | none => .error (.failed (.text "invalid utf-8"))

/-- The texts that have a version in front. -/
def isVersioned (name : String) : Bool := ["ltree", "lquery", "ltxtquery"].contains name

def strAccepts (type_ : PgType) : Bool :=
  [1043, 25, 1042, 19, 705].contains type_.oid || type_.name == "citext" || isVersioned type_.name

/-- `&str` and `String`. -/
def str : Codec where
  Value := List Char
  toSqlAccepts := strAccepts
  toSql type_ value := do
    if isVersioned type_.name then putU8 1
    putSlice (Utf8.encode value)
    return .no
  fromSqlAccepts := strAccepts
  fromSql type_ raw :=
    if isVersioned type_.name then
      match raw with
      | 1 :: rest => fromUtf8 rest
      | _ => .error (.failed (.text s!"{type_.name} version 1 only supported"))
    else fromUtf8 raw
  fromSqlNull _ := wasNull

/-! ### Values that can be missing, and values behind a pointer -/

/-- `Option<T>`. -/
def option (inner : Codec) : Codec where
  Value := Option inner.Value
  toSqlAccepts := inner.toSqlAccepts
  toSql type_ value :=
    match value with
    | some value => inner.toSql type_ value
    | none => return .yes
  fromSqlAccepts := inner.fromSqlAccepts
  fromSql type_ raw := (inner.fromSql type_ raw).map some
  fromSqlNull _ := .ok none

/-- `Box<T>`: `from_sql_null` is not handed on. -/
def boxed (inner : Codec) : Codec := { inner with fromSqlNull := fun _ => wasNull }

/-! ### Arrays -/

section

variable (member : Codec)

def elementAccepts (accepts : PgType → Bool) (type_ : PgType) : Bool :=
  match type_.kind with
  | .array type_ => accepts type_
  | _ => false

def downcast (len : Nat) : Put Stop Int32 :=
  if 2147483647 < len then throw (.failed (.text "value too large to transmit"))
  else return Int32.ofNat len

/-- The loop of `array_to_sql`, with its note of a null. -/
def writeElements (type_ : PgType) : List member.Value → Bool → Put Stop Bool
  | [], hasNulls => return hasNulls
  | element :: elements, hasNulls => do
      let hasNulls ← writeNullable do
        let isNull ← member.toSql type_ element
        return (isNull, hasNulls || isNull = .yes)
      writeElements type_ elements hasNulls

def arrayToSql (dimension : ArrayDimension) (type_ : PgType) (elements : List member.Value) :
    Put Stop Unit := do
  let dimensionsIdx ← len
  putI32 0
  let flagsIdx ← len
  putI32 0
  putU32 type_.oid
  let numDimensions ← Builder.mapError .failed (writeDimensions [dimension])
  let numDimensions ← i32FromUsize numDimensions
  writeI32 dimensionsIdx numDimensions
  let hasNulls ← writeElements member type_ elements false
  writeI32 flagsIdx (if hasNulls then 1 else 0)

/-- `&[T]`. -/
def sliceToSql (type_ : PgType) (elements : List member.Value) : Put Stop IsNull :=
  match type_.kind with
  | .array memberType => do
      let lowerBound := if type_.oid = 30 ∨ type_.oid = 22 then 0 else 1
      let len ← downcast elements.length
      arrayToSql member ⟨len, lowerBound⟩ memberType elements
      return .no
  | _ => throw .panicked

def checked {Result : Type} (computation : Checked Result) : Except Stop Result :=
  match computation.run with
  | some (.ok result) => .ok result
  | some (.error error) => .error (.failed error)
  | none => .error .panicked

/-- The values of an array that has one dimension at most. -/
def arrayValues (raw : Bytes) : Checked ArrayValues := do
  let array ← ExceptT.mk (some (arrayFromSql raw))
  let dimensions ← (array.arrayDimensions : Option Bytes)
  let dimensions ← ExceptT.mk (some (drainDimensions dimensions))
  if 1 < dimensions.length then throw (.text "array contains too many dimensions")
  else (array.values : Option ArrayValues)

/-- `values().map(..).collect()`. -/
def collect {Value : Type} (read : Option Bytes → Except Stop Value) (values : ArrayValues) :
    Except Stop (List Value) :=
  match _ : values.next.run with
  | some (.ok (some (value, rest))) => do
      let item ← read value
      return item :: (← collect read rest)
  | some (.ok none) => .ok []
  | some (.error error) => .error (.failed error)
  | none => .error .panicked
termination_by values.buf.length
decreasing_by
  rename_i step
  exact ArrayValues.next_shorter step

/-- `Vec<T>`, and `Box<[T]>`. -/
def vec : Codec where
  Value := List member.Value
  toSqlAccepts := elementAccepts member.toSqlAccepts
  toSql := sliceToSql member
  fromSqlAccepts := elementAccepts member.fromSqlAccepts
  fromSql type_ raw :=
    match type_.kind with
    | .array memberType => do collect (member.fromSqlNullable memberType) (← checked (arrayValues raw))
    | _ => .error .panicked
  fromSqlNull _ := wasNull

/-- `[T; N]`. -/
abbrev Sized (Item : Type) (size : Nat) := { items : List Item // items.length = size }

/-- `try_array_init`, from the element of this number on. -/
def tryArrayInit {Value : Type} (read : Option Bytes → Except Stop Value) (expected : Nat) :
    (left : Nat) → ArrayValues → Except Stop (Sized Value left × ArrayValues)
  | 0, values => .ok (⟨[], rfl⟩, values)
  | left + 1, values => do
      match ← checked values.next with
      | none =>
          let got := expected - (left + 1)
          throw (.failed (.text s!"too few elements in array (expected {expected}, got {got})"))
      | some (value, rest) =>
          let item ← read value
          let (items, last) ← tryArrayInit read expected left rest
          return (⟨item :: items.1, congrArg Nat.succ items.2⟩, last)

def array (size : Nat) : Codec where
  Value := Sized member.Value size
  toSqlAccepts := elementAccepts member.toSqlAccepts
  toSql type_ value := sliceToSql member type_ value.1
  fromSqlAccepts := elementAccepts member.fromSqlAccepts
  fromSql type_ raw :=
    match type_.kind with
    | .array memberType => do
        let values ← checked (arrayValues raw)
        let (out, values) ← tryArrayInit (member.fromSqlNullable memberType) size size values
        if (← checked values.next).isSome then
          throw (.failed (.text
            s!"excess elements in array (expected {size}, got more than that)"))
        else return out
    | _ => .error .panicked
  fromSqlNull _ := wasNull

end

/-! ### Derived code -/

/-- `#[postgres(transparent)]`: both traits accept what the inner `ToSql` accepts. -/
def transparent (inner : Codec) : Codec :=
  { inner with
    fromSqlAccepts := inner.toSqlAccepts
    fromSqlNull := fun _ => wasNull }

/-- `domain_body` of `accepts.rs`. -/
def domainAccepts (name : String) (inner : Codec) (type_ : PgType) : Bool :=
  if type_.name ≠ name then false
  else
    match type_.kind with
    | .domain type_ => inner.toSqlAccepts type_
    | _ => false

/-- A struct of one field without a name. -/
def domain (name : String) (inner : Codec) : Codec where
  Value := inner.Value
  toSqlAccepts := domainAccepts name inner
  toSql type_ value :=
    match type_.kind with
    | .domain type_ => inner.toSql type_ value
    | _ => throw .panicked
  fromSqlAccepts type_ :=
    if inner.fromSqlAccepts type_ then true else domainAccepts name inner type_
  fromSql type_ raw := inner.fromSql type_.bare raw
  fromSqlNull _ := wasNull

/-- `enum_body` of `accepts.rs`. -/
def enumAccepts (name : String) (variants : List String) (allowMismatch : Bool) (type_ : PgType) :
    Bool :=
  if allowMismatch then type_.name == name
  else if type_.name ≠ name then false
  else
    match type_.kind with
    | .enum names => if names.length ≠ variants.length then false else names.all variants.contains
    | _ => false

/-- An enum without data, by the place of the variant among these names. -/
def enum (name : String) (variants : List String) (allowMismatch : Bool) : Codec where
  Value := Fin variants.length
  toSqlAccepts := enumAccepts name variants allowMismatch
  toSql _ value := do
    putSlice (Utf8.encode (variants.get value).toList)
    return .no
  fromSqlAccepts := enumAccepts name variants allowMismatch
  fromSql _ raw := do
    let text ← fromUtf8 raw
    match variants.findFinIdx? fun variant => variant.toList == text with
    | some variant => return variant
    | none =>
        let s := String.ofList text
        throw (.failed (.text s!"invalid variant `{s}`"))
  fromSqlNull _ := wasNull

def field (entry : String × Codec) : Field where
  name := entry.1
  Value := entry.2.Value
  toSqlAccepts := entry.2.toSqlAccepts
  toSql := entry.2.toSql
  fromSqlAccepts := entry.2.fromSqlAccepts
  fromSqlNullable := entry.2.fromSqlNullable

def struct (name : String) (fields : List (String × Codec)) : Struct := ⟨name, fields.map field⟩

/-- A struct of fields with names. -/
def composite (name : String) (fields : List (String × Codec)) : Codec where
  Value := (struct name fields).Values
  toSqlAccepts := (struct name fields).toSqlAccepts
  toSql type_ value := (struct name fields).toSql value type_
  fromSqlAccepts := (struct name fields).fromSqlAccepts
  fromSql := (struct name fields).fromSql
  fromSqlNull _ := wasNull

end Codec

end OpenGauss.Derive
