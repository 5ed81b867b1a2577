import OpenGauss.Driver.Row
import OpenGauss.Lib.Floats
import OpenGauss.Lib.IpAddr
import OpenGauss.Types.Decimal

/-! Reading values in the binary format (`opengauss-types`, `lib.rs`, `chrono_04.rs`,
`serde_json_1.rs` and `uuid_1.rs`; `opengauss-protocol`, `types/mod.rs`). -/

set_option autoImplicit false

namespace OpenGauss.Types

open Protocol Lib Driver

/-- `Type`, as far as `gaussdb-mcp` names its values. -/
inductive SqlType where
  | bool | bytea | name | int8 | int2 | int4 | regproc | text | oid | xid | cid | json | cidr
  | float4 | float8 | unknown | macaddr8 | macaddr | inet | bpchar | varchar | date | time
  | timestamp | timestamptz | interval | timetz | numeric | regprocedure | regoper | regoperator
  | regclass | regtype | uuid | jsonb | regnamespace | regcollation
  | other (typeName : List Char)
  deriving DecidableEq, Repr

/-- `Type::name`. -/
def SqlType.typeName : SqlType → List Char
  | bool => "bool".toList
  | bytea => "bytea".toList
  | name => "name".toList
  | int8 => "int8".toList
  | int2 => "int2".toList
  | int4 => "int4".toList
  | regproc => "regproc".toList
  | text => "text".toList
  | oid => "oid".toList
  | xid => "xid".toList
  | cid => "cid".toList
  | json => "json".toList
  | cidr => "cidr".toList
  | float4 => "float4".toList
  | float8 => "float8".toList
  | unknown => "unknown".toList
  | macaddr8 => "macaddr8".toList
  | macaddr => "macaddr".toList
  | inet => "inet".toList
  | bpchar => "bpchar".toList
  | varchar => "varchar".toList
  | date => "date".toList
  | time => "time".toList
  | timestamp => "timestamp".toList
  | timestamptz => "timestamptz".toList
  | interval => "interval".toList
  | timetz => "timetz".toList
  | numeric => "numeric".toList
  | regprocedure => "regprocedure".toList
  | regoper => "regoper".toList
  | regoperator => "regoperator".toList
  | regclass => "regclass".toList
  | regtype => "regtype".toList
  | uuid => "uuid".toList
  | jsonb => "jsonb".toList
  | regnamespace => "regnamespace".toList
  | regcollation => "regcollation".toList
  | other typeName => typeName

namespace Json

/-- `serde_json::Number`: an integer of 64 bits or a finite `f64`. -/
inductive Number where
  | integer (value : Int)
  | float (digits : Shortest)
  deriving DecidableEq, Repr

/-- `serde_json::Value`. -/
inductive Value where
  | null
  | bool (value : Bool)
  | number (value : Number)
  | string (text : List Char)
  | array (values : List Value)
  | object (entries : List (List Char × Value))

end Json

/-- The functions of other packages and the printing of floats, as far as reading
values goes. A date and time is its distance from the start of the year 2000. -/
structure Packages where
  decimal : Decimal.Package
  fromSlice : Bytes → Except String Json.Value
  dateTimeInRange : Int → Bool
  dateInRange : Int → Bool
  shortest32 : Nat → Shortest
  shortest64 : Nat → Shortest
  /-- How an `f32` is printed after its conversion to an `f64`. -/
  shortest32As64 : Nat → Shortest

/-- Why a value is not read. -/
abbrev Failure := Decimal.Failure

/-- `f32`: the number itself, and the same number as an `f64`. -/
structure F32 where
  number : FloatValue
  widened : FloatValue
  deriving DecidableEq, Repr

/-! ### Values -/

def failedToFill : Failure := .message "failed to fill whole buffer"

def invalidBufferSize : Failure := .message "invalid buffer size"

/-- A big-endian word of `size` bytes, with nothing behind it. -/
def wordFromSql (size : Nat) (notDrained : Failure) (buf : Bytes) : Except Failure Nat :=
  if buf.length < size then .error failedToFill
  else if (buf.drop size).isEmpty then .ok (beNat (buf.take size))
  else .error notDrained

/-- Reading a 64-bit word as `i64`. -/
def asI64 (word : Nat) : Int :=
  if word < 2 ^ 63 then word else word - 2 ^ 64

def boolFromSql (buf : Bytes) : Except Failure Bool :=
  match buf with
  | [byte] => .ok (byte != 0)
  | _ => .error invalidBufferSize

def byteaFromSql (buf : Bytes) : Except Failure Bytes := .ok buf

def textFromSql (buf : Bytes) : Except Failure (List Char) :=
  match Utf8.decode? buf with
  | some text => .ok text
  | none => .error (.message "invalid utf-8")

/-- `ltree`, `lquery` and `ltxtquery`: a version in front of the text. -/
def versionedFromSql (wrongVersion : String) (buf : Bytes) : Except Failure (List Char) :=
  match buf with
  | 1 :: rest => textFromSql rest
  | _ => .error (.message wrongVersion)

def int2FromSql (buf : Bytes) : Except Failure Int :=
  (wordFromSql 2 invalidBufferSize buf).map Decimal.asI16

def int4FromSql (buf : Bytes) : Except Failure Int :=
  (wordFromSql 4 invalidBufferSize buf).map asI32

def oidFromSql (buf : Bytes) : Except Failure Nat := wordFromSql 4 invalidBufferSize buf

def int8FromSql (buf : Bytes) : Except Failure Int :=
  (wordFromSql 8 invalidBufferSize buf).map asI64

def float4FromSql (packages : Packages) (buf : Bytes) : Except Failure F32 :=
  (wordFromSql 4 invalidBufferSize buf).map fun bits =>
    ⟨.ofBits 8 23 packages.shortest32 bits, .ofBits 8 23 packages.shortest32As64 bits⟩

def float8FromSql (packages : Packages) (buf : Bytes) : Except Failure FloatValue :=
  (wordFromSql 8 invalidBufferSize buf).map (.ofBits 11 52 packages.shortest64)

def timestampFromSql (buf : Bytes) : Except Failure Int :=
  (wordFromSql 8 (.message "invalid message length: timestamp not drained") buf).map asI64

def dateFromSql (buf : Bytes) : Except Failure Int :=
  (wordFromSql 4 (.message "invalid message length: date not drained") buf).map asI32

def timeFromSql (buf : Bytes) : Except Failure Int :=
  (wordFromSql 8 (.message "invalid message length: time not drained") buf).map asI64

def uuidFromSql (buf : Bytes) : Except Failure Bytes :=
  if buf.length ≠ 16 then .error (.message "invalid message length: uuid size mismatch")
  else .ok buf

/-- Two bytes of an IPv6 address make a segment. -/
def segments : Bytes → List Nat
  | high :: low :: rest => beNat [high, low] :: segments rest
  | _ => []

/-- The `addr` of `inet_from_sql`. -/
def inetFromSql (buf : Bytes) : Except Failure IpAddr :=
  match buf with
  | family :: netmask :: _ :: len :: buf =>
      if family = 2 then
        if 32 < netmask then .error (.message "invalid IPv4 netmask")
        else if len ≠ 4 then .error (.message "invalid IPv4 address length")
        else if buf.length < 4 then .error failedToFill
        else if (buf.drop 4).isEmpty then .ok (.v4 ((buf.take 4).map UInt8.toNat))
        else .error invalidBufferSize
      else if family = 3 then
        if 128 < netmask then .error (.message "invalid IPv6 netmask")
        else if len ≠ 16 then .error (.message "invalid IPv6 address length")
        else if buf.length < 16 then .error failedToFill
        else if (buf.drop 16).isEmpty then .ok (.v6 (segments (buf.take 16)))
        else .error invalidBufferSize
      else .error (.message "invalid IP family")
  | _ => .error failedToFill

/-! ### Implementations of `FromSql` -/

def wasNull : Failure := .message "a Postgres value was `NULL`"

section

variable {Value : Type}

/-- An implementation that `accepts!` these types; a NULL is an error. -/
def simpleFrom (accepted : List SqlType) (fromSql : SqlType → Bytes → Except Failure Value) :
    FromSql SqlType Value Failure where
  accepts ty := accepted.contains ty
  fromSqlNullable ty raw :=
    match raw with
    | some raw => fromSql ty raw
    | none => .error wasNull

/-- `Option<T>`. -/
def optional (fromSql : FromSql SqlType Value Failure) : FromSql SqlType (Option Value) Failure where
  accepts := fromSql.accepts
  fromSqlNullable ty raw :=
    match raw with
    | some raw => (fromSql.fromSqlNullable ty (some raw)).map some
    | none => .ok none

end

/-- `&str` and `String`. -/
def strFrom : FromSql SqlType (List Char) Failure where
  accepts ty :=
    [.varchar, .text, .bpchar, .name, .unknown].contains ty ||
      ["citext".toList, "ltree".toList, "lquery".toList, "ltxtquery".toList].contains ty.typeName
  fromSqlNullable ty raw :=
    match raw with
    | some raw =>
        if ty.typeName = "ltree".toList then versionedFromSql "ltree version 1 only supported" raw
        else if ty.typeName = "lquery".toList then
          versionedFromSql "lquery version 1 only supported" raw
        else if ty.typeName = "ltxtquery".toList then
          versionedFromSql "ltxtquery version 1 only supported" raw
        else textFromSql raw
    | none => .error wasNull

def boolFrom : FromSql SqlType Bool Failure := simpleFrom [.bool] fun _ => boolFromSql

def bytesFrom : FromSql SqlType Bytes Failure := simpleFrom [.bytea] fun _ => byteaFromSql

def i16From : FromSql SqlType Int Failure := simpleFrom [.int2] fun _ => int2FromSql

def i32From : FromSql SqlType Int Failure := simpleFrom [.int4] fun _ => int4FromSql

def u32From : FromSql SqlType Nat Failure :=
  simpleFrom [.oid, .regproc, .regprocedure, .regoper, .regoperator, .regclass, .regtype,
    .regnamespace, .regcollation, .xid, .cid] fun _ => oidFromSql

def i64From : FromSql SqlType Int Failure := simpleFrom [.int8] fun _ => int8FromSql

def uuidFrom : FromSql SqlType Bytes Failure := simpleFrom [.uuid] fun _ => uuidFromSql

def ipAddrFrom : FromSql SqlType IpAddr Failure := simpleFrom [.inet] fun _ => inetFromSql

/-- `NaiveTime`: adding to midnight wraps around after a day. -/
def naiveTimeFrom : FromSql SqlType Int Failure :=
  simpleFrom [.time] fun _ raw => (timeFromSql raw).map fun usec => usec % 86400000000

section

variable (packages : Packages)

def f32From : FromSql SqlType F32 Failure := simpleFrom [.float4] fun _ => float4FromSql packages

def f64From : FromSql SqlType FloatValue Failure :=
  simpleFrom [.float8] fun _ => float8FromSql packages

def decimalFrom : FromSql SqlType Decimal Failure :=
  simpleFrom [.numeric] fun _ => Decimal.fromSql packages.decimal

/-- The value at a distance from the start of the year 2000, if there is one. -/
def checkedAdd (inRange : Int → Bool) (distance : Int) : Except Failure Int :=
  if inRange distance then .ok distance else .error (.message "value too large to decode")

def naiveDateTimeFrom : FromSql SqlType Int Failure :=
  simpleFrom [.timestamp] fun _ raw => do
    checkedAdd packages.dateTimeInRange (← timestampFromSql raw)

def naiveDateFrom : FromSql SqlType Int Failure :=
  simpleFrom [.date] fun _ raw => do checkedAdd packages.dateInRange (← dateFromSql raw)

def parseJson (raw : Bytes) : Except Failure Json.Value :=
  (packages.fromSlice raw).mapError .message

def jsonFrom : FromSql SqlType Json.Value Failure :=
  simpleFrom [.json, .jsonb] fun ty raw =>
    if ty = .jsonb then
      match raw with
      | [] => .error failedToFill
      | version :: rest =>
          if version ≠ 1 then .error (.message "unsupported JSONB encoding version")
          else parseJson packages rest
    else parseJson packages raw

end

end OpenGauss.Types
