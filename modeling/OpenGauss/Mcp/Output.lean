import OpenGauss.Mcp.Interval

/-! The values of a row in the output (`gaussdb-mcp`, `output.rs`, and
`value_to_compact_string` of `cli.rs`). -/

set_option autoImplicit false

namespace OpenGauss.Mcp.Output

open Driver Lib Protocol OpenGauss.Types Json

/-- The functions of other packages, with those that print their values. -/
structure Packages extends Types.Packages where
  decimalText : Decimal → Text
  toF64 : Decimal → Option FloatValue
  valueText : Value → Text
  /-- How `serde_json` writes a float, and when it writes an exponent. -/
  floatText : Shortest → Text
  scientific : Nat → Int → Bool
  dateTimeText : Int → Text
  dateText : Int → Text
  timeText : Int → Text
  uuidText : Bytes → Text

/-! ### Texts -/

/-- `{:02x}`. -/
def hexByte (byte : UInt8) : Text :=
  [Nat.digitChar (byte.toNat / 16), Nat.digitChar (byte.toNat % 16)]

def hexBytes (bytes : Bytes) : Text := bytes.flatMap hexByte

def formatUnsupportedType (typeName : Text) (bytes : Bytes) : Text :=
  "<unsupported type ".toList ++ typeName ++ ">: \\x".toList ++ hexBytes bytes

/-- Bytes with colons between them. -/
def macText (bytes : Bytes) : Text := [':'].intercalate (bytes.map hexByte)

def boolText (value : Bool) : Text := if value then "true".toList else "false".toList

def ipv4Text (octets : List Nat) : Text := ['.'].intercalate (octets.map (Nat.toDigits 10))

def segmentsText (segments : List Nat) : Text := [':'].intercalate (segments.map (Nat.toDigits 16))

/-- The first of the longest runs of zeros: where it starts, and its length. -/
def longestZeros : Nat → List Nat → Nat × Nat
  | start, [] => (start, 0)
  | start, segment :: rest =>
      let run := ((segment :: rest).takeWhile (· == 0)).length
      let later := longestZeros (start + 1) rest
      if later.2 ≤ run then (start, run) else later

def ipv6Text (segments : List Nat) : Text :=
  -- `to_ipv4_mapped`
  if segments.take 6 = [0, 0, 0, 0, 0, 0xffff] then
    "::ffff:".toList ++
      ipv4Text ((segments.drop 6).flatMap fun segment => [segment / 256, segment % 256])
  else
    let (start, length) := longestZeros 0 segments
    if 1 < length then
      segmentsText (segments.take start) ++ "::".toList ++
        segmentsText (segments.drop (start + length))
    else segmentsText segments

/-- `Display` of `IpAddr`. -/
def ipText : IpAddr → Text
  | .v4 octets => ipv4Text octets
  | .v6 segments => ipv6Text segments

/-! ### Decimals -/

/-- `is_integer`. -/
def isInteger (d : Decimal) : Bool := d.mantissa % 10 ^ d.scale == 0

/-- `trunc`, without its sign. -/
def integerPart (d : Decimal) : Nat := d.mantissa / 10 ^ d.scale

def toI64 (d : Decimal) : Option Int :=
  if d.negative then if integerPart d ≤ 2 ^ 63 then some (-(integerPart d : Int)) else none
  else if integerPart d < 2 ^ 63 then some (integerPart d) else none

def toU64 (d : Decimal) : Option Nat :=
  if d.negative then none else if integerPart d < 2 ^ 64 then some (integerPart d) else none

/-- `serde_json::Number::from_f64`. -/
def fromF64 : FloatValue → Option Number
  | .finite digits => some (.float digits)
  | _ => none

/-- `json!` of a float. -/
def jsonOfFloat (value : FloatValue) : Value :=
  match fromF64 value with
  | some number => .number number
  | none => .null

section

variable (packages : Packages)

def integerDigitCount (d : Decimal) : Nat :=
  if d.isZero then 1
  else Text.utf8Length (Text.splitTwo '.' (packages.decimalText (d.setSignNegative false))).1

def decimalToJson (d : Decimal) : Value :=
  if isInteger d then
    match toI64 d with
    | some i => .number (.integer i)
    | none =>
        match toU64 d with
        | some u => .number (.integer u)
        | none => .string (packages.decimalText d)
  else if 15 < integerDigitCount packages d + d.scale then .string (packages.decimalText d)
  else
    match (packages.toF64 d).bind fromF64 with
    | some n => .number n
    | none => .string (packages.decimalText d)

/-- `Display` of `serde_json::Number`. -/
def numberText : Number → Text
  | .integer value => Numeral.showSigned value
  | .float digits => packages.floatText digits

def valueToCompactString : Value → Text
  | .null => "NULL".toList
  | .string s => s
  | .number n => numberText packages n
  | .bool b => boolText b
  | other => packages.valueText other

end

/-! ### Reading a field -/

/-- `RawBytes`: the bytes of a value of any type. -/
def rawBytes : FromSql SqlType (Option Bytes) Failure where
  accepts _ := true
  fromSqlNullable _ raw := .ok raw

section

variable {Value Out : Type}

/-- The value of a result, if it is no error; `none` is a panic. -/
def okOf : Except (RowError (FromSqlError SqlType Failure)) Value → Option (Option Value)
  | .ok value => some (some value)
  | .error (.fromSql (.conversion .overflow) _) => none
  | .error _ => some none

/-- `row.try_get(idx)`. -/
def tryGet (row : Row SqlType) (idx : Nat) (fromSql : FromSql SqlType Value Failure) :
    Option (Option Value) :=
  (row.tryGet fromSql (.index idx)).bind okOf

/-- An `extract` closure: what becomes of a value, of a NULL and of an error; the
outer option is for panics. -/
def extract (row : Row SqlType) (idx : Nat) (fromSql : FromSql SqlType (Option Value) Failure)
    (null : Out) (render : Value → Option (Option Out)) : Option (Option Out) := do
  match ← tryGet row idx fromSql with
  | some (some value) => render value
  | some none => return some null
  | none => return none

/-- A raw fallback in the place of what is not extracted. -/
def orFallback (extracted : Option (Option Out)) (fallback : Option Out) : Option Out := do
  match ← extracted with
  | some v => return v
  | none => fallback

end

section

variable (row : Row SqlType) (idx : Nat) (ty : SqlType)

def rawBytesFallback : Option Value := do
  match ← tryGet row idx rawBytes with
  | some (some b) => return .string (formatUnsupportedType ty.typeName b)
  | some none => return .null
  | none => return .null

def rawBytesStringFallback : Option (Option Text) := do
  match ← tryGet row idx rawBytes with
  | some (some b) => return some (formatUnsupportedType ty.typeName b)
  | some none => return none
  | none => return none

def typedOrRaw (extracted : Option (Option Value)) : Option Value :=
  orFallback extracted (rawBytesFallback row idx ty)

def typedOrRawStr (extracted : Option (Option (Option Text))) : Option (Option Text) :=
  orFallback extracted (rawBytesStringFallback row idx ty)

section

variable {Read : Type}

/-- An arm that reads an `Option<T>` and renders every value of `T`. -/
def typed (fromSql : FromSql SqlType Read Failure) (render : Read → Value) : Option Value :=
  typedOrRaw row idx ty
    (extract row idx (optional fromSql) .null fun value => some (some (render value)))

def typedStr (fromSql : FromSql SqlType Read Failure) (render : Read → Text) :
    Option (Option Text) :=
  typedOrRawStr row idx ty
    (extract row idx (optional fromSql) none fun value => some (some (some (render value))))

end

/-- An arm that reads the raw bytes of a hardware address of this length. -/
def macaddr (length : Nat) : Option Value :=
  typedOrRaw row idx ty (extract row idx rawBytes .null fun b =>
    some (if b.length = length then some (.string (macText b)) else none))

def macaddrStr (length : Nat) : Option (Option Text) :=
  typedOrRawStr row idx ty (extract row idx rawBytes none fun b =>
    some (if b.length = length then some (some (macText b)) else none))

variable (packages : Packages)

def formatValueWithType : Option Value :=
  match ty with
  | .varchar | .text | .bpchar | .name | .unknown => typed row idx ty strFrom .string
  | .int2 => typed row idx ty i16From fun x => .number (.integer x)
  | .int4 => typed row idx ty i32From fun x => .number (.integer x)
  | .oid | .regproc | .regprocedure | .regoper | .regoperator | .regclass | .regtype
  | .regnamespace | .regcollation | .xid | .cid =>
      typed row idx ty u32From fun x => .number (.integer x)
  | .int8 => typed row idx ty i64From fun x => .number (.integer x)
  | .float4 => typed row idx ty (f32From packages.toPackages) fun x => jsonOfFloat x.widened
  | .float8 => typed row idx ty (f64From packages.toPackages) jsonOfFloat
  | .numeric => typed row idx ty (decimalFrom packages.toPackages) (decimalToJson packages)
  | .bool => typed row idx ty boolFrom .bool
  | .bytea => typed row idx ty bytesFrom fun b => .string ("\\x".toList ++ hexBytes b)
  | .uuid => typed row idx ty uuidFrom fun u => .string (packages.uuidText u)
  | .json | .jsonb => typed row idx ty (jsonFrom packages.toPackages) id
  | .timestamp | .timestamptz =>
      typed row idx ty (naiveDateTimeFrom packages.toPackages) fun v =>
        .string (packages.dateTimeText v)
  | .date =>
      typed row idx ty (naiveDateFrom packages.toPackages) fun v => .string (packages.dateText v)
  | .time | .timetz => typed row idx ty naiveTimeFrom fun v => .string (packages.timeText v)
  | .inet | .cidr => typed row idx ty ipAddrFrom fun ip => .string (ipText ip)
  | .macaddr => macaddr row idx ty 6
  | .macaddr8 => macaddr row idx ty 8
  | .interval =>
      typedOrRaw row idx ty (extract row idx rawBytes .null fun b =>
        (formatInterval b).map fun text => some (.string text))
  | .other _ => rawBytesFallback row idx ty

def formatFieldString : Option (Option Text) :=
  match ty with
  | .varchar | .text | .bpchar | .name | .unknown => typedStr row idx ty strFrom id
  | .int2 => typedStr row idx ty i16From Numeral.showSigned
  | .int4 => typedStr row idx ty i32From Numeral.showSigned
  | .oid | .regproc | .regprocedure | .regoper | .regoperator | .regclass | .regtype
  | .regnamespace | .regcollation | .xid | .cid =>
      typedStr row idx ty u32From fun x => Numeral.showSigned x
  | .int8 => typedStr row idx ty i64From Numeral.showSigned
  | .float4 => typedStr row idx ty (f32From packages.toPackages) fun x => x.number.display
  | .float8 => typedStr row idx ty (f64From packages.toPackages) FloatValue.display
  | .numeric => typedStr row idx ty (decimalFrom packages.toPackages) packages.decimalText
  | .bool => typedStr row idx ty boolFrom boolText
  | .bytea => typedStr row idx ty bytesFrom fun b => "\\x".toList ++ hexBytes b
  | .uuid => typedStr row idx ty uuidFrom packages.uuidText
  | .json | .jsonb => typedStr row idx ty (jsonFrom packages.toPackages) packages.valueText
  | .timestamp | .timestamptz =>
      typedStr row idx ty (naiveDateTimeFrom packages.toPackages) packages.dateTimeText
  | .date => typedStr row idx ty (naiveDateFrom packages.toPackages) packages.dateText
  | .time | .timetz => typedStr row idx ty naiveTimeFrom packages.timeText
  | .inet | .cidr => typedStr row idx ty ipAddrFrom ipText
  | .macaddr => macaddrStr row idx ty 6
  | .macaddr8 => macaddrStr row idx ty 8
  | .interval =>
      typedOrRawStr row idx ty (extract row idx rawBytes none fun b =>
        (formatInterval b).map fun text => some (some text))
  | .other _ => rawBytesStringFallback row idx ty

end

end OpenGauss.Mcp.Output
