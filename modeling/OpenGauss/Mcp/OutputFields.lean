import OpenGauss.Mcp.Output
import OpenGauss.Types.NumericDecoding

/-! What an arm of the output makes of a field: what its value is rendered as, or
the placeholder with the raw bytes. -/

set_option autoImplicit false

namespace OpenGauss.Mcp.Output

open Driver Lib Protocol OpenGauss.Types Json

/-- A field of a row: the type of its column, and its bytes unless it is NULL. -/
structure Field where
  row : Row SqlType
  idx : Nat
  ty : SqlType
  raw : Option Bytes
  column : (row.columns[idx]?).map Column.type = some ty
  buffer : row.colBuffer idx = some raw

/-- The text in the place of a value that is not decoded. -/
def placeholder (ty : SqlType) (raw : Bytes) : Text := formatUnsupportedType ty.typeName raw

section

variable {Read Out : Type}

/-- The value of a conversion, if it is no error; `none` is a panic. -/
def okOfConversion : Except Failure Read → Option (Option Read)
  | .ok value => some (some value)
  | .error .overflow => none
  | .error (.message _) => some none

/-- What `try_get` reads from a field of this type. -/
def readAs (fromSql : FromSql SqlType Read Failure) (ty : SqlType) (raw : Option Bytes) :
    Option (Option Read) :=
  if fromSql.accepts ty then okOfConversion (fromSql.fromSqlNullable ty raw) else some none

theorem okOf_conversion (result : Except Failure Read) (idx : Nat) :
    okOf (result.mapError fun error => .fromSql (.conversion error) idx) = okOfConversion result := by
  cases result with
  | ok value => rfl
  | error failure => cases failure <;> rfl

variable (field : Field)

theorem tryGet_eq (fromSql : FromSql SqlType Read Failure) :
    tryGet field.row field.idx fromSql = readAs fromSql field.ty field.raw := by
  obtain ⟨column, found, same⟩ := Option.map_eq_some_iff.mp field.column
  have within : ¬(field.row.columns.map Column.name).length ≤ field.idx := by
    rw [List.length_map]
    exact Nat.not_le.mpr (List.getElem?_eq_some_iff.mp found).1
  have index : (RowIndex.index field.idx).idx (field.row.columns.map Column.name) =
      some field.idx := if_neg within
  rw [tryGet, Row.tryGet, Row.getInner, index, readAs]
  dsimp only
  rw [found, field.buffer, ← same, Option.bind_eq_bind, Option.bind_some]
  cases accepted : fromSql.accepts column.type with
  | false =>
      rw [Bool.not_false, if_pos rfl, if_neg Bool.false_ne_true]
      rfl
  | true =>
      rw [Bool.not_true, if_neg Bool.false_ne_true, if_pos rfl]
      exact okOf_conversion _ _

theorem tryGet_rawBytes : tryGet field.row field.idx rawBytes = some (some field.raw) :=
  tryGet_eq field rawBytes

/-! ### The fallbacks -/

theorem rawBytesFallback_eq :
    rawBytesFallback field.row field.idx field.ty =
      some (field.raw.elim .null fun raw => .string (placeholder field.ty raw)) := by
  rw [rawBytesFallback, tryGet_rawBytes]
  cases field.raw <;> rfl

theorem rawBytesStringFallback_eq :
    rawBytesStringFallback field.row field.idx field.ty =
      some (field.raw.map (placeholder field.ty)) := by
  rw [rawBytesStringFallback, tryGet_rawBytes]
  cases field.raw <;> rfl

/-! ### The arms -/

theorem readAs_optional_null (fromSql : FromSql SqlType Read Failure) (ty : SqlType) :
    readAs (optional fromSql) ty none = some none ∨
      readAs (optional fromSql) ty none = some (some none) := by
  rw [readAs]
  split
  · exact .inr rfl
  · exact .inl rfl

theorem readAs_optional (fromSql : FromSql SqlType Read Failure) (ty : SqlType) (raw : Bytes) :
    readAs (optional fromSql) ty (some raw) =
      (readAs fromSql ty (some raw)).map fun read => read.map some := by
  have accepts : (optional fromSql).accepts ty = fromSql.accepts ty := rfl
  have converts : (optional fromSql).fromSqlNullable ty (some raw) =
      (fromSql.fromSqlNullable ty (some raw)).map some := rfl
  rw [readAs, readAs, accepts, converts]
  split
  · cases fromSql.fromSqlNullable ty (some raw) with
    | ok value => rfl
    | error failure => cases failure <;> rfl
  · rfl

variable {field} {raw : Bytes}

theorem typed_null (null : field.raw = none) (fromSql : FromSql SqlType Read Failure)
    (render : Read → Value) : typed field.row field.idx field.ty fromSql render = some .null := by
  rw [typed, typedOrRaw, rawBytesFallback_eq, extract, tryGet_eq, null]
  rcases readAs_optional_null fromSql field.ty with read | read <;> rw [read] <;> rfl

theorem typedStr_null (null : field.raw = none) (fromSql : FromSql SqlType Read Failure)
    (render : Read → Text) : typedStr field.row field.idx field.ty fromSql render = some none := by
  rw [typedStr, typedOrRawStr, rawBytesStringFallback_eq, extract, tryGet_eq, null]
  rcases readAs_optional_null fromSql field.ty with read | read <;> rw [read] <;> rfl

theorem typed_some (present : field.raw = some raw) (fromSql : FromSql SqlType Read Failure)
    (render : Read → Value) :
    typed field.row field.idx field.ty fromSql render =
      (readAs fromSql field.ty (some raw)).map fun read =>
        read.elim (.string (placeholder field.ty raw)) render := by
  rw [typed, typedOrRaw, rawBytesFallback_eq, extract, tryGet_eq, present, readAs_optional]
  cases readAs fromSql field.ty (some raw) with
  | none => rfl
  | some read => cases read <;> rfl

theorem typedStr_some (present : field.raw = some raw) (fromSql : FromSql SqlType Read Failure)
    (render : Read → Text) :
    typedStr field.row field.idx field.ty fromSql render =
      (readAs fromSql field.ty (some raw)).map fun read =>
        some (read.elim (placeholder field.ty raw) render) := by
  rw [typedStr, typedOrRawStr, rawBytesStringFallback_eq, extract, tryGet_eq, present,
    readAs_optional]
  cases readAs fromSql field.ty (some raw) with
  | none => rfl
  | some read => cases read <;> rfl

end

/-! ### What is read -/

theorem readAs_simple {Read : Type} {accepted : List SqlType}
    {fromSql : SqlType → Bytes → Except Failure Read} {ty : SqlType} {raw : Bytes} {value : Read}
    (member : accepted.contains ty = true) (reads : fromSql ty raw = .ok value) :
    readAs (simpleFrom accepted fromSql) ty (some raw) = some (some value) := by
  have accepts : (simpleFrom accepted fromSql).accepts ty = true := member
  have converts : (simpleFrom accepted fromSql).fromSqlNullable ty (some raw) = .ok value := reads
  rw [readAs, if_pos accepts, converts]
  rfl

theorem ok_of_readAs_simple {Read : Type} {accepted : List SqlType}
    {fromSql : SqlType → Bytes → Except Failure Read} {ty : SqlType} {raw : Bytes} {value : Read}
    (reads : readAs (simpleFrom accepted fromSql) ty (some raw) = some (some value)) :
    fromSql ty raw = .ok value := by
  have converts : (simpleFrom accepted fromSql).fromSqlNullable ty (some raw) = fromSql ty raw := rfl
  rw [readAs, converts] at reads
  split at reads
  · cases result : fromSql ty raw with
    | ok other =>
        rw [result] at reads
        rw [Option.some.inj (Option.some.inj reads)]
    | error failure =>
        rw [result] at reads
        cases failure <;> cases reads
  · cases reads

theorem readAs_other {Read : Type} {fromSql : FromSql SqlType Read Failure} {ty : SqlType}
    (other : fromSql.accepts ty = false) (raw : Bytes) (value : Read) :
    readAs fromSql ty (some raw) ≠ some (some value) := by
  rw [readAs, other, if_neg Bool.false_ne_true]
  exact fun same => Option.some_ne_none value (Option.some.inj same).symm

theorem wordFromSql_ok {size : Nat} {raw : Bytes} (long : raw.length = size)
    (notDrained : Failure) : wordFromSql size notDrained raw = .ok (beNat raw) := by
  have drained : raw.drop size = [] := List.drop_of_length_le (Nat.le_of_eq long)
  have whole : raw.take size = raw := List.take_of_length_le (Nat.le_of_eq long)
  rw [wordFromSql, if_neg (Nat.not_lt.mpr (Nat.le_of_eq long.symm)), drained, whole]
  rfl

theorem readAs_word_iff {Read : Type} {accepted : List SqlType} {size : Nat} {notDrained : Failure}
    {make : Nat → Read} {ty : SqlType} {raw : Bytes} {value : Read}
    (member : accepted.contains ty = true) :
    readAs (simpleFrom accepted fun _ buf => (wordFromSql size notDrained buf).map make) ty
        (some raw) = some (some value) ↔ raw.length = size ∧ make (beNat raw) = value := by
  constructor
  · intro reads
    have word := ok_of_readAs_simple reads
    by_cases long : raw.length = size
    · rw [wordFromSql_ok long] at word
      exact ⟨long, Except.ok.inj word⟩
    · rw [wordFromSql] at word
      split at word
      · cases word
      · next enough =>
          have more : (raw.drop size).isEmpty = false := by
            rw [List.isEmpty_eq_false_iff, ← List.length_pos_iff, List.length_drop]
            omega
          rw [more, if_neg Bool.false_ne_true] at word
          cases word
  · rintro ⟨long, rfl⟩
    exact readAs_simple member (congrArg (Except.map make) (wordFromSql_ok long notDrained))

section

variable {packages : Packages} {raw : Bytes}

theorem parseJson_ok {document : Value}
    (parsed : packages.fromSlice raw = .ok document) :
    parseJson packages.toPackages raw = .ok document := by
  rw [parseJson, parsed]
  rfl

theorem readAs_json {document : Value} (parsed : packages.fromSlice raw = .ok document) :
    readAs (jsonFrom packages.toPackages) .json (some raw) = some (some document) := by
  refine readAs_simple rfl ?_
  rw [if_neg SqlType.noConfusion]
  exact parseJson_ok parsed

theorem readAs_jsonb {rest : Bytes} {document : Value}
    (parsed : packages.fromSlice rest = .ok document) :
    readAs (jsonFrom packages.toPackages) .jsonb (some (1 :: rest)) = some (some document) := by
  refine readAs_simple rfl ?_
  rw [if_pos rfl]
  exact parseJson_ok parsed

theorem fromSlice_of_parseJson {document : Value}
    (parsed : parseJson packages.toPackages raw = .ok document) :
    packages.fromSlice raw = .ok document := by
  rw [parseJson] at parsed
  cases result : packages.fromSlice raw with
  | ok other =>
      rw [result] at parsed
      exact congrArg Except.ok (Except.ok.inj parsed)
  | error message =>
      rw [result] at parsed
      cases parsed

theorem fromSlice_of_readAs_json {document : Value}
    (reads : readAs (jsonFrom packages.toPackages) .json (some raw) = some (some document)) :
    packages.fromSlice raw = .ok document := by
  have parsed := ok_of_readAs_simple reads
  rw [if_neg SqlType.noConfusion] at parsed
  exact fromSlice_of_parseJson parsed

theorem fromSlice_of_readAs_jsonb {document : Value}
    (reads : readAs (jsonFrom packages.toPackages) .jsonb (some raw) = some (some document)) :
    ∃ rest, raw = 1 :: rest ∧ packages.fromSlice rest = .ok document := by
  have parsed := ok_of_readAs_simple reads
  rw [if_pos rfl] at parsed
  cases raw with
  | nil => cases parsed
  | cons version rest =>
      by_cases one : version = 1
      · refine ⟨rest, congrArg (· :: rest) one, ?_⟩
        dsimp only at parsed
        rw [if_neg (not_not_intro one)] at parsed
        exact fromSlice_of_parseJson parsed
      · dsimp only at parsed
        rw [if_pos one] at parsed
        cases parsed

end

/-! ### Rows of one field -/

theorem colBuffer_single (columns : List (Column SqlType)) (raw : Option Bytes) :
    Row.colBuffer ⟨columns, ⟨raw.getD [], 1⟩, [raw.map fun bytes => ⟨0, bytes.length⟩]⟩ 0 =
      some raw := by
  cases raw with
  | none => rfl
  | some bytes =>
      have within : (0 : Nat) ≤ bytes.length ∧ bytes.length ≤ bytes.length :=
        ⟨Nat.zero_le _, Nat.le_refl _⟩
      have sliced : slice? bytes ⟨0, bytes.length⟩ = some bytes := by
        rw [slice?, if_pos within, List.take_length, List.drop_zero]
      exact congrArg (fun part => part.bind fun bytes => some (some bytes)) sliced

def Field.single (ty : SqlType) (raw : Option Bytes) : Field where
  row := ⟨[⟨[], ty⟩], ⟨raw.getD [], 1⟩, [raw.map fun bytes => ⟨0, bytes.length⟩]⟩
  idx := 0
  ty := ty
  raw := raw
  column := rfl
  buffer := colBuffer_single _ raw

/-! ### Packages of short values -/

/-- Where the point of a float stands, counted from its first digit. -/
def pointPlace (mantissa : Nat) (exponent : Int) : Int :=
  (Nat.toDigits 10 mantissa).length + exponent

/-- The notation of `serde_json` for floats that are very large or very small. -/
def exponentText (mantissa : Nat) (exponent : Int) : Text :=
  let digits := Nat.toDigits 10 mantissa
  digits.take 1 ++ (if digits.length = 1 then [] else '.' :: digits.tail) ++
    'e' :: Numeral.showSigned (pointPlace mantissa exponent - 1)

def printsExponent (mantissa : Nat) (exponent : Int) : Bool :=
  decide (16 < pointPlace mantissa exponent ∨ pointPlace mantissa exponent ≤ -5)

/-- How `serde_json` writes a float. -/
def serdeFloat (digits : Shortest) : Text :=
  Numeral.withSign digits.negative
    (if printsExponent digits.mantissa digits.exponent then
      exponentText digits.mantissa digits.exponent
    else if digits.exponent < 0 then
      Numeral.fixedPoint digits.mantissa (-digits.exponent).toNat
    else Nat.toDigits 10 (digits.mantissa * 10 ^ digits.exponent.toNat) ++ ['.', '0'])

/-- Documents that are `null` or a string of one plain character. -/
def shortDocument (raw : Bytes) : Except String Value :=
  match raw with
  | [110, 117, 108, 108] => .ok .null
  | [34, byte, 34] =>
      if 97 ≤ byte ∧ byte ≤ 122 then .ok (.string [Char.ofNat byte.toNat])
      else .error "expected value"
  | _ => .error "expected value"

/-- What `serde_json` prints for values that hold no others. -/
def shortDocumentText : Value → Text
  | .null => "null".toList
  | .bool value => boolText value
  | .number (.integer value) => Numeral.showSigned value
  | .number (.float digits) => serdeFloat digits
  | .string text => '"' :: text ++ ['"']
  | .array _ => "[]".toList
  | .object _ => "{}".toList

/-- The other packages on short values; dates and times have no text here. -/
def shortPackages : Packages where
  decimal := Decimal.rustDecimal
  fromSlice := shortDocument
  dateTimeInRange _ := true
  dateInRange _ := true
  shortest32 _ := .ofDecimal false 0 0
  shortest64 _ := .ofDecimal false 0 0
  shortest32As64 _ := .ofDecimal false 0 0
  decimalText d := Numeral.withSign d.negative (Numeral.fixedPoint d.mantissa d.scale)
  toF64 d := some (.finite (.ofDecimal d.negative d.mantissa (-d.scale)))
  valueText := shortDocumentText
  floatText := serdeFloat
  scientific := printsExponent
  dateTimeText _ := []
  dateText _ := []
  timeText _ := []
  uuidText := hexBytes

end OpenGauss.Mcp.Output
