import OpenGauss.Mcp.IntervalProperties
import OpenGauss.Mcp.OutputFields
import OpenGauss.Types.NumericRange

/-! Which values are shown in the output: a value that is not NULL can be rendered
like one, or as if its bytes could not be decoded. -/

set_option autoImplicit false

namespace OpenGauss.Mcp.Output

open Driver Lib Protocol OpenGauss.Types Json

/-- What other packages document: how decimals are made, that no printed value has a
`<` in it, and that a JSON string is no longer than its document. -/
structure Packages.Documented (packages : Packages) : Prop where
  decimal : packages.decimal.DocumentedFully
  decimalText : ∀ d, '<' ∉ packages.decimalText d
  dateTimeText : ∀ distance, '<' ∉ packages.dateTimeText distance
  dateText : ∀ distance, '<' ∉ packages.dateText distance
  timeText : ∀ distance, '<' ∉ packages.timeText distance
  uuidText : ∀ bytes, '<' ∉ packages.uuidText bytes
  stringLength : ∀ raw text, packages.fromSlice raw = .ok (.string text) → text.length ≤ raw.length

/-- The bytes of an address with its family, its netmask and its length. -/
def IsInet (raw : Bytes) : Prop :=
  ∃ family netmask cidr len address, raw = family :: netmask :: cidr :: len :: address ∧
    (family = 2 ∧ netmask ≤ 32 ∧ len = 4 ∧ address.length = 4 ∨
      family = 3 ∧ netmask ≤ 128 ∧ len = 16 ∧ address.length = 16)

/-- A time of day in microseconds. -/
def IsTimeOfDay (raw : Bytes) : Prop :=
  0 ≤ asI64 (beNat raw) ∧ asI64 (beNat raw) ≤ 86400000000

/-- A binary value of a type, in the range of the type of its decoder. A type
without an arm of its own has none here. -/
def WellFormed (packages : Packages) (ty : SqlType) (raw : Bytes) : Prop :=
  match ty with
  | .varchar | .text | .bpchar | .name | .unknown => ∃ text, Utf8.decode? raw = some text
  | .int2 => raw.length = 2
  | .int4 | .oid | .regproc | .regprocedure | .regoper | .regoperator | .regclass | .regtype
  | .regnamespace | .regcollation | .xid | .cid | .float4 => raw.length = 4
  | .int8 | .float8 => raw.length = 8
  | .numeric => ∃ (numeric : Numeric) (d : Decimal), raw = numeric.encode ∧ d.value = numeric.value
  | .bool => raw.length = 1
  | .bytea => True
  | .uuid => raw.length = 16
  | .json => ∃ document, packages.fromSlice raw = .ok document
  | .jsonb => ∃ rest document, raw = 1 :: rest ∧ packages.fromSlice rest = .ok document
  | .timestamp | .timestamptz =>
      raw.length = 8 ∧ packages.dateTimeInRange (asI64 (beNat raw)) = true
  | .date => raw.length = 4 ∧ packages.dateInRange (asI32 (beNat raw)) = true
  | .time => raw.length = 8 ∧ IsTimeOfDay raw
  | .timetz => raw.length = 12 ∧ IsTimeOfDay (raw.take 8)
  | .inet | .cidr => IsInet raw
  | .macaddr => raw.length = 6
  | .macaddr8 => raw.length = 8
  | .interval => raw.length = 16
  | .other _ => False

/-- What a well-formed value has to be for its arm to show it. -/
def Showable (packages : Packages) (ty : SqlType) (raw : Bytes) : Prop :=
  match ty with
  | .timestamptz | .timetz | .cidr => False
  | .float4 => (FloatValue.ofBits 8 23 packages.shortest32As64 (beNat raw)).isFinite = true
  | .float8 => (FloatValue.ofBits 11 52 packages.shortest64 (beNat raw)).isFinite = true
  | .numeric => ∃ numeric : Numeric, raw = numeric.encode ∧ numeric.FitsDecimal
  | .json => packages.fromSlice raw ≠ .ok .null
  | .jsonb => packages.fromSlice raw.tail ≠ .ok .null
  | _ => True

/-- Neither missing nor the placeholder for these bytes. -/
def ShownAs (ty : SqlType) (raw : Bytes) (out : Option Value) : Prop :=
  ∃ value, out = some value ∧ value ≠ .null ∧ value ≠ .string (placeholder ty raw)

/-- What the output has for a field is a value. -/
def Shown (packages : Packages) (field : Field) (raw : Bytes) : Prop :=
  ShownAs field.ty raw (formatValueWithType field.row field.idx field.ty packages)

/-! ### The placeholder -/

theorem angle_mem_placeholder (ty : SqlType) (raw : Bytes) : '<' ∈ placeholder ty raw :=
  List.mem_cons_self

theorem ne_placeholder {text : Text} (plain : '<' ∉ text) (ty : SqlType) (raw : Bytes) :
    Value.string text ≠ .string (placeholder ty raw) := by
  intro same
  rw [Value.string.inj same] at plain
  exact plain (angle_mem_placeholder ty raw)

theorem hexBytes_length (bytes : Bytes) : (hexBytes bytes).length = 2 * bytes.length := by
  induction bytes with
  | nil => rfl
  | cons byte bytes ih =>
      have two : (hexByte byte).length = 2 := rfl
      rw [hexBytes, List.flatMap_cons, List.length_append, ← hexBytes, ih, two, List.length_cons]
      omega

theorem length_lt_hexText {start : Text} (filled : 0 < start.length) (name middle : Text)
    (bytes : Bytes) : bytes.length < (start ++ name ++ middle ++ hexBytes bytes).length := by
  rw [List.length_append, List.length_append, List.length_append, hexBytes_length]
  omega

/-- The placeholder is longer than the bytes that it stands for. -/
theorem length_lt_placeholder (ty : SqlType) (raw : Bytes) :
    raw.length < (placeholder ty raw).length :=
  length_lt_hexText (List.length_pos_of_mem List.mem_cons_self) ty.typeName _ raw

theorem ne_placeholder_of_length {text : Text} {raw : Bytes} (short : text.length ≤ raw.length)
    (ty : SqlType) : Value.string text ≠ .string (placeholder ty raw) := by
  intro same
  have long := length_lt_placeholder ty raw
  rw [← Value.string.inj same] at long
  exact absurd short (Nat.not_le.mpr long)

/-! ### Arms -/

section

variable {Read : Type} {field : Field} {raw : Bytes} {fromSql : FromSql SqlType Read Failure}

/-- An arm whose type reads these bytes shows what it renders. -/
theorem shownAs_typed_iff (present : field.raw = some raw) {value : Read}
    (reads : readAs fromSql field.ty (some raw) = some (some value)) (render : Read → Value) :
    ShownAs field.ty raw (typed field.row field.idx field.ty fromSql render) ↔
      render value ≠ .null ∧ render value ≠ .string (placeholder field.ty raw) := by
  rw [typed_some present, reads]
  constructor
  · intro shown
    obtain ⟨_, same, good⟩ := shown
    rw [← Option.some.inj same] at good
    exact good
  · intro good
    exact ⟨render value, rfl, good⟩

/-- An arm whose type does not read these bytes shows no value. -/
theorem not_shownAs_typed (present : field.raw = some raw)
    (fails : ∀ value, readAs fromSql field.ty (some raw) ≠ some (some value))
    (render : Read → Value) :
    ¬ShownAs field.ty raw (typed field.row field.idx field.ty fromSql render) := by
  intro shown
  obtain ⟨value, same, _, good⟩ := shown
  rw [typed_some present] at same
  cases read : readAs fromSql field.ty (some raw) with
  | none =>
      rw [read] at same
      cases same
  | some result =>
      cases result with
      | none =>
          rw [read] at same
          exact good (Option.some.inj same).symm
      | some value => exact fails value read

theorem shownAs_number (present : field.raw = some raw) {value : Read}
    (reads : readAs fromSql field.ty (some raw) = some (some value)) (render : Read → Number) :
    ShownAs field.ty raw
      (typed field.row field.idx field.ty fromSql fun read => .number (render read)) :=
  (shownAs_typed_iff present reads _).mpr ⟨Value.noConfusion, Value.noConfusion⟩

theorem shownAs_plain (present : field.raw = some raw) {value : Read}
    (reads : readAs fromSql field.ty (some raw) = some (some value)) {render : Read → Text}
    (plain : '<' ∉ render value) :
    ShownAs field.ty raw
      (typed field.row field.idx field.ty fromSql fun read => .string (render read)) :=
  (shownAs_typed_iff present reads _).mpr ⟨Value.noConfusion, ne_placeholder plain _ _⟩

end

/-! ### What is read -/

theorem readAs_str {ty : SqlType}
    (text : [SqlType.varchar, .text, .bpchar, .name, .unknown].contains ty = true)
    {raw : Bytes} {chars : Text} (decodes : Utf8.decode? raw = some chars) :
    readAs strFrom ty (some raw) = some (some chars) := by
  have reads : textFromSql raw = .ok chars := by rw [textFromSql, decodes]
  rw [List.contains_iff_mem] at text
  simp only [List.mem_cons, List.not_mem_nil, or_false] at text
  rcases text with rfl | rfl | rfl | rfl | rfl <;>
    rw [readAs, if_pos (by decide), strFrom] <;> dsimp only <;>
    rw [if_neg (by decide), if_neg (by decide), if_neg (by decide), reads] <;> rfl

/-- A decoded text has no more characters than bytes. -/
theorem decoded_length {raw : Bytes} {text : Text} (decodes : Utf8.decode? raw = some text) :
    text.length ≤ raw.length := by
  rw [← Utf8.encode_of_decode? decodes, Utf8.encode]
  clear decodes
  induction text with
  | nil => exact Nat.le_refl 0
  | cons char text ih =>
      have one := String.length_utf8EncodeChar char
      have positive := char.utf8Size_pos
      rw [List.flatMap_cons, List.length_append, List.length_cons]
      omega

/-! ### Plain texts -/

theorem not_mem_append {char : Char} {left right : Text} (notLeft : char ∉ left)
    (notRight : char ∉ right) : char ∉ left ++ right :=
  fun member => (List.mem_append.mp member).elim notLeft notRight

theorem digitChar_ne {digit : Nat} (small : digit < 16) : Nat.digitChar digit ≠ '<' := by
  have all : ∀ digit : Fin 16, Nat.digitChar digit ≠ '<' := by decide
  exact all ⟨digit, small⟩

theorem hexByte_plain (byte : UInt8) : '<' ∉ hexByte byte := by
  have byteLt := byte.toNat_lt
  rw [hexByte, List.mem_cons, List.mem_singleton, not_or]
  exact ⟨(digitChar_ne (by omega)).symm, (digitChar_ne (by omega)).symm⟩

theorem hexBytes_plain (bytes : Bytes) : '<' ∉ hexBytes bytes := by
  intro member
  obtain ⟨byte, _, found⟩ := List.mem_flatMap.mp member
  exact hexByte_plain byte found

theorem toDigits_plain {base : Nat} (large : 1 < base) (small : base ≤ 16) (number : Nat) :
    '<' ∉ Nat.toDigits base number := by
  induction number using Nat.strong_induction_on with
  | _ number ih =>
      by_cases last : number < base
      · rw [Nat.toDigits_of_lt_base last, List.mem_singleton]
        exact (digitChar_ne (Nat.lt_of_lt_of_le last small)).symm
      · have more := Nat.le_of_not_lt last
        rw [Nat.toDigits_of_base_le large more]
        refine not_mem_append (ih _ (Nat.div_lt_self (by omega) large)) ?_
        rw [List.mem_singleton]
        exact (digitChar_ne (Nat.lt_of_lt_of_le (Nat.mod_lt _ (by omega)) small)).symm

theorem intercalate_plain {separator : Char} (other : separator ≠ '<') {pieces : List Text}
    (plain : ∀ piece ∈ pieces, '<' ∉ piece) : '<' ∉ [separator].intercalate pieces := by
  induction pieces with
  | nil => exact List.not_mem_nil
  | cons piece pieces ih =>
      have first := plain piece List.mem_cons_self
      have others := ih fun other member => plain other (List.mem_cons_of_mem _ member)
      cases pieces with
      | nil =>
          rw [List.intercalate_singleton]
          exact first
      | cons next pieces =>
          rw [List.intercalate_cons_cons]
          refine not_mem_append (not_mem_append first ?_) others
          rw [List.mem_singleton]
          exact other.symm

theorem macText_plain (bytes : Bytes) : '<' ∉ macText bytes := by
  refine intercalate_plain (by decide) fun piece member => ?_
  obtain ⟨byte, _, rfl⟩ := List.mem_map.mp member
  exact hexByte_plain byte

theorem ipv4Text_plain (octets : List Nat) : '<' ∉ ipv4Text octets := by
  refine intercalate_plain (by decide) fun piece member => ?_
  obtain ⟨octet, _, rfl⟩ := List.mem_map.mp member
  exact toDigits_plain (by decide) (by decide) octet

theorem segmentsText_plain (segments : List Nat) : '<' ∉ segmentsText segments := by
  refine intercalate_plain (by decide) fun piece member => ?_
  obtain ⟨segment, _, rfl⟩ := List.mem_map.mp member
  exact toDigits_plain (by decide) (by decide) segment

theorem ipv6Text_plain (segments : List Nat) : '<' ∉ ipv6Text segments := by
  have mapped : '<' ∉ "::ffff:".toList := by decide
  have zeros : '<' ∉ "::".toList := by decide
  unfold ipv6Text
  split
  · exact not_mem_append mapped (ipv4Text_plain _)
  · dsimp only
    split
    · exact not_mem_append (not_mem_append (segmentsText_plain _) zeros) (segmentsText_plain _)
    · exact segmentsText_plain _

theorem ipText_plain (ip : IpAddr) : '<' ∉ ipText ip := by
  cases ip with
  | v4 octets => exact ipv4Text_plain octets
  | v6 segments => exact ipv6Text_plain segments

theorem readUnit_other {unit first second : Text} (other : second ≠ unit) (rest : List Text) :
    readUnit unit (first :: second :: rest) = some (0, first :: second :: rest) :=
  if_neg fun same => other (Option.some.inj same)

/-- The placeholder is not read as an INTERVAL. -/
theorem readInterval_placeholder (raw : Bytes) :
    readInterval (placeholder .interval raw) = none := by
  have shape : placeholder .interval raw = "<unsupported".toList ++ ' ' :: ("type".toList ++
      ' ' :: ("interval>:".toList ++ ' ' :: ("\\x".toList ++ hexBytes raw))) := rfl
  have first : ' ' ∉ "<unsupported".toList := by decide
  have second : ' ' ∉ "type".toList := by decide
  have third : ' ' ∉ "interval>:".toList := by decide
  have years : "type".toList ≠ "years".toList := by decide
  have mons : "type".toList ≠ "mons".toList := by decide
  have days : "type".toList ≠ "days".toList := by decide
  rw [readInterval, shape, List.splitOn_append_cons_self_of_not_mem first,
    List.splitOn_append_cons_self_of_not_mem second,
    List.splitOn_append_cons_self_of_not_mem third, readWords, bind_of (readUnit_other years _)]
  dsimp only
  rw [bind_of (readUnit_other mons _)]
  dsimp only
  rw [bind_of (readUnit_other days _)]
  rfl

/-! ### The arms of the types -/

section

variable {packages : Packages} {field : Field} {raw : Bytes}

theorem shownAs_str {chars : Text} (present : field.raw = some raw)
    (text : [SqlType.varchar, .text, .bpchar, .name, .unknown].contains field.ty = true)
    (decodes : Utf8.decode? raw = some chars) :
    ShownAs field.ty raw (typed field.row field.idx field.ty strFrom .string) :=
  (shownAs_typed_iff present (readAs_str text decodes) _).mpr
    ⟨Value.noConfusion, ne_placeholder_of_length (decoded_length decodes) _⟩

theorem shownAs_u32 (present : field.raw = some raw)
    (accepted : u32From.accepts field.ty = true) (long : raw.length = 4) :
    ShownAs field.ty raw
      (typed field.row field.idx field.ty u32From fun x => .number (.integer x)) :=
  shownAs_number present (readAs_simple accepted (wordFromSql_ok long _)) _

theorem jsonOfFloat_shown_iff (value : FloatValue) (text : Text) :
    jsonOfFloat value ≠ .null ∧ jsonOfFloat value ≠ .string text ↔ value.isFinite = true := by
  cases value with
  | finite digits => exact ⟨fun _ => rfl, fun _ => ⟨Value.noConfusion, Value.noConfusion⟩⟩
  | nan => exact ⟨fun shown => absurd rfl shown.1, Bool.noConfusion⟩
  | infinite negative => exact ⟨fun shown => absurd rfl shown.1, Bool.noConfusion⟩

theorem decimalToJson_cases (packages : Packages) (d : Decimal) :
    (∃ number, decimalToJson packages d = .number number) ∨
      decimalToJson packages d = .string (packages.decimalText d) := by
  unfold decimalToJson
  split
  · split
    · exact .inl ⟨_, rfl⟩
    · split
      · exact .inl ⟨_, rfl⟩
      · exact .inr rfl
  · split
    · exact .inr rfl
    · split
      · exact .inl ⟨_, rfl⟩
      · exact .inr rfl

theorem decimalToJson_shown (documented : packages.Documented) (d : Decimal) (ty : SqlType)
    (raw : Bytes) : decimalToJson packages d ≠ .null ∧
      decimalToJson packages d ≠ .string (placeholder ty raw) := by
  rcases decimalToJson_cases packages d with ⟨number, shown⟩ | shown
  · rw [shown]
    exact ⟨Value.noConfusion, Value.noConfusion⟩
  · rw [shown]
    exact ⟨Value.noConfusion, ne_placeholder (documented.decimalText d) ty raw⟩

theorem shownAs_numeric_iff (documented : packages.Documented) (present : field.raw = some raw)
    (numericType : field.ty = .numeric) {numeric : Numeric} (encoded : raw = numeric.encode) :
    ShownAs field.ty raw (typed field.row field.idx field.ty (decimalFrom packages.toPackages)
      (decimalToJson packages)) ↔ ∃ numeric : Numeric, raw = numeric.encode ∧ numeric.FitsDecimal := by
  have member : [SqlType.numeric].contains field.ty = true := by
    rw [numericType]
    rfl
  constructor
  · intro shown
    refine ⟨numeric, encoded, ?_⟩
    rw [← Decimal.fromSql_encode_ok_iff documented.decimal, ← encoded]
    by_contra fails
    exact not_shownAs_typed present
      (fun value reads => fails ⟨value, ok_of_readAs_simple reads⟩) _ shown
  · intro fits
    obtain ⟨other, same, fits⟩ := fits
    obtain ⟨d, reads⟩ := (Decimal.fromSql_encode_ok_iff documented.decimal other).mpr fits
    rw [← same] at reads
    exact (shownAs_typed_iff present (readAs_simple member reads) _).mpr
      (decimalToJson_shown documented d _ _)

/-- A document is shown unless it is `null`. -/
theorem shownAs_json_iff (present : field.raw = some raw) {document : Value}
    (reads : readAs (jsonFrom packages.toPackages) field.ty (some raw) = some (some document))
    (short : ∀ text, document = .string text → text.length ≤ raw.length) :
    ShownAs field.ty raw (typed field.row field.idx field.ty (jsonFrom packages.toPackages) id) ↔
      document ≠ .null := by
  refine (shownAs_typed_iff present reads id).trans (and_iff_left_of_imp fun _ same => ?_)
  exact ne_placeholder_of_length (short _ same) field.ty rfl

theorem document_ne_null_iff {document : Value} (parsed : packages.fromSlice raw = .ok document) :
    document ≠ .null ↔ packages.fromSlice raw ≠ .ok .null := by
  rw [parsed]
  exact ⟨fun present same => present (Except.ok.inj same), fun present same => present (same ▸ rfl)⟩

theorem checkedAdd_ok {inRange : Int → Bool} {distance : Int} {read : Except Failure Int}
    (reads : read = .ok distance) (fits : inRange distance = true) :
    (do checkedAdd inRange (← read)) = .ok distance := by
  rw [reads]
  exact if_pos fits

theorem inetFromSql_ok (inet : IsInet raw) : ∃ ip, inetFromSql raw = .ok ip := by
  obtain ⟨family, netmask, cidr, len, address, rfl, ⟨rfl, small, rfl, four⟩ |
    ⟨rfl, small, rfl, sixteen⟩⟩ := inet
  · have drained : address.drop 4 = [] := List.drop_of_length_le (Nat.le_of_eq four)
    refine ⟨.v4 ((address.take 4).map UInt8.toNat), ?_⟩
    rw [inetFromSql, if_pos rfl, if_neg (UInt8.not_lt.mpr small), if_neg (not_not_intro rfl),
      if_neg (Nat.not_lt.mpr (Nat.le_of_eq four.symm)), drained]
    rfl
  · have drained : address.drop 16 = [] := List.drop_of_length_le (Nat.le_of_eq sixteen)
    refine ⟨.v6 (segments (address.take 16)), ?_⟩
    rw [inetFromSql, if_neg (by decide), if_pos rfl, if_neg (UInt8.not_lt.mpr small),
      if_neg (not_not_intro rfl), if_neg (Nat.not_lt.mpr (Nat.le_of_eq sixteen.symm)), drained]
    rfl

theorem shownAs_macaddr (present : field.raw = some raw) {length : Nat}
    (long : raw.length = length) :
    ShownAs field.ty raw (macaddr field.row field.idx field.ty length) := by
  refine ⟨.string (macText raw), ?_, Value.noConfusion, ne_placeholder (macText_plain raw) _ _⟩
  rw [macaddr, typedOrRaw, extract, tryGet_rawBytes, present, Option.bind_eq_bind, Option.bind_some]
  dsimp only
  rw [if_pos long]
  rfl

theorem shownAs_interval (present : field.raw = some raw) (interval : field.ty = .interval)
    (long : raw.length = 16) :
    ShownAs field.ty raw (typedOrRaw field.row field.idx field.ty
      (extract field.row field.idx rawBytes .null fun b =>
        (formatInterval b).map fun text => some (.string text))) := by
  obtain ⟨text, shown, read⟩ := formatInterval_reads ⟨raw, long⟩
  refine ⟨.string text, ?_, Value.noConfusion, fun same => ?_⟩
  · rw [typedOrRaw, extract, tryGet_rawBytes, present, Option.bind_eq_bind, Option.bind_some]
    dsimp only
    rw [shown]
    rfl
  · rw [Value.string.inj same, interval, readInterval_placeholder] at read
    cases read

/-- A well-formed value that is not NULL is shown exactly when its decoder accepts the
type of its column and the value has a place in JSON. -/
theorem shown_iff_showable (documented : packages.Documented) (present : field.raw = some raw)
    (formed : WellFormed packages field.ty raw) :
    Shown packages field raw ↔ Showable packages field.ty raw := by
  obtain ⟨row, idx, ty, bytes, column, buffer⟩ := field
  cases ty with
  | varchar | text | bpchar | name | unknown =>
      obtain ⟨chars, decodes⟩ := formed
      exact iff_of_true (shownAs_str present rfl decodes) trivial
  | int2 => exact iff_of_true (shownAs_number present
      (readAs_simple rfl (congrArg _ (wordFromSql_ok formed _))) _) trivial
  | int4 => exact iff_of_true (shownAs_number present
      (readAs_simple rfl (congrArg _ (wordFromSql_ok formed _))) _) trivial
  | oid | regproc | regprocedure | regoper | regoperator | regclass | regtype | regnamespace
  | regcollation | xid | cid => exact iff_of_true (shownAs_u32 present rfl formed) trivial
  | int8 => exact iff_of_true (shownAs_number present
      (readAs_simple rfl (congrArg _ (wordFromSql_ok formed _))) _) trivial
  | float4 =>
      exact (shownAs_typed_iff present
        (readAs_simple rfl (congrArg _ (wordFromSql_ok formed _))) _).trans
        (jsonOfFloat_shown_iff _ _)
  | float8 =>
      exact (shownAs_typed_iff present
        (readAs_simple rfl (congrArg _ (wordFromSql_ok formed _))) _).trans
        (jsonOfFloat_shown_iff _ _)
  | numeric =>
      obtain ⟨numeric, d, encoded, _⟩ := formed
      exact shownAs_numeric_iff documented present rfl encoded
  | bool =>
      obtain ⟨byte, rfl⟩ := List.length_eq_one_iff.mp formed
      have reads : boolFromSql [byte] = .ok (byte != 0) := rfl
      exact iff_of_true ((shownAs_typed_iff present (readAs_simple rfl reads) _).mpr
        ⟨Value.noConfusion, Value.noConfusion⟩) trivial
  | bytea =>
      have start : '<' ∉ "\\x".toList := by decide
      have reads : byteaFromSql raw = .ok raw := rfl
      exact iff_of_true (shownAs_plain present (readAs_simple rfl reads)
        (not_mem_append start (hexBytes_plain raw))) trivial
  | uuid =>
      have reads : uuidFromSql raw = .ok raw := if_neg (not_not_intro formed)
      exact iff_of_true (shownAs_plain present (readAs_simple rfl reads)
        (documented.uuidText raw)) trivial
  | json =>
      obtain ⟨document, parsed⟩ := formed
      refine (shownAs_json_iff present (readAs_json parsed) fun text string =>
        documented.stringLength raw text (string ▸ parsed)).trans ?_
      exact document_ne_null_iff parsed
  | jsonb =>
      obtain ⟨rest, document, rfl, parsed⟩ := formed
      refine (shownAs_json_iff present (readAs_jsonb parsed) fun text string => ?_).trans ?_
      · exact Nat.le_succ_of_le (documented.stringLength rest text (string ▸ parsed))
      · exact document_ne_null_iff parsed
  | timestamp =>
      have reads : timestampFromSql raw = .ok (asI64 (beNat raw)) :=
        congrArg (Except.map asI64) (wordFromSql_ok formed.1 _)
      exact iff_of_true (shownAs_plain present
        (readAs_simple rfl (checkedAdd_ok reads formed.2)) (documented.dateTimeText _)) trivial
  | timestamptz => exact iff_of_false (not_shownAs_typed present (readAs_other rfl raw) _) id
  | date =>
      have reads : dateFromSql raw = .ok (asI32 (beNat raw)) :=
        congrArg (Except.map asI32) (wordFromSql_ok formed.1 _)
      exact iff_of_true (shownAs_plain present
        (readAs_simple rfl (checkedAdd_ok reads formed.2)) (documented.dateText _)) trivial
  | time =>
      have reads : timeFromSql raw = .ok (asI64 (beNat raw)) :=
        congrArg (Except.map asI64) (wordFromSql_ok formed.1 _)
      exact iff_of_true (shownAs_plain present (readAs_simple rfl
        (congrArg (Except.map fun usec => usec % 86400000000) reads))
        (documented.timeText _)) trivial
  | timetz => exact iff_of_false (not_shownAs_typed present (readAs_other rfl raw) _) id
  | inet =>
      obtain ⟨ip, reads⟩ := inetFromSql_ok formed
      exact iff_of_true (shownAs_plain present (readAs_simple rfl reads) (ipText_plain ip)) trivial
  | cidr => exact iff_of_false (not_shownAs_typed present (readAs_other rfl raw) _) id
  | macaddr => exact iff_of_true (shownAs_macaddr present formed) trivial
  | macaddr8 => exact iff_of_true (shownAs_macaddr present formed) trivial
  | interval => exact iff_of_true (shownAs_interval present rfl formed) trivial
  | other typeName => exact formed.elim

end

theorem shortPackages_documented : shortPackages.Documented where
  decimal := Decimal.rustDecimal_documentedFully
  decimalText d := Numeral.not_mem_withSign (by decide) (by decide) (by decide) _ _ _
  dateTimeText _ := List.not_mem_nil
  dateText _ := List.not_mem_nil
  timeText _ := List.not_mem_nil
  uuidText := hexBytes_plain
  stringLength raw text parsed := by
    dsimp only [shortPackages] at parsed
    unfold shortDocument at parsed
    split at parsed
    · cases parsed
    · split at parsed
      · rw [← Value.string.inj (Except.ok.inj parsed)]
        exact Nat.le_of_ble_eq_true rfl
      · cases parsed
    · cases parsed

theorem shown_iff_showable_string :
    Shown shortPackages (.single .json (some [34, 97, 34])) [34, 97, 34] ↔
      Showable shortPackages .json [34, 97, 34] :=
  shown_iff_showable shortPackages_documented rfl ⟨.string ['a'], rfl⟩

/-- No value of type TIMESTAMPTZ is shown, the first one of the year 2000 for example. -/
theorem not_shown_timestamptz :
    WellFormed shortPackages .timestamptz [0, 0, 0, 0, 0, 0, 0, 0] ∧
      ¬ Shown shortPackages (.single .timestamptz (some [0, 0, 0, 0, 0, 0, 0, 0]))
        [0, 0, 0, 0, 0, 0, 0, 0] :=
  ⟨⟨rfl, rfl⟩, not_shownAs_typed rfl (readAs_other rfl _) _⟩

end OpenGauss.Mcp.Output
