import OpenGauss.Mcp.OutputFields

/-! Where the text of a buffered value is the one that is streamed for its field. -/

set_option autoImplicit false

namespace OpenGauss.Mcp.Output

open Driver Lib Protocol OpenGauss.Types Json

/-- What other packages document about the texts of numbers and of JSON values. An
`f64` made of a decimal with at most fifteen digits is printed as that decimal. -/
structure Packages.Printing (packages : Packages) : Prop where
  decimalText : ∀ d, packages.decimalText d =
    Numeral.withSign d.negative (Numeral.fixedPoint d.mantissa d.scale)
  toF64 : ∀ d, isInteger d = false → integerDigitCount packages d + d.scale ≤ 15 →
    packages.toF64 d = some (.finite (.ofDecimal d.negative d.mantissa (-d.scale)))
  scientific : ∀ digits : Shortest, packages.scientific digits.mantissa digits.exponent = true →
    'e' ∈ packages.floatText digits
  fraction : ∀ digits : Shortest, packages.scientific digits.mantissa digits.exponent = false →
    digits.exponent < 0 → packages.floatText digits =
      Numeral.withSign digits.negative
        (Numeral.fixedPoint digits.mantissa (-digits.exponent).toNat)
  whole : ∀ digits : Shortest, packages.scientific digits.mantissa digits.exponent = false →
    0 ≤ digits.exponent → packages.floatText digits =
      Numeral.withSign digits.negative
        (Nat.toDigits 10 (digits.mantissa * 10 ^ digits.exponent.toNat) ++ ['.', '0'])
  null : packages.valueText .null = "null".toList
  bool : ∀ value, packages.valueText (.bool value) = boolText value
  number : ∀ number, packages.valueText (.number number) = numberText packages number
  string : ∀ text, text.length < (packages.valueText (.string text)).length

/-- The text of the buffered value is the streamed one. -/
def Agrees (packages : Packages) (field : Field) : Prop :=
  (formatValueWithType field.row field.idx field.ty packages).map (valueToCompactString packages) =
    (formatFieldString field.row field.idx field.ty packages).map fun text =>
      text.getD "NULL".toList

/-- A decimal that is printed with all of its digits. -/
def DecimalAgrees (packages : Packages) (d : Decimal) : Prop :=
  if isInteger d then
    toI64 d = none ∧ toU64 d = none ∨ d.scale = 0 ∧ (d.negative = true → d.mantissa ≠ 0)
  else
    15 < integerDigitCount packages d + d.scale ∨
      d.mantissa % 10 ≠ 0 ∧ packages.scientific d.mantissa (-d.scale) = false

/-- A float with digits behind the point and no exponent, which stays the same
decimal when it is widened. -/
def FloatAgrees (packages : Packages) (number widened : FloatValue) : Prop :=
  ∃ digits, number = .finite digits ∧ widened = .finite digits ∧ digits.exponent < 0 ∧
    packages.scientific digits.mantissa digits.exponent = false

/-- A document that is printed without quotes, and not as a NULL. -/
def DocumentAgrees (document : Value) : Prop :=
  document ≠ .null ∧ ∀ text, document ≠ .string text

/-- The fields that have one text. -/
def Agreeable (packages : Packages) (ty : SqlType) (raw : Option Bytes) : Prop :=
  ∀ bytes, raw = some bytes →
    match ty with
    | .float4 => bytes.length = 4 →
        FloatAgrees packages (.ofBits 8 23 packages.shortest32 (beNat bytes))
          (.ofBits 8 23 packages.shortest32As64 (beNat bytes))
    | .float8 => bytes.length = 8 →
        FloatAgrees packages (.ofBits 11 52 packages.shortest64 (beNat bytes))
          (.ofBits 11 52 packages.shortest64 (beNat bytes))
    | .numeric => ∀ d, Decimal.fromSql packages.decimal bytes = .ok d → DecimalAgrees packages d
    | .json => ∀ document, packages.fromSlice bytes = .ok document → DocumentAgrees document
    | .jsonb => ∀ rest document, bytes = 1 :: rest → packages.fromSlice rest = .ok document →
        DocumentAgrees document
    | _ => True

/-! ### One arm -/

section

variable {Read : Type} {packages : Packages} {field : Field}

/-- The two arms of a type agree when they do on every value that is read. -/
theorem typed_agrees_iff (fromSql : FromSql SqlType Read Failure) (render : Read → Value)
    (renderStr : Read → Text) :
    (typed field.row field.idx field.ty fromSql render).map (valueToCompactString packages) =
        (typedStr field.row field.idx field.ty fromSql renderStr).map
          (fun text => text.getD "NULL".toList) ↔
      ∀ bytes, field.raw = some bytes → ∀ value,
        readAs fromSql field.ty (some bytes) = some (some value) →
          valueToCompactString packages (render value) = renderStr value := by
  cases present : field.raw with
  | none =>
      rw [typed_null present, typedStr_null present]
      exact iff_of_true rfl fun bytes same => absurd same (Option.some_ne_none bytes).symm
  | some bytes =>
      rw [typed_some present, typedStr_some present]
      constructor
      · intro same other equal value reads
        rw [← Option.some.inj equal] at reads
        rw [reads] at same
        exact Option.some.inj same
      · intro all
        cases reads : readAs fromSql field.ty (some bytes) with
        | none => rfl
        | some read =>
            cases read with
            | none => rfl
            | some value => exact congrArg some (all bytes rfl value reads)

theorem macaddr_agrees (length : Nat) :
    (macaddr field.row field.idx field.ty length).map (valueToCompactString packages) =
      (macaddrStr field.row field.idx field.ty length).map fun text =>
        text.getD "NULL".toList := by
  rw [macaddr, macaddrStr, typedOrRaw, typedOrRawStr, rawBytesFallback_eq,
    rawBytesStringFallback_eq, extract, extract, tryGet_rawBytes]
  cases field.raw with
  | none => rfl
  | some raw =>
      rw [Option.bind_eq_bind, Option.bind_eq_bind, Option.bind_some, Option.bind_some]
      dsimp only
      by_cases long : raw.length = length
      · rw [if_pos long, if_pos long]
        rfl
      · rw [if_neg long, if_neg long]
        rfl

theorem interval_agrees :
    (typedOrRaw field.row field.idx field.ty (extract field.row field.idx rawBytes .null fun b =>
        (formatInterval b).map fun text => some (.string text))).map
          (valueToCompactString packages) =
      (typedOrRawStr field.row field.idx field.ty (extract field.row field.idx rawBytes none
        fun b => (formatInterval b).map fun text => some (some text))).map fun text =>
          text.getD "NULL".toList := by
  rw [typedOrRaw, typedOrRawStr, rawBytesFallback_eq, rawBytesStringFallback_eq, extract, extract,
    tryGet_rawBytes]
  cases field.raw with
  | none => rfl
  | some raw =>
      rw [Option.bind_eq_bind, Option.bind_eq_bind, Option.bind_some, Option.bind_some]
      dsimp only
      cases formatInterval raw <;> rfl

theorem fallback_agrees :
    (rawBytesFallback field.row field.idx field.ty).map (valueToCompactString packages) =
      (rawBytesStringFallback field.row field.idx field.ty).map fun text =>
        text.getD "NULL".toList := by
  rw [rawBytesFallback_eq, rawBytesStringFallback_eq]
  cases field.raw <;> rfl

end

/-! ### Texts that no number has -/

theorem null_ne_display (number : FloatValue) : "NULL".toList ≠ number.display := by
  cases number with
  | nan => exact (by decide : "NULL".toList ≠ "NaN".toList)
  | infinite negative =>
      have all : ∀ negative, "NULL".toList ≠ Numeral.withSign negative "inf".toList := by decide
      exact all negative
  | finite digits =>
      intro same
      have letter : 'N' ∈ digits.display := by
        have first : 'N' ∈ "NULL".toList := by decide
        rw [same] at first
        exact first
      rw [Shortest.display_eq_fixedPoint] at letter
      exact Numeral.not_mem_withSign (by decide) (by decide) (by decide) _ _ _ letter

/-! ### Whole numbers -/

theorem toI64_some {d : Decimal} {value : Int} (fits : toI64 d = some value) :
    value.natAbs = integerPart d ∧
      (d.negative = true ∧ value ≤ 0 ∨ d.negative = false ∧ 0 ≤ value) := by
  rw [toI64] at fits
  split at fits
  · next negative =>
      split at fits
      · have same := Option.some.inj fits
        exact ⟨by omega, .inl ⟨negative, by omega⟩⟩
      · cases fits
  · next positive =>
      split at fits
      · have same := Option.some.inj fits
        exact ⟨by omega, .inr ⟨Bool.eq_false_iff.mpr positive, by omega⟩⟩
      · cases fits

theorem toU64_some {d : Decimal} {value : Nat} (fits : toU64 d = some value) :
    (value : Int).natAbs = integerPart d ∧
      (d.negative = true ∧ (value : Int) ≤ 0 ∨ d.negative = false ∧ (0 : Int) ≤ value) := by
  rw [toU64] at fits
  split at fits
  · cases fits
  · next positive =>
      split at fits
      · have same := Option.some.inj fits
        exact ⟨by omega, .inr ⟨Bool.eq_false_iff.mpr positive, by omega⟩⟩
      · cases fits

/-! ### Documents -/

section

variable {packages : Packages} (printing : packages.Printing)
include printing

theorem document_agrees_iff (document : Value) :
    valueToCompactString packages document = packages.valueText document ↔
      DocumentAgrees document := by
  cases document with
  | null =>
      have differ : "NULL".toList ≠ "null".toList := by decide
      rw [printing.null]
      exact iff_of_false differ fun agrees => agrees.1 rfl
  | string text =>
      refine iff_of_false (fun same => ?_) fun agrees => agrees.2 text rfl
      have longer := printing.string text
      rw [← same] at longer
      exact Nat.lt_irrefl _ longer
  | bool value => exact iff_of_true (printing.bool value).symm ⟨Value.noConfusion, nofun⟩
  | number number => exact iff_of_true (printing.number number).symm ⟨Value.noConfusion, nofun⟩
  | array values => exact iff_of_true rfl ⟨Value.noConfusion, nofun⟩
  | object entries => exact iff_of_true rfl ⟨Value.noConfusion, nofun⟩

/-! ### Floats -/

/-- The number that a float is written as has a digit behind its point or an exponent. -/
theorem floatText_cases (digits : Shortest) :
    'e' ∈ packages.floatText digits ∧
        packages.scientific digits.mantissa digits.exponent = true ∨
      ∃ units scale, packages.floatText digits =
          Numeral.withSign digits.negative (Numeral.fixedPoint units (scale + 1)) ∧
        packages.scientific digits.mantissa digits.exponent = false ∧
          (digits.exponent < 0 ∧ units = digits.mantissa ∧ scale + 1 = (-digits.exponent).toNat ∨
            0 ≤ digits.exponent ∧ units % 10 = 0) := by
  cases exponent : packages.scientific digits.mantissa digits.exponent with
  | true => exact .inl ⟨printing.scientific digits exponent, rfl⟩
  | false =>
      refine .inr ?_
      by_cases fraction : digits.exponent < 0
      · have places : (-digits.exponent).toNat - 1 + 1 = (-digits.exponent).toNat := by omega
        refine ⟨digits.mantissa, (-digits.exponent).toNat - 1, ?_, rfl, .inl ⟨fraction, rfl, places⟩⟩
        rw [printing.fraction digits exponent fraction, places]
      · have whole := Int.not_lt.mp fraction
        refine ⟨digits.mantissa * 10 ^ digits.exponent.toNat * 10, 0, ?_, rfl,
          .inr ⟨whole, Nat.mul_mod_left ..⟩⟩
        rw [printing.whole digits exponent whole, Numeral.fixedPoint_tenths]

/-- A decimal text is the one of a float only if both have the same digits, of which
at least one stands behind the point. -/
theorem floatText_eq_iff {digits : Shortest} {negative : Bool} {units scale : Nat}
    (normal : units % 10 ≠ 0 ∨ scale = 0 ∨ digits.exponent < 0) :
    packages.floatText digits = Numeral.withSign negative (Numeral.fixedPoint units scale) ↔
      packages.scientific digits.mantissa digits.exponent = false ∧ digits.exponent < 0 ∧
        digits.negative = negative ∧ digits.mantissa = units ∧
          (-digits.exponent).toNat = scale := by
  constructor
  · intro same
    rcases floatText_cases printing digits with ⟨exponent, _⟩ | ⟨units', scale', text, plain, shape⟩
    · rw [same] at exponent
      exact absurd exponent
        (Numeral.not_mem_withSign (by decide) (by decide) (by decide) negative units scale)
    · rw [text] at same
      obtain ⟨signs, numbers, scales⟩ := Numeral.withSign_fixedPoint_inj same
      rcases shape with ⟨fraction, mantissa, places⟩ | ⟨whole, zero⟩
      · exact ⟨plain, fraction, signs, mantissa.symm.trans numbers, places.symm.trans scales⟩
      · rw [numbers] at zero
        omega
  · intro equal
    obtain ⟨plain, fraction, rfl, rfl, rfl⟩ := equal
    exact printing.fraction digits plain fraction

/-- The text of a float in JSON is that of no number without a point and an exponent. -/
theorem floatText_ne {text : Text} (noExponent : 'e' ∉ text) (noPoint : '.' ∉ text)
    (digits : Shortest) : packages.floatText digits ≠ text := by
  intro same
  rcases floatText_cases printing digits with ⟨exponent, _⟩ | ⟨units, scale, shown, _, _⟩
  · exact noExponent (same ▸ exponent)
  · rw [same] at shown
    rw [shown] at noPoint
    exact noPoint (Numeral.point_mem_withSign digits.negative units scale)

theorem finite_agrees_iff (shown widened : Shortest) :
    packages.floatText widened = shown.display ↔
      widened = shown ∧ shown.exponent < 0 ∧
        packages.scientific shown.mantissa shown.exponent = false := by
  have normal : shown.mantissa * 10 ^ shown.exponent.toNat % 10 ≠ 0 ∨
      (-shown.exponent).toNat = 0 ∨ widened.exponent < 0 := by
    by_cases fraction : shown.exponent < 0
    · have none : shown.exponent.toNat = 0 := by omega
      have last := shown.normal
      rw [none, Nat.pow_zero, Nat.mul_one]
      omega
    · exact .inr (.inl (by omega))
  rw [Shortest.display_eq_fixedPoint, floatText_eq_iff printing normal]
  constructor
  · intro equal
    obtain ⟨plain, fraction, signs, mantissas, places⟩ := equal
    have exponents : widened.exponent = shown.exponent := by omega
    have none : shown.exponent.toNat = 0 := by omega
    rw [none, Nat.pow_zero, Nat.mul_one] at mantissas
    rw [mantissas, exponents] at plain
    exact ⟨Shortest.ext signs mantissas exponents, exponents ▸ fraction, plain⟩
  · intro equal
    obtain ⟨rfl, fraction, plain⟩ := equal
    have none : widened.exponent.toNat = 0 := by omega
    rw [none, Nat.pow_zero, Nat.mul_one]
    exact ⟨plain, fraction, rfl, rfl, rfl⟩

theorem float_agrees_iff (number widened : FloatValue) :
    valueToCompactString packages (jsonOfFloat widened) = number.display ↔
      FloatAgrees packages number widened := by
  cases widened with
  | finite digits =>
      cases number with
      | finite shown =>
          refine (finite_agrees_iff printing shown digits).trans ?_
          constructor
          · intro equal
            obtain ⟨rfl, fraction, plain⟩ := equal
            exact ⟨digits, rfl, rfl, fraction, plain⟩
          · intro agrees
            obtain ⟨both, first, second, fraction, plain⟩ := agrees
            rw [FloatValue.finite.inj first, FloatValue.finite.inj second]
            exact ⟨rfl, fraction, plain⟩
      | nan =>
          exact iff_of_false (floatText_ne printing (by decide) (by decide) digits)
            fun agrees => FloatValue.noConfusion agrees.choose_spec.1
      | infinite negative =>
          refine iff_of_false (floatText_ne printing ?_ ?_ digits)
            fun agrees => FloatValue.noConfusion agrees.choose_spec.1
          · cases negative <;> decide
          · cases negative <;> decide
  | nan =>
      exact iff_of_false (null_ne_display number)
        fun agrees => FloatValue.noConfusion agrees.choose_spec.2.1
  | infinite negative =>
      exact iff_of_false (null_ne_display number)
        fun agrees => FloatValue.noConfusion agrees.choose_spec.2.1

/-! ### Decimals -/

/-- A whole number is printed like the decimal only if that has its scale and sign. -/
theorem integer_agrees_iff {d : Decimal} {value : Int} (size : value.natAbs = integerPart d)
    (sign : d.negative = true ∧ value ≤ 0 ∨ d.negative = false ∧ 0 ≤ value) :
    Numeral.showSigned value = packages.decimalText d ↔
      d.scale = 0 ∧ (d.negative = true → d.mantissa ≠ 0) := by
  rw [printing.decimalText, Numeral.showSigned_eq]
  constructor
  · intro same
    obtain ⟨signs, units, scale⟩ := Numeral.withSign_fixedPoint_inj same
    refine ⟨scale.symm, fun negative zero => ?_⟩
    rw [negative, decide_eq_true_eq] at signs
    omega
  · intro equal
    obtain ⟨scale, nonzero⟩ := equal
    have units : value.natAbs = d.mantissa := by
      rw [size, integerPart, scale, Nat.pow_zero, Nat.div_one]
    have signs : decide (value < 0) = d.negative := by
      rcases sign with ⟨negative, least⟩ | ⟨positive, least⟩
      · have some := nonzero negative
        rw [negative, decide_eq_true_eq]
        omega
      · rw [positive, decide_eq_false_iff_not]
        omega
    rw [units, scale, signs]

/-- A float made of a decimal is printed like it if no zero is dropped at its end and
there is no exponent. -/
theorem fraction_agrees_iff {d : Decimal} (fraction : isInteger d = false) :
    packages.floatText (.ofDecimal d.negative d.mantissa (-d.scale)) = packages.decimalText d ↔
      d.mantissa % 10 ≠ 0 ∧ packages.scientific d.mantissa (-d.scale) = false := by
  have some : d.mantissa ≠ 0 := by
    intro zero
    rw [isInteger, zero, Nat.zero_mod] at fraction
    cases fraction
  obtain ⟨same, last⟩ := Shortest.trailingZeros_spec some (Nat.le_refl d.mantissa)
  have few : Shortest.trailingZeros d.mantissa d.mantissa < d.scale := by
    refine Nat.lt_of_not_le fun many => ?_
    have divides : 10 ^ d.scale ∣ d.mantissa := by
      rw [same]
      exact Dvd.dvd.mul_left (Nat.pow_dvd_pow 10 many) _
    rw [isInteger, Nat.mod_eq_zero_of_dvd divides] at fraction
    cases fraction
  rw [printing.decimalText, Shortest.ofDecimal, dif_neg some,
    floatText_eq_iff printing (.inr (.inr (by dsimp only; omega)))]
  dsimp only
  generalize Shortest.trailingZeros d.mantissa d.mantissa = zeros at same last few
  constructor
  · intro equal
    obtain ⟨plain, _, _, mantissas, places⟩ := equal
    have none : zeros = 0 := by omega
    rw [none, Nat.pow_zero, Nat.div_one] at plain last
    rw [Int.natCast_zero, Int.add_zero] at plain
    exact ⟨last, plain⟩
  · intro kept
    have none : zeros = 0 := by
      by_contra more
      obtain ⟨fewer, rfl⟩ := Nat.exists_eq_succ_of_ne_zero more
      refine kept.1 ?_
      rw [same, Nat.pow_succ, ← Nat.mul_assoc]
      exact Nat.mul_mod_left ..
    rw [none, Nat.pow_zero, Nat.div_one, Int.natCast_zero, Int.add_zero]
    exact ⟨kept.2, by omega, rfl, rfl, by omega⟩

theorem decimal_agrees_iff (d : Decimal) :
    valueToCompactString packages (decimalToJson packages d) = packages.decimalText d ↔
      DecimalAgrees packages d := by
  unfold decimalToJson DecimalAgrees
  cases integer : isInteger d with
  | true =>
      rw [if_pos rfl, if_pos rfl]
      split
      · next value fits =>
          obtain ⟨size, sign⟩ := toI64_some fits
          refine (integer_agrees_iff printing size sign).trans (or_iff_right ?_).symm
          exact fun neither => Option.some_ne_none value (fits.symm.trans neither.1)
      · next noI64 =>
          split
          · next value fits =>
              obtain ⟨size, sign⟩ := toU64_some fits
              refine (integer_agrees_iff printing size sign).trans (or_iff_right ?_).symm
              exact fun neither => Option.some_ne_none value (fits.symm.trans neither.2)
          · next noU64 => exact iff_of_true rfl (.inl ⟨noI64, noU64⟩)
  | false =>
      rw [if_neg Bool.false_ne_true, if_neg Bool.false_ne_true]
      by_cases many : 15 < integerDigitCount packages d + d.scale
      · rw [if_pos many]
        exact iff_of_true rfl (.inl many)
      · rw [if_neg many, printing.toF64 d integer (Nat.le_of_not_lt many), or_iff_right many]
        exact fraction_agrees_iff printing integer

/-- The two texts of a float that is read from its bits. -/
theorem word_agrees_iff {Read : Type} {accepted : List SqlType} {size : Nat}
    {notDrained : Failure} {make : Nat → Read} {ty : SqlType} {bytes : Bytes}
    {number widened : Read → FloatValue} (member : accepted.contains ty = true) :
    (∀ value, readAs (simpleFrom accepted fun _ buf => (wordFromSql size notDrained buf).map make)
        ty (some bytes) = some (some value) →
      valueToCompactString packages (jsonOfFloat (widened value)) = (number value).display) ↔
    (bytes.length = size →
      FloatAgrees packages (number (make (beNat bytes))) (widened (make (beNat bytes)))) := by
  constructor
  · intro all long
    exact (float_agrees_iff printing _ _).mp
      (all _ ((readAs_word_iff member).mpr ⟨long, rfl⟩))
  · intro agrees value reads
    obtain ⟨long, rfl⟩ := (readAs_word_iff member).mp reads
    exact (float_agrees_iff printing _ _).mpr (agrees long)

/-! ### Fields -/

/-- The buffered value and the streamed field have one text exactly if the field is no
JSON string or `null`, and no number that the JSON number prints otherwise. -/
theorem agrees_iff_agreeable (field : Field) :
    Agrees packages field ↔ Agreeable packages field.ty field.raw := by
  obtain ⟨row, idx, ty, raw, column, buffer⟩ := field
  cases ty with
  | varchar | text | bpchar | name | unknown | int2 | int4 | oid | regproc | regprocedure | regoper
  | regoperator | regclass | regtype | regnamespace | regcollation | xid | cid | int8 | bool
  | bytea | uuid | timestamp | timestamptz | date | time | timetz | inet | cidr =>
      exact iff_of_true ((typed_agrees_iff _ _ _).mpr fun _ _ _ _ => rfl) fun _ _ => trivial
  | float4 =>
      exact (typed_agrees_iff _ _ _).trans (forall_congr' fun bytes => forall_congr' fun _ =>
        word_agrees_iff printing rfl)
  | float8 =>
      exact (typed_agrees_iff _ _ _).trans (forall_congr' fun bytes => forall_congr' fun _ =>
        word_agrees_iff printing rfl)
  | numeric =>
      refine (typed_agrees_iff _ _ _).trans
        (forall_congr' fun bytes => forall_congr' fun present => forall_congr' fun d => ?_)
      rw [decimal_agrees_iff printing d]
      exact imp_congr_left ⟨ok_of_readAs_simple, fun reads => readAs_simple rfl reads⟩
  | json =>
      refine (typed_agrees_iff _ _ _).trans
        (forall_congr' fun bytes => forall_congr' fun present => forall_congr' fun document => ?_)
      exact imp_congr ⟨fromSlice_of_readAs_json, readAs_json⟩ (document_agrees_iff printing document)
  | jsonb =>
      refine (typed_agrees_iff _ _ _).trans
        (forall_congr' fun bytes => forall_congr' fun present => ?_)
      constructor
      · rintro all rest document rfl parsed
        exact (document_agrees_iff printing document).mp (all document (readAs_jsonb parsed))
      · intro agrees document reads
        obtain ⟨rest, same, parsed⟩ := fromSlice_of_readAs_jsonb reads
        exact (document_agrees_iff printing document).mpr (agrees rest document same parsed)
  | macaddr => exact iff_of_true (macaddr_agrees 6) fun _ _ => trivial
  | macaddr8 => exact iff_of_true (macaddr_agrees 8) fun _ _ => trivial
  | interval => exact iff_of_true interval_agrees fun _ _ => trivial
  | other typeName => exact iff_of_true fallback_agrees fun _ _ => trivial

end

theorem shortPackages_printing : shortPackages.Printing where
  decimalText _ := rfl
  toF64 _ _ _ := rfl
  scientific digits exponent := by
    dsimp only [shortPackages] at exponent ⊢
    rw [serdeFloat, exponent, if_pos rfl]
    have written := List.mem_append_right
      ((Nat.toDigits 10 digits.mantissa).take 1 ++
        if (Nat.toDigits 10 digits.mantissa).length = 1 then []
        else '.' :: (Nat.toDigits 10 digits.mantissa).tail)
      (@List.mem_cons_self _ 'e'
        (Numeral.showSigned (pointPlace digits.mantissa digits.exponent - 1)))
    rw [Numeral.withSign]
    split
    · exact List.mem_cons_of_mem _ written
    · exact written
  fraction digits plain fraction := by
    dsimp only [shortPackages] at plain ⊢
    rw [serdeFloat, plain, if_neg Bool.false_ne_true, if_pos fraction]
  whole digits plain whole := by
    dsimp only [shortPackages] at plain ⊢
    rw [serdeFloat, plain, if_neg Bool.false_ne_true, if_neg (Int.not_lt.mpr whole)]
  null := rfl
  bool _ := rfl
  number number := by cases number <;> rfl
  string text := by
    dsimp only [shortPackages]
    rw [shortDocumentText, List.length_append, List.length_cons]
    omega

theorem agrees_iff_agreeable_truth :
    Agrees shortPackages (.single .bool (some [1])) ↔ Agreeable shortPackages .bool (some [1]) :=
  agrees_iff_agreeable shortPackages_printing _

/-- The JSON string `"a"` is streamed with its quotes. -/
theorem not_agrees_string : ¬ Agrees shortPackages (.single .json (some [34, 97, 34])) := by
  intro agrees
  have differ : some ['a'] ≠ some ['"', 'a', '"'] := by decide
  exact differ agrees

end OpenGauss.Mcp.Output
