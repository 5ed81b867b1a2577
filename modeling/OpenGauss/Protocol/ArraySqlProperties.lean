import OpenGauss.Protocol.ArraySql
import OpenGauss.Protocol.PutProperties

/-! The array codec gives back what it was given, and is total on every byte
string: both through the form of the byte strings that it accepts. -/

set_option autoImplicit false

namespace OpenGauss.Protocol.ArraySql

open Lib

/-! ### Integers on the wire -/

theorem bind_ran {First Second : Type} {first : Slice First} {next : First → Slice Second} {buf rest : Bytes}
    {value : First} (ran : first buf = .ok (value, rest)) : (first >>= next) buf = next value rest := by
  simp only [bind, StateT.bind, ran, Except.bind]

theorem bind_eq_ok {First Second : Type} {first : Slice First} {next : First → Slice Second}
    {buf rest : Bytes} {result : Second} :
    (first >>= next) buf = .ok (result, rest) ↔
      ∃ value between, first buf = .ok (value, between) ∧ next value between = .ok (result, rest) := by
  simp only [bind, StateT.bind]
  cases first buf with
  | error error => exact ⟨nofun, nofun⟩
  | ok found =>
    obtain ⟨value, between⟩ := found
    exact ⟨fun ran => ⟨value, between, rfl, ran⟩, fun ⟨_, _, same, ran⟩ => by cases same; exact ran⟩

theorem i32Wire_length (value : Int32) : (i32Wire value).length = 4 := rfl

theorem readI32_wire (value : Int32) (rest : Bytes) : readI32 (i32Wire value ++ rest) = .ok (value, rest) := by
  have size := i32Wire_length value
  rw [readI32_eq, if_neg (by rw [List.length_append]; omega), List.take_left' size, List.drop_left' size,
    i32Wire, beNat_be32 _ value.toUInt32.toNat_lt, UInt32.ofNat_toNat]
  rfl

theorem readU32_wire (value : UInt32) (rest : Bytes) : readU32 (be32 value.toNat ++ rest) = .ok (value, rest) := by
  have read : readExact 4 (be32 value.toNat ++ rest) = .ok (be32 value.toNat, rest) := by
    rw [readExact, if_neg (by rw [List.length_append, be32_length]; omega), List.take_left' (be32_length _),
      List.drop_left' (be32_length _)]
  simp only [readU32, bind, StateT.bind, read, Except.bind, beNat_be32 _ value.toNat_lt, UInt32.ofNat_toNat]
  rfl

/-- Any four bytes are those of an integer. -/
theorem be32_beNat {bytes : Bytes} (four : bytes.length = 4) : be32 (beNat bytes) = bytes := by
  match bytes with
  | [b₀, b₁, b₂, b₃] =>
    have small₀ := b₀.toNat_lt
    have small₁ := b₁.toNat_lt
    have small₂ := b₂.toNat_lt
    have small₃ := b₃.toNat_lt
    simp only [be32, beNat, List.foldl_cons, List.foldl_nil, List.cons.injEq, and_true]
    refine ⟨?_, ?_, ?_, ?_⟩ <;> apply UInt8.toNat_inj.mp <;> rw [UInt8.toNat_ofNat'] <;> omega

theorem beNat_lt {bytes : Bytes} (four : bytes.length = 4) : beNat bytes < 2 ^ 32 := by
  match bytes with
  | [b₀, b₁, b₂, b₃] =>
    have small₀ := b₀.toNat_lt
    have small₁ := b₁.toNat_lt
    have small₂ := b₂.toNat_lt
    have small₃ := b₃.toNat_lt
    simp only [beNat, List.foldl_cons, List.foldl_nil]
    omega

theorem exists_u32 {bytes : Bytes} (four : 4 ≤ bytes.length) :
    ∃ (value : UInt32) (rest : Bytes), bytes = be32 value.toNat ++ rest := by
  have size : (bytes.take 4).length = 4 := by rw [List.length_take]; omega
  have small : beNat (bytes.take 4) < 2 ^ 32 := beNat_lt size
  refine ⟨UInt32.ofNat (beNat (bytes.take 4)), bytes.drop 4, ?_⟩
  rw [UInt32.toNat_ofNat', Nat.mod_eq_of_lt small, be32_beNat size, List.take_append_drop]

theorem exists_i32 {bytes : Bytes} (four : 4 ≤ bytes.length) :
    ∃ (value : Int32) (rest : Bytes), bytes = i32Wire value ++ rest := by
  obtain ⟨value, rest, same⟩ := exists_u32 four
  exact ⟨value.toInt32, rest, same⟩

/-- What was read stood in front. -/
theorem readI32_front {buf rest : Bytes} {value : Int32} (read : readI32 buf = .ok (value, rest)) :
    buf = i32Wire value ++ rest := by
  obtain ⟨found, tail, rfl⟩ := exists_i32 (readI32_ok read).1
  rw [readI32_wire] at read
  cases read
  rfl

theorem readU32_front {buf rest : Bytes} {value : UInt32} (read : readU32 buf = .ok (value, rest)) :
    buf = be32 value.toNat ++ rest := by
  by_cases long : 4 ≤ buf.length
  · obtain ⟨found, tail, rfl⟩ := exists_u32 long
    rw [readU32_wire] at read
    cases read
    rfl
  · have short : readExact 4 buf = .error (.io fillWholeBuffer) := if_pos (by omega)
    simp only [readU32, bind, StateT.bind, short, Except.bind] at read
    cases read

/-! ### Dimensions -/

def dimensionWire (dimension : ArrayDimension) : Bytes := i32Wire dimension.len ++ i32Wire dimension.lowerBound

theorem dimensionWire_length (dimension : ArrayDimension) : (dimensionWire dimension).length = 8 := rfl

theorem dimensionsWire_length (dimensions : List ArrayDimension) :
    (dimensions.flatMap dimensionWire).length = 8 * dimensions.length := by
  induction dimensions with
  | nil => rfl
  | cons dimension dimensions ih =>
    rw [List.flatMap_cons, List.length_append, dimensionWire_length, ih, List.length_cons]
    omega

/-- Any eight bytes a dimension are those of dimensions. -/
theorem exists_dimensions {count : Nat} {bytes : Bytes} (long : 8 * count ≤ bytes.length) :
    ∃ (dimensions : List ArrayDimension) (rest : Bytes), dimensions.length = count ∧
      bytes = dimensions.flatMap dimensionWire ++ rest := by
  induction count generalizing bytes with
  | zero => exact ⟨[], bytes, rfl, rfl⟩
  | succ count ih =>
    obtain ⟨len, behind, rfl⟩ := exists_i32 (show 4 ≤ bytes.length by omega)
    rw [List.length_append, i32Wire_length] at long
    obtain ⟨lowerBound, rest, rfl⟩ := exists_i32 (show 4 ≤ behind.length by omega)
    rw [List.length_append, i32Wire_length] at long
    obtain ⟨dimensions, rest, rfl, rfl⟩ := ih (show 8 * count ≤ rest.length by omega)
    exact ⟨⟨len, lowerBound⟩ :: dimensions, rest, rfl, by simp [dimensionWire]⟩

theorem nextDimension_wire (dimension : ArrayDimension) (rest : Bytes) :
    nextDimension (dimensionWire dimension ++ rest) = .ok (some (dimension, rest)) := by
  simp only [nextDimension, dimensionWire, List.append_assoc, readI32_wire, bind, Except.bind]
  rfl

theorem drainDimensions_wire (dimensions : List ArrayDimension) :
    drainDimensions (dimensions.flatMap dimensionWire) = .ok dimensions := by
  induction dimensions with
  | nil => rw [drainDimensions]; rfl
  | cons dimension dimensions ih =>
    rw [List.flatMap_cons, drainDimensions, nextDimension_wire]
    change (drainDimensions (dimensions.flatMap dimensionWire)).map _ = _
    rw [ih]
    rfl

/-- What the loop of `array_from_sql` makes of the dimensions that it reads. -/
def multiply : Int32 → List ArrayDimension → Except BoxError Int32
  | elements, [] => .ok elements
  | elements, dimension :: dimensions =>
      if dimension.len < 0 then .error (.text "invalid dimension size")
      else
        match checkedMul elements dimension.len with
        | some elements => multiply elements dimensions
        | none => .error (.text "too many array elements")

theorem countElements_wire (elements : Int32) (dimensions : List ArrayDimension) (rest : Bytes) :
    countElements dimensions.length elements (dimensions.flatMap dimensionWire ++ rest) =
      (multiply elements dimensions).map fun elements => (elements, rest) := by
  induction dimensions generalizing elements with
  | nil => rfl
  | cons dimension dimensions ih =>
    have first := readI32_wire dimension.len
      (i32Wire dimension.lowerBound ++ (dimensions.flatMap dimensionWire ++ rest))
    have second := readI32_wire dimension.lowerBound (dimensions.flatMap dimensionWire ++ rest)
    have whole : (dimension :: dimensions).flatMap dimensionWire ++ rest = i32Wire dimension.len ++
        (i32Wire dimension.lowerBound ++ (dimensions.flatMap dimensionWire ++ rest)) := by
      simp [dimensionWire]
    rw [whole, List.length_cons, countElements, bind_ran first, multiply]
    by_cases negative : dimension.len < 0
    · rw [if_pos negative, if_pos negative]
      rfl
    · rw [if_neg negative, if_neg negative, bind_ran second]
      cases checkedMul elements dimension.len with
      | none => rfl
      | some product => exact ih product

/-- The loop reads eight bytes a dimension. -/
theorem countElements_long {count : Nat} {elements result : Int32} {buf rest : Bytes}
    (counted : countElements count elements buf = .ok (result, rest)) : 8 * count ≤ buf.length := by
  induction count generalizing elements buf with
  | zero => omega
  | succ count ih =>
    rw [countElements] at counted
    obtain ⟨len, between, first, counted⟩ := bind_eq_ok.mp counted
    obtain ⟨long, rfl⟩ := readI32_ok first
    split at counted
    · cases counted
    · obtain ⟨lowerBound, behind, second, counted⟩ := bind_eq_ok.mp counted
      obtain ⟨longer, rfl⟩ := readI32_ok second
      cases product : checkedMul elements len with
      | none => rw [product] at counted; cases counted
      | some product' =>
        rw [product] at counted
        have more := ih counted
        simp only [List.length_drop] at longer more
        omega

/-- The product of the lengths. -/
def lengthsProduct : List ArrayDimension → Int
  | [] => 1
  | dimension :: dimensions => dimension.len.toInt * lengthsProduct dimensions

theorem not_negative {value : Int32} : ¬value < 0 ↔ 0 ≤ value.toInt := by
  rw [Int32.lt_iff_toInt_lt, Int32.toInt_zero, Int.not_lt]

theorem checkedMul_some {left right product : Int32} (positive : 0 ≤ left.toInt * right.toInt) :
    checkedMul left right = some product ↔
      left.toInt * right.toInt < 2 ^ 31 ∧ product.toInt = left.toInt * right.toInt := by
  rw [checkedMul]
  split
  · rename_i fits
    have value : (Int32.ofInt (left.toInt * right.toInt)).toInt = left.toInt * right.toInt :=
      Int32.toInt_ofInt_of_le fits.1 fits.2
    rw [Option.some.injEq, ← Int32.toInt_inj, value]
    exact ⟨fun same => ⟨fits.2, same.symm⟩, fun same => same.2.symm⟩
  · rename_i large
    constructor
    · nofun
    · exact fun ⟨small, _⟩ => absurd ⟨by omega, small⟩ large

/-- The loop succeeds when no length is negative and no product overflows. -/
theorem multiply_ok {elements result : Int32} {dimensions : List ArrayDimension}
    (positive : 0 ≤ elements.toInt) :
    multiply elements dimensions = .ok result ↔
      (∀ dimension ∈ dimensions, 0 ≤ dimension.len.toInt) ∧
        (∀ count, elements.toInt * lengthsProduct (dimensions.take count) < 2 ^ 31) ∧
        result.toInt = elements.toInt * lengthsProduct dimensions := by
  induction dimensions generalizing elements with
  | nil =>
    have small := elements.toInt_lt
    simp only [multiply, List.take_nil, lengthsProduct, Int.mul_one, Except.ok.injEq]
    rw [← Int32.toInt_inj]
    exact ⟨fun same => ⟨nofun, fun _ => small, same.symm⟩, fun same => same.2.2.symm⟩
  | cons dimension dimensions ih =>
    rw [multiply]
    by_cases negative : dimension.len < 0
    · rw [if_pos negative]
      constructor
      · nofun
      · exact fun ⟨natural, _⟩ => absurd (natural dimension List.mem_cons_self) (by rw [← not_negative]; simpa)
    · rw [if_neg negative]
      have natural := not_negative.mp negative
      have product := Int.mul_nonneg positive natural
      have prefixes : (∀ count, elements.toInt * lengthsProduct ((dimension :: dimensions).take count) < 2 ^ 31) ↔
          elements.toInt * dimension.len.toInt < 2 ^ 31 ∧
            ∀ count, elements.toInt * dimension.len.toInt * lengthsProduct (dimensions.take count) < 2 ^ 31 := by
        constructor
        · intro every
          refine ⟨by simpa [lengthsProduct] using every 1, fun count => ?_⟩
          rw [Int.mul_assoc]
          exact every (count + 1)
        · rintro ⟨-, every⟩ count
          cases count with
          | zero => simpa [lengthsProduct] using elements.toInt_lt
          | succ count =>
            have next := every count
            rwa [Int.mul_assoc] at next
      rw [prefixes, lengthsProduct, List.forall_mem_cons, ← Int.mul_assoc]
      cases checked : checkedMul elements dimension.len with
      | none =>
        constructor
        · nofun
        · rintro ⟨-, ⟨small, -⟩, -⟩
          have found := (checkedMul_some product).mpr
            ⟨small, Int32.toInt_ofInt_of_le (by omega) small⟩
          rw [checked] at found
          cases found
      | some next =>
        obtain ⟨small, value⟩ := (checkedMul_some product).mp checked
        rw [← value] at product small ⊢
        rw [ih product]
        exact ⟨fun ⟨all, every, same⟩ => ⟨⟨natural, all⟩, ⟨small, every⟩, same⟩,
          fun ⟨⟨_, all⟩, ⟨_, every⟩, same⟩ => ⟨all, every, same⟩⟩

/-! ### The byte strings that are accepted -/

/-- The bytes of an array up to its values. -/
def headWire (count flags : Int32) (elementType : UInt32) (dimensions : List ArrayDimension) : Bytes :=
  i32Wire count ++ i32Wire flags ++ be32 elementType.toNat ++ dimensions.flatMap dimensionWire

/-- The array that stands in front of its values. -/
def headArray (count flags : Int32) (elementType : UInt32) (dimensions : List ArrayDimension)
    (elements : Int32) (rest : Bytes) : Array where
  dimensions := count
  hasNulls := flags ≠ 0
  elementType := elementType
  elements := if count = 0 then 0 else elements
  buf := dimensions.flatMap dimensionWire ++ rest

theorem parseArray_head {count elements : Int32} (flags : Int32) (elementType : UInt32)
    {dimensions : List ArrayDimension} (counted : count.toInt = dimensions.length)
    (multiplied : multiply 1 dimensions = .ok elements) (rest : Bytes) :
    parseArray (headWire count flags elementType dimensions ++ rest) =
      .ok (headArray count flags elementType dimensions elements rest, rest) := by
  have natural : ¬count < 0 := by rw [not_negative]; omega
  have number : count.toNatClampNeg = dimensions.length := by
    change count.toInt.toNat = _
    omega
  have loop := countElements_wire 1 dimensions rest
  rw [multiplied] at loop
  rw [headWire, List.append_assoc, List.append_assoc, List.append_assoc, parseArray,
    bind_ran (readI32_wire count _), if_neg natural, bind_ran (readI32_wire flags _),
    bind_ran (readU32_wire elementType _)]
  have copied : (get : Slice Bytes) (dimensions.flatMap dimensionWire ++ rest) =
      .ok (dimensions.flatMap dimensionWire ++ rest, dimensions.flatMap dimensionWire ++ rest) := rfl
  rw [bind_ran copied, number, bind_ran loop]
  rfl

/-- Everything that is accepted has a head of this form. -/
theorem parseArray_ok {raw rest : Bytes} {array : Array} (parsed : parseArray raw = .ok (array, rest)) :
    ∃ count flags elementType dimensions elements,
      raw = headWire count flags elementType dimensions ++ rest ∧
        count.toInt = dimensions.length ∧ multiply 1 dimensions = .ok elements ∧
        array = headArray count flags elementType dimensions elements rest := by
  rw [parseArray] at parsed
  obtain ⟨count, behindCount, readCount, parsed₁⟩ := bind_eq_ok.mp parsed
  by_cases negative : count < 0
  · rw [if_pos negative] at parsed₁
    cases parsed₁
  · rw [if_neg negative] at parsed₁
    obtain ⟨flags, behindFlags, readFlags, parsed₂⟩ := bind_eq_ok.mp parsed₁
    obtain ⟨elementType, buf, readType, parsed₃⟩ := bind_eq_ok.mp parsed₂
    obtain ⟨_, _, got, parsed₄⟩ := bind_eq_ok.mp parsed₃
    cases got
    obtain ⟨elements, tail, counted, parsed₅⟩ := bind_eq_ok.mp parsed₄
    cases parsed₅
    obtain ⟨dimensions, values, size, rfl⟩ := exists_dimensions (countElements_long counted)
    rw [← size, countElements_wire] at counted
    have number : count.toInt = dimensions.length := by
      have clamped : dimensions.length = count.toInt.toNat := size
      rw [not_negative] at negative
      omega
    cases multiplied : multiply 1 dimensions with
    | error error => rw [multiplied] at counted; cases counted
    | ok product =>
      rw [multiplied] at counted
      cases counted
      refine ⟨count, flags, elementType, dimensions, _, ?_, number, multiplied, rfl⟩
      rw [readI32_front readCount, readI32_front readFlags, readU32_front readType]
      simp [headWire]

/-! ### Values -/

theorem asUsize_of_natural {value : Int32} (natural : 0 ≤ value.toInt) : (asUsize value : Int) = value.toInt := by
  have small := value.toInt_lt
  rw [asUsize, Int.emod_eq_of_lt natural (by omega), Int.toNat_of_nonneg natural]

theorem checkedPred_of_positive {value : Int32} (positive : 0 < value.toInt) :
    ∃ less, checkedPred value = some less ∧ less.toInt = value.toInt - 1 := by
  have small := value.toInt_lt
  refine ⟨value - 1, if_neg (by omega), ?_⟩
  have one : (1 : Int32).toInt = 1 := rfl
  rw [Int32.toInt_sub, one]
  exact Int.bmod_eq_of_le (by omega) (by omega)

/-- What `ArrayValues::next` does while values are to come. -/
theorem ArrayValues.next_read {self : ArrayValues} (positive : 0 < self.remaining.toInt) :
    ∃ less : Int32, less.toInt = self.remaining.toInt - 1 ∧
      self.next = match readI32 self.buf with
        | .error error => throw error
        | .ok (len, buf) =>
            if len < 0 then return some (none, ⟨less, buf⟩)
            else if asUsize len ≤ buf.length then
              return some (some (buf.take (asUsize len)), ⟨less, buf.drop (asUsize len)⟩)
            else throw (.text "invalid value length") := by
  obtain ⟨less, decremented, value⟩ := checkedPred_of_positive positive
  refine ⟨less, value, ?_⟩
  have more : self.remaining ≠ 0 := by
    intro zero
    rw [zero, Int32.toInt_zero] at positive
    omega
  rw [ArrayValues.next, if_neg more, decremented]
  cases readI32 self.buf with
  | error error => rfl
  | ok found => rfl

/-- One call on any bytes: it never panics, and a value is taken off with its
length field. -/
theorem ArrayValues.next_cases {self : ArrayValues} (natural : 0 ≤ self.remaining.toInt) :
    (self.remaining.toInt = 0 ∧ self.buf = [] ∧ self.next.run = some (.ok none)) ∨
      (∃ error, self.next.run = some (.error error)) ∨
      ∃ value rest, self.next.run = some (.ok (some (value, rest))) ∧
        rest.remaining.toInt = self.remaining.toInt - 1 ∧ 0 ≤ rest.remaining.toInt ∧
        self.buf.length = 4 + (value.getD []).length + rest.buf.length := by
  by_cases zero : self.remaining = 0
  · rw [ArrayValues.next, if_pos zero]
    by_cases drained : self.buf ≠ []
    · rw [if_pos drained]
      exact .inr (.inl ⟨_, rfl⟩)
    · rw [if_neg drained, zero]
      exact .inl ⟨rfl, Classical.not_not.mp drained, rfl⟩
  · have positive : 0 < self.remaining.toInt := by
      have different : self.remaining.toInt ≠ 0 := fun same => zero (Int32.toInt_inj.mp same)
      omega
    obtain ⟨less, value, step⟩ := ArrayValues.next_read positive
    right
    rw [step]
    cases read : readI32 self.buf with
    | error error => exact .inl ⟨error, rfl⟩
    | ok found =>
      obtain ⟨len, buf⟩ := found
      have size : self.buf.length = 4 + buf.length := by
        rw [readI32_front read, List.length_append, i32Wire_length]
      have still : 0 ≤ less.toInt := by omega
      dsimp only
      split
      · exact .inr ⟨none, ⟨less, buf⟩, rfl, value, still, by simpa using size⟩
      · split
        · rename_i fits
          refine .inr ⟨some _, ⟨less, buf.drop (asUsize len)⟩, rfl, value, still, ?_⟩
          simp only [Option.getD_some, List.length_take, List.length_drop]
          omega
        · exact .inl ⟨_, rfl⟩

/-- The bytes that values take with their length fields. -/
def valuesSize (values : List (Option Bytes)) : Nat :=
  (values.map fun value => 4 + (value.getD []).length).sum

section Collect

variable {Value : Type} (f : Option Bytes → Except BoxError Value) {self rest : ArrayValues}

theorem ArrayValues.collect_next {value : Option Bytes}
    (step : self.next.run = some (.ok (some (value, rest)))) :
    (self.collect f).run = match f value with
      | .error error => some (.error error)
      | .ok item => (rest.collect f).run.map fun result => result.map (item :: ·) := by
  rw [ArrayValues.collect, step]
  dsimp only
  cases f value with
  | error error => rfl
  | ok item =>
    change ((rest.collect f).run.bind fun result => _) = _
    cases (rest.collect f).run with
    | none => rfl
    | some result => cases result <;> rfl

theorem ArrayValues.collect_last (step : self.next.run = some (.ok none)) :
    (self.collect f).run = some (.ok []) := by
  rw [ArrayValues.collect, step]
  rfl

theorem ArrayValues.collect_error {error : BoxError} (step : self.next.run = some (.error error)) :
    (self.collect f).run = some (.error error) := by
  rw [ArrayValues.collect, step]
  rfl

end Collect

theorem ArrayValues.drain_next {self rest : ArrayValues} {value : Option Bytes}
    (step : self.next.run = some (.ok (some (value, rest)))) :
    self.drain.run = rest.drain.run.map fun result => result.map (value :: ·) :=
  ArrayValues.collect_next .ok step

/-- Draining ends on any bytes, and what it answers fills them. -/
theorem ArrayValues.drain_total (self : ArrayValues) (natural : 0 ≤ self.remaining.toInt) :
    ∃ result, self.drain.run = some result ∧
      ∀ values, result = .ok values →
        (values.length : Int) = self.remaining.toInt ∧ self.buf.length = valuesSize values := by
  generalize size : self.buf.length = length
  induction length using Nat.strongRecOn generalizing self with
  | ind length ih =>
    obtain ⟨zero, drained, step⟩ | ⟨error, step⟩ | ⟨value, rest, step, fewer, still, taken⟩ :=
      ArrayValues.next_cases natural
    · refine ⟨.ok [], ArrayValues.collect_last .ok step, ?_⟩
      rintro _ ⟨⟩
      rw [drained] at size
      exact ⟨by rw [zero]; rfl, size.symm⟩
    · exact ⟨.error error, ArrayValues.collect_error .ok step, nofun⟩
    · obtain ⟨result, ran, filled⟩ := ih rest.buf.length (by omega) rest still rfl
      refine ⟨result.map (value :: ·), by rw [ArrayValues.drain_next step, ran]; rfl, ?_⟩
      cases result with
      | error error => nofun
      | ok values =>
        rintro _ ⟨⟩
        obtain ⟨counted, filled⟩ := filled values rfl
        refine ⟨by rw [List.length_cons]; omega, ?_⟩
        rw [valuesSize, List.map_cons, List.sum_cons, ← valuesSize]
        omega

/-- Collecting converted values is converting what draining answers. -/
theorem ArrayValues.collect_total {Value : Type} (f : Option Bytes → Except BoxError Value)
    (self : ArrayValues) (natural : 0 ≤ self.remaining.toInt) :
    ∃ result, (self.collect f).run = some result ∧
      ∀ items, result = .ok items ↔ ∃ values, self.drain.run = some (.ok values) ∧ values.mapM f = .ok items := by
  generalize size : self.buf.length = length
  induction length using Nat.strongRecOn generalizing self with
  | ind length ih =>
    obtain ⟨zero, drained, step⟩ | ⟨error, step⟩ | ⟨value, rest, step, fewer, still, taken⟩ :=
      ArrayValues.next_cases natural
    · refine ⟨.ok [], ArrayValues.collect_last f step, fun items => ?_⟩
      rw [ArrayValues.drain, ArrayValues.collect_last .ok step]
      simp [pure, Except.pure]
    · refine ⟨.error error, ArrayValues.collect_error f step, fun items => ?_⟩
      rw [ArrayValues.drain, ArrayValues.collect_error .ok step]
      simp
    · obtain ⟨result, ran, converted⟩ := ih rest.buf.length (by omega) rest still rfl
      obtain ⟨drained, ranDrain, -⟩ := ArrayValues.drain_total rest still
      rw [ArrayValues.collect_next f step, ArrayValues.drain_next step, ranDrain]
      simp only [ranDrain, Option.some.injEq] at converted
      have split (values : List (Option Bytes)) : (value :: values).mapM f =
          (f value).bind fun item => (values.mapM f).map (item :: ·) := by
        rw [List.mapM_cons]
        cases f value with
        | error error => rfl
        | ok item => cases values.mapM f <;> rfl
      cases own : f value with
      | error error =>
        refine ⟨.error error, rfl, fun items => ⟨nofun, ?_⟩⟩
        rintro ⟨values, drains, mapped⟩
        cases drained with
        | error error => cases drains
        | ok others =>
          obtain rfl : value :: others = values := Except.ok.inj (Option.some.inj drains)
          rw [split, own] at mapped
          cases mapped
      | ok item =>
        refine ⟨result.map (item :: ·), by rw [ran]; rfl, fun items => ?_⟩
        cases drained with
        | error error =>
          cases result with
          | error error => exact ⟨nofun, fun ⟨_, drains, _⟩ => by cases drains⟩
          | ok others =>
            obtain ⟨_, impossible, -⟩ := (converted others).mp rfl
            cases impossible
        | ok values =>
          constructor
          · intro same
            cases result with
            | error error => cases same
            | ok others =>
              obtain ⟨_, ⟨⟩, mapped⟩ := (converted others).mp rfl
              refine ⟨value :: values, rfl, ?_⟩
              rw [split, own]
              exact (congrArg (Except.map (item :: ·)) mapped).trans same
          · rintro ⟨_, ⟨⟩, mapped⟩
            rw [split, own] at mapped
            change (values.mapM f).map (item :: ·) = .ok items at mapped
            cases mappedOthers : values.mapM f with
            | error error => rw [mappedOthers] at mapped; cases mapped
            | ok others =>
              rw [mappedOthers] at mapped
              rw [(converted others).mpr ⟨values, rfl, mappedOthers⟩]
              exact mapped

/-- A value that was written is the next one read. -/
theorem ArrayValues.next_wire {remaining : Int32} (positive : 0 < remaining.toInt) {value : Option Bytes}
    (fits : FitsI32 value) (rest : Bytes) :
    ∃ less : Int32, less.toInt = remaining.toInt - 1 ∧
      (ArrayValues.mk remaining (nullable value ++ rest)).next.run = some (.ok (some (value, ⟨less, rest⟩))) := by
  obtain ⟨less, smaller, step⟩ :=
    ArrayValues.next_read (show 0 < (ArrayValues.mk remaining (nullable value ++ rest)).remaining.toInt from positive)
  refine ⟨less, smaller, ?_⟩
  rw [step]
  cases value with
  | none =>
    have wire : nullable none ++ rest = i32Wire (-1) ++ rest := rfl
    rw [wire, readI32_wire]
    rfl
  | some bytes =>
    have small : bytes.length < 2 ^ 31 := fits bytes rfl
    have value : (Int32.ofNat bytes.length).toInt = bytes.length :=
      Int32.toInt_ofNat_of_lt small
    have natural : ¬Int32.ofNat bytes.length < 0 := by rw [not_negative, value]; omega
    have size : asUsize (Int32.ofNat bytes.length) = bytes.length := by
      have same := asUsize_of_natural (not_negative.mp natural)
      omega
    have wire : nullable (some bytes) ++ rest = i32Wire (Int32.ofNat bytes.length) ++ (bytes ++ rest) := by
      rw [nullable, i32Wire, toNat_ofNat_of_lt small, List.append_assoc]
    have enough : bytes.length ≤ (bytes ++ rest).length := by rw [List.length_append]; omega
    rw [wire, readI32_wire]
    dsimp only
    rw [if_neg natural, size, if_pos enough, List.take_left, List.drop_left]
    rfl

theorem ArrayValues.drain_wire {remaining : Int32} {values : List (Option Bytes)}
    (counted : remaining.toInt = values.length) (fits : ∀ value ∈ values, FitsI32 value) :
    (ArrayValues.mk remaining (values.flatMap nullable)).drain.run = some (.ok values) := by
  induction values generalizing remaining with
  | nil =>
    have zero : remaining = 0 := Int32.toInt_inj.mp (by rw [counted, Int32.toInt_zero]; rfl)
    rw [zero]
    exact ArrayValues.collect_last .ok rfl
  | cons value values ih =>
    rw [List.length_cons] at counted
    obtain ⟨own, others⟩ := List.forall_mem_cons.mp fits
    have positive : 0 < remaining.toInt := by omega
    obtain ⟨less, smaller, next⟩ := ArrayValues.next_wire positive own (values.flatMap nullable)
    rw [List.flatMap_cons, ArrayValues.drain_next next, ih (by omega) others]
    rfl

/-! ### Reading arrays -/

section Head

variable {count flags elements : Int32} {elementType : UInt32} {dimensions : List ArrayDimension}
  (counted : count.toInt = dimensions.length)

include counted

theorem headArray_start : checkedUsize (asUsize count * 8) = some (8 * dimensions.length) := by
  have small := count.toInt_lt
  have size := asUsize_of_natural (show 0 ≤ count.toInt by omega)
  have same : asUsize count * 8 = 8 * dimensions.length := by omega
  rw [same]
  exact if_pos (by omega)

theorem headArray_dimensions (rest : Bytes) :
    (headArray count flags elementType dimensions elements rest).arrayDimensions =
      some (dimensions.flatMap dimensionWire) := by
  have size := dimensionsWire_length dimensions
  rw [Array.arrayDimensions]
  change (checkedUsize (asUsize count * 8)).bind _ = _
  rw [headArray_start counted, Option.bind_some]
  exact (if_pos (by rw [headArray, List.length_append]; omega)).trans (congrArg some (List.take_left' size))

theorem headArray_values (rest : Bytes) :
    (headArray count flags elementType dimensions elements rest).values =
      some ⟨if count = 0 then 0 else elements, rest⟩ := by
  have size := dimensionsWire_length dimensions
  have sliced : sliceFrom? (dimensions.flatMap dimensionWire ++ rest) (8 * dimensions.length) = some rest :=
    (if_pos (by rw [List.length_append]; omega)).trans (congrArg some (List.drop_left' size))
  rw [Array.values]
  change (checkedUsize (asUsize count * 8)).bind _ = _
  rw [headArray_start counted, Option.bind_some]
  change (sliceFrom? (dimensions.flatMap dimensionWire ++ rest) (8 * dimensions.length)).bind _ = _
  rw [sliced]
  rfl

end Head

theorem lengthsProduct_natural {dimensions : List ArrayDimension}
    (natural : ∀ dimension ∈ dimensions, 0 ≤ dimension.len.toInt) : 0 ≤ lengthsProduct dimensions := by
  induction dimensions with
  | nil => decide
  | cons dimension dimensions ih =>
    obtain ⟨own, others⟩ := List.forall_mem_cons.mp natural
    exact Int.mul_nonneg own (ih others)

/-- The number of elements that dimensions announce. -/
def announced (dimensions : List ArrayDimension) : Int :=
  if dimensions = [] then 0 else lengthsProduct dimensions

theorem headArray_announced {count elements : Int32} {dimensions : List ArrayDimension}
    (counted : count.toInt = dimensions.length) (multiplied : multiply 1 dimensions = .ok elements) :
    (if count = 0 then (0 : Int32) else elements).toInt = announced dimensions ∧ 0 ≤ announced dimensions := by
  cases dimensions with
  | nil =>
    have zero : count = 0 := Int32.toInt_inj.mp (by rw [counted, Int32.toInt_zero]; rfl)
    rw [zero]
    exact ⟨rfl, Int.le_refl 0⟩
  | cons dimension dimensions =>
    have more : count ≠ 0 := by
      rintro rfl
      rw [Int32.toInt_zero, List.length_cons] at counted
      omega
    have one : (1 : Int32).toInt = 1 := rfl
    obtain ⟨natural, -, product⟩ := (multiply_ok (by decide)).mp multiplied
    rw [one, Int.one_mul] at product
    rw [if_neg more, announced, if_neg (by simp)]
    exact ⟨product, lengthsProduct_natural natural⟩

/-! ### Writing arrays -/

theorem ok_writeDimensions {dimensions : List ArrayDimension} {buf after : Bytes} {count : Nat} :
    Builder.Ok (writeDimensions dimensions) buf count after ↔
      count = dimensions.length ∧ after = buf ++ dimensions.flatMap dimensionWire := by
  have loop (start : Nat) : Builder.Ok (dimensions.foldlM (fun numDimensions dimension => do
        putI32 dimension.len
        putI32 dimension.lowerBound
        return numDimensions + 1) start : Put BoxError Nat) buf count after ↔
      count = start + dimensions.length ∧ after = buf ++ dimensions.flatMap dimensionWire := by
    induction dimensions generalizing buf start with
    | nil => simp [Builder.ok_pure]
    | cons dimension dimensions ih =>
      simp only [List.foldlM_cons, Builder.ok_bind, ok_putI32, Builder.ok_pure, List.length_cons,
        List.flatMap_cons]
      constructor
      · rintro ⟨_, _, ⟨_, _, rfl, _, _, rfl, rfl, rfl⟩, rest⟩
        obtain ⟨counted, rfl⟩ := (ih (start + 1)).mp rest
        exact ⟨by omega, by simp [dimensionWire, i32Wire]⟩
      · rintro ⟨rfl, rfl⟩
        refine ⟨_, _, ⟨(), _, rfl, (), _, rfl, rfl, rfl⟩, (ih (start + 1)).mpr ⟨by omega, ?_⟩⟩
        simp [dimensionWire, i32Wire]
  have whole := loop 0
  rwa [Nat.zero_add] at whole

section Values

variable {Captured Item : Type} {serializer : Serializer Captured Item IsNull BoxError}

theorem ok_noteNulls {state final : Captured × Bool} {item : Item} {isNull : IsNull} {buf after : Bytes} :
    Builder.Ok (noteNulls serializer state item) buf (isNull, final) after ↔
      Builder.Ok (serializer state.1 item) buf (isNull, final.1) after ∧
        final.2 = (state.2 || isNull = .yes) := by
  obtain ⟨captured, hasNulls⟩ := state
  obtain ⟨final, finalNulls⟩ := final
  simp only [noteNulls, Builder.ok_bind, Builder.ok_pure, Prod.mk.injEq]
  constructor
  · rintro ⟨⟨_, _⟩, _, ran, ⟨rfl, rfl, rfl⟩, rfl⟩
    exact ⟨ran, rfl⟩
  · rintro ⟨ran, rfl⟩
    exact ⟨_, _, ran, ⟨rfl, rfl, rfl⟩, rfl⟩

theorem appendOnly_noteNulls (appending : AppendOnly serializer) : AppendOnly (noteNulls serializer) where
  extending := fun (captured, _) item =>
    Builder.extends_bind (appending.extending captured item) fun _ => Builder.extends_pure _
  nullEmpty state item buf final after ran :=
    appending.nullEmpty state.1 item buf final.1 after (ok_noteNulls.mp ran).1

/-- The flag says whether a null was among the values. -/
theorem serialized_noteNulls {state final : Captured × Bool} {buf : Bytes} {items : List Item}
    {values : List (Option Bytes)} :
    Serialized (noteNulls serializer) state buf items values final ↔
      Serialized serializer state.1 buf items values final.1 ∧
        final.2 = (state.2 || decide (none ∈ values)) := by
  constructor
  · intro written
    induction written with
    | nil => exact ⟨.nil, by simp⟩
    | null call rest ih =>
      obtain ⟨call, flagged⟩ := ok_noteNulls.mp call
      exact ⟨.null call ih.1, by rw [ih.2, flagged]; simp⟩
    | value call rest ih =>
      obtain ⟨call, flagged⟩ := ok_noteNulls.mp call
      exact ⟨.value call ih.1, by rw [ih.2, flagged]; simp⟩
  · rintro ⟨written, flagged⟩
    obtain ⟨captured, hasNulls⟩ := state
    obtain ⟨final, finalNulls⟩ := final
    dsimp only at written flagged
    induction written generalizing hasNulls with
    | nil =>
      obtain rfl : finalNulls = hasNulls := by simpa using flagged
      exact .nil
    | null call rest ih =>
      exact .null (ok_noteNulls.mpr ⟨call, rfl⟩) (ih (hasNulls || true) (by rw [flagged]; simp))
    | value call rest ih =>
      exact .value (ok_noteNulls.mpr ⟨call, rfl⟩) (ih (hasNulls || false) (by rw [flagged]; simp))

theorem overwrite_count (buf : Bytes) (count flags : Int32) (elementType : UInt32)
    (dimensions : List ArrayDimension) :
    Builder.overwrite (buf ++ i32Wire 0 ++ i32Wire flags ++ be32 elementType.toNat ++
        dimensions.flatMap dimensionWire) buf.length (i32Wire count) =
      buf ++ headWire count flags elementType dimensions := by
  have patched := Builder.overwrite_append buf (i32Wire 0) (i32Wire count)
    (i32Wire flags ++ be32 elementType.toNat ++ dimensions.flatMap dimensionWire) rfl
  simpa only [headWire, List.append_assoc] using patched

theorem overwrite_flags (buf : Bytes) (count flags : Int32) (elementType : UInt32)
    (dimensions : List ArrayDimension) (values : Bytes) :
    Builder.overwrite (buf ++ headWire count 0 elementType dimensions ++ values) (buf ++ i32Wire 0).length
        (i32Wire flags) =
      buf ++ (headWire count flags elementType dimensions ++ values) := by
  have start : (buf ++ i32Wire 0).length = (buf ++ i32Wire count).length := by
    rw [List.length_append, List.length_append, i32Wire_length, i32Wire_length]
  have patched := Builder.overwrite_append (buf ++ i32Wire count) (i32Wire 0) (i32Wire flags)
    (be32 elementType.toNat ++ dimensions.flatMap dimensionWire ++ values) rfl
  rw [start]
  simpa only [headWire, List.append_assoc] using patched

/-- What `array_to_sql` writes, and when. -/
theorem ok_arrayToSql (appending : AppendOnly serializer) {dimensions : List ArrayDimension}
    {elementType : UInt32} {elements : List Item} {captured : Captured} {buf after : Bytes} {done : Unit} :
    Builder.Ok (arrayToSql dimensions elementType elements serializer captured) buf done after ↔
      ∃ values final,
        Serialized serializer captured
          (buf ++ headWire (Int32.ofNat dimensions.length) 0 elementType dimensions) elements values final ∧
        (∀ value ∈ values, FitsI32 value) ∧ dimensions.length < 2 ^ 31 ∧
        after = buf ++ (headWire (Int32.ofNat dimensions.length) (if none ∈ values then 1 else 0) elementType
          dimensions ++ values.flatMap nullable) := by
  simp only [arrayToSql, Builder.ok_bind, ok_len, ok_putI32, ok_putU32, ok_writeDimensions, ok_i32FromUsize,
    ok_writeI32, ok_values (appendOnly_noteNulls appending)]
  constructor
  · rintro ⟨_, buf, ⟨rfl, rfl⟩, _, _, rfl, _, _, ⟨rfl, rfl⟩, _, _, rfl, _, _, rfl, _, _, ⟨rfl, rfl⟩, _, _,
      ⟨small, rfl, rfl⟩, _, _, rfl, ⟨final, hasNulls⟩, _, ⟨values, written, fits, rfl⟩, rfl⟩
    obtain ⟨written, flagged⟩ := serialized_noteNulls.mp written
    have counted := overwrite_count buf (Int32.ofNat dimensions.length) 0 elementType dimensions
    simp only [i32Wire] at counted
    rw [counted] at written ⊢
    refine ⟨values, final, written, fits, small, ?_⟩
    obtain rfl : hasNulls = decide (none ∈ values) := by simpa using flagged
    simp only [decide_eq_true_eq]
    exact overwrite_flags buf _ _ elementType dimensions _
  · rintro ⟨values, final, written, fits, small, rfl⟩
    have counted := overwrite_count buf (Int32.ofNat dimensions.length) 0 elementType dimensions
    simp only [i32Wire] at counted
    refine ⟨_, _, ⟨rfl, rfl⟩, (), _, rfl, _, _, ⟨rfl, rfl⟩, (), _, rfl, (), _, rfl, _, _, ⟨rfl, rfl⟩, _, _,
      ⟨small, rfl, rfl⟩, (), _, rfl, (final, decide (none ∈ values)), _,
      ⟨values, serialized_noteNulls.mpr ⟨?_, by simp⟩, fits, rfl⟩, ?_⟩
    · rw [counted]
      exact written
    · rw [counted]
      simp only [decide_eq_true_eq]
      exact (overwrite_flags buf _ _ elementType dimensions _).symm

end Values

/-! ### The codec -/

/-- Reading any bytes and draining both iterators ends without a panic, and
what it answers has as many values as announced and leaves no byte. -/
def Total (raw : Bytes) : Prop :=
  (∃ error, arrayFromSql raw = .error error) ∨
    ∃ array dimensionBytes dimensions values result,
      arrayFromSql raw = .ok array ∧
      array.arrayDimensions = some dimensionBytes ∧ drainDimensions dimensionBytes = .ok dimensions ∧
      array.values = some values ∧ values.drain.run = some result ∧
      ∀ drained, result = .ok drained →
        (drained.length : Int) = announced dimensions ∧
          raw.length = 12 + 8 * dimensions.length + valuesSize drained

theorem headWire_length (count flags : Int32) (elementType : UInt32) (dimensions : List ArrayDimension) :
    (headWire count flags elementType dimensions).length = 12 + 8 * dimensions.length := by
  simp only [headWire, List.length_append, i32Wire_length, be32_length, dimensionsWire_length]

theorem arrayFromSql_total (raw : Bytes) : Total raw := by
  cases parsed : parseArray raw with
  | error error => exact .inl ⟨error, by rw [arrayFromSql, parsed]; rfl⟩
  | ok found =>
    obtain ⟨array, rest⟩ := found
    obtain ⟨count, flags, elementType, dimensions, elements, rfl, counted, multiplied, rfl⟩ :=
      parseArray_ok parsed
    obtain ⟨many, natural⟩ := headArray_announced counted multiplied
    obtain ⟨result, drained, filled⟩ :=
      ArrayValues.drain_total ⟨if count = 0 then 0 else elements, rest⟩ (by rw [many]; exact natural)
    refine .inr ⟨_, _, dimensions, _, result, by rw [arrayFromSql, parsed]; rfl,
      headArray_dimensions counted rest, drainDimensions_wire dimensions, headArray_values counted rest,
      drained, fun values accepted => ?_⟩
    obtain ⟨size, whole⟩ := filled values accepted
    refine ⟨size.trans many, ?_⟩
    rw [List.length_append, headWire_length, whole]

/-- What was written is read back. -/
theorem arrayFromSql_wire {dimensions : List ArrayDimension} (flags : Int32) (elementType : UInt32)
    {values : List (Option Bytes)} (fits : ∀ value ∈ values, FitsI32 value)
    (natural : ∀ dimension ∈ dimensions, 0 ≤ dimension.len.toInt)
    (products : ∀ count, lengthsProduct (dimensions.take count) < 2 ^ 31)
    (counted : (values.length : Int) = announced dimensions) (few : dimensions.length < 2 ^ 31) :
    ∃ array dimensionBytes arrayValues,
      arrayFromSql (headWire (Int32.ofNat dimensions.length) flags elementType dimensions ++
        values.flatMap nullable) = .ok array ∧
      array.arrayDimensions = some dimensionBytes ∧ drainDimensions dimensionBytes = .ok dimensions ∧
      array.elementType = elementType ∧ array.hasNulls = decide (flags ≠ 0) ∧
      array.values = some arrayValues ∧ arrayValues.drain.run = some (.ok values) := by
  have count : (Int32.ofNat dimensions.length).toInt = dimensions.length := Int32.toInt_ofNat_of_lt few
  have one : (1 : Int32).toInt = 1 := rfl
  have whole : lengthsProduct dimensions < 2 ^ 31 := by
    have last := products dimensions.length
    rwa [List.take_length] at last
  have positive := lengthsProduct_natural natural
  have multiplied : multiply 1 dimensions = .ok (Int32.ofInt (lengthsProduct dimensions)) := by
    refine (multiply_ok (by decide)).mpr ⟨natural, fun count => ?_, ?_⟩
    · rw [one, Int.one_mul]
      exact products count
    · rw [one, Int.one_mul]
      exact Int32.toInt_ofInt_of_le (by omega) whole
  have parsed := parseArray_head flags elementType count multiplied (values.flatMap nullable)
  obtain ⟨many, -⟩ := headArray_announced count multiplied
  exact ⟨_, _, _, by rw [arrayFromSql, parsed]; rfl, headArray_dimensions count _, drainDimensions_wire dimensions,
    rfl, rfl, headArray_values count _, ArrayValues.drain_wire (many.trans counted.symm) fits⟩

section Codec

variable {Captured Item : Type} {serializer : Serializer Captured Item IsNull BoxError}

/-- Arrays of fewer than `2 ^ 31` dimensions go through the codec unchanged,
and the codec is total on every byte string. -/
theorem arrayToSql_roundTrip (appending : AppendOnly serializer) (dimensions : List ArrayDimension)
    (elementType : UInt32) (elements : List Item) (captured final : Captured) (buf : Bytes)
    (values : List (Option Bytes))
    (written : Serialized serializer captured
      (buf ++ headWire (Int32.ofNat dimensions.length) 0 elementType dimensions) elements values final)
    (fits : ∀ value ∈ values, FitsI32 value)
    (natural : ∀ dimension ∈ dimensions, 0 ≤ dimension.len.toInt)
    (products : ∀ count, lengthsProduct (dimensions.take count) < 2 ^ 31)
    (counted : (elements.length : Int) = announced dimensions) (few : dimensions.length < 2 ^ 31) :
    (∃ raw array dimensionBytes arrayValues,
      Builder.Ok (arrayToSql dimensions elementType elements serializer captured) buf () (buf ++ raw) ∧
      arrayFromSql raw = .ok array ∧
      array.arrayDimensions = some dimensionBytes ∧ drainDimensions dimensionBytes = .ok dimensions ∧
      array.elementType = elementType ∧ (array.hasNulls = true ↔ none ∈ values) ∧
      array.values = some arrayValues ∧ arrayValues.drain.run = some (.ok values)) ∧
    ∀ raw, Total raw := by
  refine ⟨?_, arrayFromSql_total⟩
  have ran : Builder.Ok (arrayToSql dimensions elementType elements serializer captured) buf () _ :=
    (ok_arrayToSql appending).mpr ⟨values, final, written, fits, few, rfl⟩
  obtain ⟨array, dimensionBytes, arrayValues, read, sliced, drained, typed, nulls, cut, yields⟩ :=
    arrayFromSql_wire (if none ∈ values then 1 else 0) elementType fits natural products
      (by rw [written.length]; exact counted) few
  refine ⟨_, array, dimensionBytes, arrayValues, ran, read, sliced, drained, typed, ?_, cut, yields⟩
  rw [nulls]
  by_cases null : none ∈ values <;> simp [null]

end Codec

theorem arrayToSql_roundTrip_nulls :
    ∃ raw array values,
      Builder.Ok (arrayToSql [⟨1, 10⟩, ⟨2, 0⟩] 10 [none, some [104, 105]] (ofEncoder id) ()) [] () ([] ++ raw) ∧
      arrayFromSql raw = .ok array ∧ array.hasNulls = true ∧
      array.values = some values ∧ values.drain.run = some (.ok [none, some [104, 105]]) := by
  have fits : ∀ value ∈ [none, some [104, 105]], FitsI32 value := by
    rintro value member bytes rfl
    simp only [List.mem_cons, reduceCtorEq, Option.some.injEq, List.not_mem_nil, or_false, false_or] at member
    subst member
    decide
  have products : ∀ count, lengthsProduct (([⟨1, 10⟩, ⟨2, 0⟩] : List ArrayDimension).take count) < 2 ^ 31 := by
    intro count
    rcases count with _ | _ | count
    · simp [lengthsProduct]
    · simp [lengthsProduct]
    · simp [lengthsProduct]
  obtain ⟨⟨raw, array, _, values, ran, read, -, -, -, nulls, cut, yields⟩, -⟩ :=
    arrayToSql_roundTrip (appendOnly_ofEncoder id) [⟨1, 10⟩, ⟨2, 0⟩] 10 [none, some [104, 105]] () () []
      [none, some [104, 105]] (serialized_ofEncoder id [none, some [104, 105]] _) fits (by decide) products rfl
      (by decide)
  exact ⟨raw, array, values, ran, read, nulls.mpr (by simp), cut, yields⟩

/-- Ones as lengths leave the product at one. -/
theorem lengthsProduct_ones (count : Nat) : lengthsProduct (List.replicate count ⟨1, 1⟩) = 1 := by
  induction count with
  | zero => rfl
  | succ count ih =>
    rw [List.replicate_succ, lengthsProduct, ih]
    rfl

/-- One element in `2 ^ 31` dimensions of length one: `array_to_sql` fails. -/
theorem not_arrayToSql_manyDimensions :
    ∃ dimensions : List ArrayDimension,
      (∀ dimension ∈ dimensions, 0 ≤ dimension.len.toInt) ∧
      (∀ count, lengthsProduct (dimensions.take count) < 2 ^ 31) ∧
      (([some [7]] : List (Option Bytes)).length : Int) = announced dimensions ∧
      ¬∃ raw, Builder.Ok (arrayToSql dimensions 23 [some [7]] (ofEncoder id) ()) [] () raw := by
  refine ⟨List.replicate (2 ^ 31) ⟨1, 1⟩, ?_, ?_, ?_, ?_⟩
  · intro dimension member
    rw [(List.mem_replicate.mp member).2]
    decide
  · intro count
    rw [List.take_replicate, lengthsProduct_ones]
    decide
  · rw [announced, lengthsProduct_ones, if_neg]
    · rfl
    · intro empty
      have size := congrArg List.length empty
      rw [List.length_replicate, List.length_nil] at size
      omega
  · rintro ⟨raw, ran⟩
    obtain ⟨_, _, -, -, few, -⟩ := (ok_arrayToSql (appendOnly_ofEncoder id)).mp ran
    rw [List.length_replicate] at few
    omega

theorem checked_ok {First Second : Type} (value : First) (next : First → Checked Second) :
    (ExceptT.mk (some (.ok value)) >>= next) = next value := rfl

theorem checked_lift {First Second : Type} (value : First) (next : First → Checked Second) :
    ((liftM (some value) : Checked First) >>= next) = next value := rfl

theorem vecFromSql_read {Value : Type} (f : Option Bytes → Except BoxError Value) {raw dimensionBytes : Bytes}
    {array : Array} {dimensions : List ArrayDimension} {values : ArrayValues}
    (read : arrayFromSql raw = .ok array) (sliced : array.arrayDimensions = some dimensionBytes)
    (drained : drainDimensions dimensionBytes = .ok dimensions) (cut : array.values = some values) :
    (vecFromSql f raw).run =
      if 1 < dimensions.length then some (.error (.text "array contains too many dimensions"))
      else (values.collect f).run := by
  rw [vecFromSql, read, checked_ok, sliced, checked_lift, drained, checked_ok]
  split
  · rfl
  · rw [cut, checked_lift]

/-- `Vec<T>::from_sql` ends without a panic too, and succeeds with as many
items as the one dimension announces. -/
theorem vecFromSql_total {Value : Type} (fromSqlNullable : Option Bytes → Except BoxError Value) (raw : Bytes) :
    ∃ result, (vecFromSql fromSqlNullable raw).run = some result ∧
      ∀ items, result = .ok items → ∃ (dimensions : List ArrayDimension) (values : List (Option Bytes)),
        dimensions.length ≤ 1 ∧ (values.length : Int) = announced dimensions ∧
          values.mapM fromSqlNullable = .ok items := by
  cases parsed : parseArray raw with
  | error error =>
    have failed : arrayFromSql raw = .error error := by rw [arrayFromSql, parsed]; rfl
    exact ⟨.error error, by rw [vecFromSql, failed]; rfl, nofun⟩
  | ok found =>
    obtain ⟨array, rest⟩ := found
    have read : arrayFromSql raw = .ok array := by rw [arrayFromSql, parsed]; rfl
    obtain ⟨count, flags, elementType, dimensions, elements, rfl, counted, multiplied, rfl⟩ :=
      parseArray_ok parsed
    obtain ⟨many, natural⟩ := headArray_announced counted multiplied
    have whole := vecFromSql_read fromSqlNullable read (headArray_dimensions counted rest)
      (drainDimensions_wire dimensions) (headArray_values counted rest)
    rw [whole]
    split
    · exact ⟨_, rfl, nofun⟩
    · rename_i few
      have still : 0 ≤ (ArrayValues.mk (if count = 0 then 0 else elements) rest).remaining.toInt := by
        rw [many]; exact natural
      obtain ⟨result, ran, converted⟩ := ArrayValues.collect_total fromSqlNullable _ still
      refine ⟨result, ran, fun items accepted => ?_⟩
      obtain ⟨values, drained, mapped⟩ := (converted items).mp accepted
      obtain ⟨_, again, filled⟩ := ArrayValues.drain_total _ still
      obtain rfl := Option.some.inj (drained.symm.trans again)
      exact ⟨dimensions, values, by omega, (filled values rfl).1.trans many, mapped⟩

end OpenGauss.Protocol.ArraySql
