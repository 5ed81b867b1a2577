import OpenGauss.Protocol.Put

/-! The array codec (`opengauss-protocol`, `types/mod.rs`) and its use in
`opengauss-types`. Slices and machine arithmetic are checked: `none` is a
panic. -/

set_option autoImplicit false

namespace OpenGauss.Protocol.ArraySql

open Lib

structure ArrayDimension where
  len : Int32
  lowerBound : Int32
  deriving DecidableEq, Repr

/-! ### Serializing -/

/-- The loop over the dimensions, with its count. -/
def writeDimensions (dimensions : List ArrayDimension) : Put BoxError Nat :=
  dimensions.foldlM (fun numDimensions dimension => do
    putI32 dimension.len
    putI32 dimension.lowerBound
    return numDimensions + 1) 0

/-- The closure around the serializer, which notes in `has_nulls` a null. -/
def noteNulls {Captured Item : Type} (serializer : Serializer Captured Item IsNull BoxError) :
    Serializer (Captured × Bool) Item IsNull BoxError :=
  fun (captured, hasNulls) element => do
    let (isNull, captured) ← serializer captured element
    return (isNull, (captured, hasNulls || isNull = .yes))

def arrayToSql {Captured Item : Type} (dimensions : List ArrayDimension) (elementType : UInt32)
    (elements : List Item) (serializer : Serializer Captured Item IsNull BoxError) (captured : Captured) :
    Put BoxError Unit := do
  let dimensionsIdx ← len
  putI32 0
  let flagsIdx ← len
  putI32 0
  putU32 elementType
  let numDimensions ← writeDimensions dimensions
  let numDimensions ← i32FromUsize numDimensions
  writeI32 dimensionsIdx numDimensions
  let (_, hasNulls) ← elements.foldlM
    (fun captured element => writeNullable (noteNulls serializer captured element)) (captured, false)
  writeI32 flagsIdx (if hasNulls then 1 else 0)

/-! ### Deserializing -/

/-- Reading from the front of a `&[u8]`. -/
abbrev Slice (Value : Type) := StateT Bytes (Except BoxError) Value

def fail {Value : Type} (message : String) : Slice Value := fun _ => .error (.text message)

def readExact (count : Nat) : Slice Bytes := fun buf =>
  if buf.length < count then .error (.io fillWholeBuffer)
  else .ok (buf.take count, buf.drop count)

def readU32 : Slice UInt32 := do
  return UInt32.ofNat (beNat (← readExact 4))

def readI32 : Slice Int32 := do
  return (← readU32).toInt32

/-- `i32::checked_mul`. -/
def checkedMul (left right : Int32) : Option Int32 :=
  let product := left.toInt * right.toInt
  if -2 ^ 31 ≤ product ∧ product < 2 ^ 31 then some (Int32.ofInt product) else none

/-- The loop that multiplies up the dimensions. -/
def countElements : Nat → Int32 → Slice Int32
  | 0, elements => return elements
  | count + 1, elements => do
      let len ← readI32
      if len < 0 then fail "invalid dimension size"
      else
        let _lowerBound ← readI32
        match checkedMul elements len with
        | some elements => countElements count elements
        | none => fail "too many array elements"

structure Array where
  dimensions : Int32
  hasNulls : Bool
  elementType : UInt32
  elements : Int32
  buf : Bytes
  deriving DecidableEq, Repr

/-- What `array_from_sql` reads; the dimensions are read on a copy of the slice. -/
def parseArray : Slice Array := do
  let dimensions ← readI32
  if dimensions < 0 then fail "invalid dimension count"
  else
    let hasNulls := (← readI32) ≠ 0
    let elementType ← readU32
    let buf ← get
    let elements ← countElements dimensions.toNatClampNeg 1
    let elements := if dimensions = 0 then 0 else elements
    return { dimensions, hasNulls, elementType, elements, buf }

def arrayFromSql (buf : Bytes) : Except BoxError Array := (parseArray buf).map Prod.fst

/-- `none` is a panic. -/
abbrev Checked (Value : Type) := ExceptT BoxError Option Value

/-- `value as usize`, of 64 bits. -/
def asUsize (value : Int32) : Nat := (value.toInt % 2 ^ 64).toNat

def checkedUsize (value : Nat) : Option Nat := if value < 2 ^ 64 then some value else none

/-- `&buf[..stop]`. -/
def sliceTo? (buf : Bytes) (stop : Nat) : Option Bytes :=
  if stop ≤ buf.length then some (buf.take stop) else none

/-- `&buf[start..]`. -/
def sliceFrom? (buf : Bytes) (start : Nat) : Option Bytes :=
  if start ≤ buf.length then some (buf.drop start) else none

/-- `ArrayDimensions`, by its bytes. -/
def Array.arrayDimensions (self : Array) : Option Bytes := do
  sliceTo? self.buf (← checkedUsize (asUsize self.dimensions * 8))

structure ArrayValues where
  remaining : Int32
  buf : Bytes
  deriving DecidableEq, Repr

def Array.values (self : Array) : Option ArrayValues := do
  let buf ← sliceFrom? self.buf (← checkedUsize (asUsize self.dimensions * 8))
  return { remaining := self.elements, buf }

/-- `ArrayDimensions::next`. -/
def nextDimension (buf : Bytes) : Except BoxError (Option (ArrayDimension × Bytes)) :=
  if buf = [] then .ok none
  else do
    let (len, buf) ← readI32 buf
    let (lowerBound, buf) ← readI32 buf
    return some (⟨len, lowerBound⟩, buf)

/-- `value - 1`, which overflows at the least value. -/
def checkedPred (value : Int32) : Option Int32 :=
  if value.toInt = -2 ^ 31 then none else some (value - 1)

/-- `ArrayValues::next`. -/
def ArrayValues.next (self : ArrayValues) : Checked (Option (Option Bytes × ArrayValues)) :=
  if self.remaining = 0 then
    if self.buf ≠ [] then throw (.text "invalid message length: arrayvalue not drained")
    else return none
  else do
    let remaining ← (checkedPred self.remaining : Option Int32)
    let (len, buf) ← ExceptT.mk (some (readI32 self.buf))
    if len < 0 then return some (none, { remaining, buf })
    else if asUsize len ≤ buf.length then
      return some (some (buf.take (asUsize len)), { remaining, buf := buf.drop (asUsize len) })
    else throw (.text "invalid value length")

/-! ### Draining the iterators -/

theorem readI32_eq (buf : Bytes) : readI32 buf =
    if buf.length < 4 then .error (.io fillWholeBuffer)
    else .ok ((UInt32.ofNat (beNat (buf.take 4))).toInt32, buf.drop 4) := by
  by_cases short : buf.length < 4
  · simp only [readI32, readU32, readExact, bind, StateT.bind, Except.bind, if_pos short]
  · simp only [readI32, readU32, readExact, bind, StateT.bind, Except.bind, if_neg short]
    rfl

theorem readI32_ok {buf rest : Bytes} {value : Int32} (read : readI32 buf = .ok (value, rest)) :
    4 ≤ buf.length ∧ rest = buf.drop 4 := by
  rw [readI32_eq] at read
  split at read
  · cases read
  · obtain ⟨-, rfl⟩ := Prod.mk.inj (Except.ok.inj read)
    exact ⟨by omega, rfl⟩

theorem nextDimension_shorter {buf rest : Bytes} {dimension : ArrayDimension}
    (step : nextDimension buf = .ok (some (dimension, rest))) : buf.length = rest.length + 8 := by
  rw [nextDimension] at step
  split at step
  · cases step
  · cases first : readI32 buf with
    | error error => rw [first] at step; cases step
    | ok found =>
      obtain ⟨len, between⟩ := found
      rw [first] at step
      cases second : readI32 between with
      | error error =>
        change (readI32 between >>= _) = _ at step
        rw [second] at step
        cases step
      | ok found =>
        obtain ⟨lowerBound, tail⟩ := found
        change (readI32 between >>= _) = _ at step
        rw [second] at step
        obtain ⟨-, rfl⟩ := Prod.mk.inj (Option.some.inj (Except.ok.inj step))
        obtain ⟨long, rfl⟩ := readI32_ok first
        obtain ⟨longer, rfl⟩ := readI32_ok second
        simp only [List.length_drop] at longer ⊢
        omega

/-- `dimensions().collect()`. -/
def drainDimensions (buf : Bytes) : Except BoxError (List ArrayDimension) :=
  match _ : nextDimension buf with
  | .error error => .error error
  | .ok none => .ok []
  | .ok (some (dimension, rest)) => (drainDimensions rest).map (dimension :: ·)
termination_by buf.length
decreasing_by
  rename_i step
  have shorter := nextDimension_shorter step
  omega

theorem ArrayValues.next_shorter {self rest : ArrayValues} {value : Option Bytes}
    (step : self.next.run = some (.ok (some (value, rest)))) : rest.buf.length < self.buf.length := by
  rw [ArrayValues.next] at step
  split at step
  · split at step <;> cases step
  · cases decremented : checkedPred self.remaining with
    | none => rw [decremented] at step; cases step
    | some remaining =>
      rw [decremented] at step
      cases read : readI32 self.buf with
      | error error => rw [read] at step; cases step
      | ok found =>
        obtain ⟨len, buf⟩ := found
        obtain ⟨long, same⟩ := readI32_ok read
        rw [read] at step
        have shorter : buf.length < self.buf.length := by
          rw [same, List.length_drop]
          omega
        change (if len < 0 then _ else _ : Checked _).run = _ at step
        split at step
        · cases step
          exact shorter
        · split at step
          · cases step
            change (buf.drop (asUsize len)).length < _
            rw [List.length_drop]
            omega
          · cases step

/-- `values().map(f).collect()`. -/
def ArrayValues.collect {Value : Type} (f : Option Bytes → Except BoxError Value) (self : ArrayValues) :
    Checked (List Value) :=
  match _ : self.next.run with
  | none => ExceptT.mk none
  | some (.error error) => throw error
  | some (.ok none) => return []
  | some (.ok (some (value, rest))) => do
      let item ← ExceptT.mk (some (f value))
      return item :: (← rest.collect f)
termination_by self.buf.length
decreasing_by
  rename_i step
  exact ArrayValues.next_shorter step

/-- `values().collect()`. -/
def ArrayValues.drain (self : ArrayValues) : Checked (List (Option Bytes)) := self.collect .ok

/-- `Vec<T>::from_sql`, for an array type; the parameter is `T::from_sql_nullable`. -/
def vecFromSql {Value : Type} (fromSqlNullable : Option Bytes → Except BoxError Value) (raw : Bytes) :
    Checked (List Value) := do
  let array ← ExceptT.mk (some (arrayFromSql raw))
  let dimensions ← (array.arrayDimensions : Option Bytes)
  let dimensions ← ExceptT.mk (some (drainDimensions dimensions))
  if 1 < dimensions.length then throw (.text "array contains too many dimensions")
  else
    let values ← (array.values : Option ArrayValues)
    values.collect fromSqlNullable

end OpenGauss.Protocol.ArraySql
