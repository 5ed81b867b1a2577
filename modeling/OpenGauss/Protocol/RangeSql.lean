import OpenGauss.Protocol.SliceReads

/-! The codec of ranges (`opengauss-protocol`, `types/mod.rs`). -/

set_option autoImplicit false

namespace OpenGauss.Protocol.RangeSql

open Lib ArraySql

def rangeUpperUnbounded : UInt8 := 0b00010000
def rangeLowerUnbounded : UInt8 := 0b00001000
def rangeUpperInclusive : UInt8 := 0b00000100
def rangeLowerInclusive : UInt8 := 0b00000010
def rangeEmpty : UInt8 := 0b00000001

inductive RangeBound (Value : Type) where
  | inclusive (value : Value)
  | exclusive (value : Value)
  | unbounded
  deriving DecidableEq, Repr

namespace RangeBound

variable {Value Other : Type}

def map (f : Value → Other) : RangeBound Value → RangeBound Other
  | inclusive value => inclusive (f value)
  | exclusive value => exclusive (f value)
  | unbounded => unbounded

def value? : RangeBound Value → Option Value
  | inclusive value => some value
  | exclusive value => some value
  | unbounded => none

/-- The flags that a side sets in the tag. -/
def tag (inclusiveFlag unboundedFlag : UInt8) : RangeBound Value → UInt8
  | inclusive _ => inclusiveFlag
  | exclusive _ => 0
  | unbounded => unboundedFlag

end RangeBound

inductive Range where
  | empty
  | nonempty (lower upper : RangeBound (Option Bytes))
  deriving DecidableEq, Repr

/-! ### Serializing -/

/-- `FnOnce(&mut BytesMut) -> Result<RangeBound<IsNull>, _>`. -/
abbrev BoundWriter := Put BoxError (RangeBound IsNull)

/-- `BytesMut::truncate`. -/
def truncate (base : Nat) : Put BoxError Unit := modify (·.take base)

def emptyRangeToSql : Put BoxError Unit := putU8 rangeEmpty

/-- What becomes of the length field of a bound. -/
def finishBound (base : Nat) : Option IsNull → Put BoxError Unit
  | some null => do writeI32 base (← nullableSize base null)
  | none => truncate base

def writeBound (bound : BoundWriter) : Put BoxError (RangeBound Unit) := do
  let base ← len
  putI32 0
  let ret ← bound
  finishBound base ret.value?
  return ret.map fun _ => ()

def rangeToSql (lower upper : BoundWriter) : Put BoxError Unit := do
  let tagIdx ← len
  putU8 0
  let lower ← writeBound lower
  let upper ← writeBound upper
  Builder.patch tagIdx [lower.tag rangeLowerInclusive rangeLowerUnbounded |||
    upper.tag rangeUpperInclusive rangeUpperUnbounded]

/-! ### Deserializing -/

def readBound (tag unbounded inclusive : UInt8) : Slice (RangeBound (Option Bytes)) :=
  if tag &&& unbounded ≠ 0 then return .unbounded
  else do
    let value ← readNullable "invalid message size"
    return if tag &&& inclusive ≠ 0 then .inclusive value else .exclusive value

def parseRange : Slice Range := do
  let tag ← readU8
  if tag = rangeEmpty then do
    drained "invalid message size"
    return .empty
  else do
    let lower ← readBound tag rangeLowerUnbounded rangeLowerInclusive
    let upper ← readBound tag rangeUpperUnbounded rangeUpperInclusive
    drained "invalid message size"
    return .nonempty lower upper

def rangeFromSql (buf : Bytes) : Except BoxError Range := (parseRange buf).map Prod.fst

/-! ### What is written -/

def isNull : Option Bytes → IsNull
  | none => .yes
  | some _ => .no

def boundWire (bound : RangeBound (Option Bytes)) : Bytes := bound.value?.elim [] nullable

/-- The closure writes the value of this bound behind its length field, and nothing for
a NULL. What it writes for a side without a bound is up to it. -/
def Writes (writer : BoundWriter) (buf : Bytes) (bound : RangeBound (Option Bytes)) : Prop :=
  ∃ out, Builder.Ok writer (buf ++ be32 0) (bound.map isNull) (buf ++ be32 0 ++ out) ∧
    ∀ value ∈ bound.value?, out = value.getD []

/-- The tag of a range with these sides. -/
def rangeTag (lower upper : RangeBound (Option Bytes)) : UInt8 :=
  lower.tag rangeLowerInclusive rangeLowerUnbounded |||
    upper.tag rangeUpperInclusive rangeUpperUnbounded

theorem tag_map {Value Other : Type} (f : Value → Other) (inclusiveFlag unboundedFlag : UInt8)
    (bound : RangeBound Value) :
    (bound.map f).tag inclusiveFlag unboundedFlag = bound.tag inclusiveFlag unboundedFlag := by
  cases bound <;> rfl

theorem ok_truncate {base : Nat} {buf after : Bytes} {done : Unit} :
    Builder.Ok (truncate base) buf done after ↔ after = buf.take base := by
  change (Except.ok (), buf.take base) = (Except.ok done, after) ↔ _
  rw [Prod.mk.injEq, Except.ok.injEq, eq_comm, and_iff_right rfl, eq_comm]

theorem ok_finishBound {buf : Bytes} {bound : RangeBound (Option Bytes)} {out : Bytes}
    (written : ∀ value ∈ bound.value?, out = value.getD [])
    (fits : ∀ value ∈ bound.value?, FitsI32 value) :
    Builder.Ok (finishBound buf.length (bound.map isNull).value?) (buf ++ be32 0 ++ out) ()
      (buf ++ boundWire bound) := by
  have size : (buf ++ be32 0 ++ out).length - buf.length - 4 = out.length := by
    rw [List.length_append, List.length_append, be32_length]
    omega
  have value (bytes : Option Bytes) (isBound : bound.value? = some bytes) :
      Builder.Ok (finishBound buf.length (some (isNull bytes))) (buf ++ be32 0 ++ out) ()
        (buf ++ nullable bytes) := by
    have same := written bytes isBound
    have small := fits bytes isBound
    refine Builder.ok_bind.mpr ⟨_, _, ok_nullableSize.mpr ⟨fun _ => ?_, rfl, rfl⟩,
      ok_writeI32.mpr ?_⟩
    · rw [size, same]
      cases bytes with
      | none => decide
      | some bytes => exact small bytes rfl
    · rw [size, overwrite_be32, same]
      cases bytes with
      | none => exact (List.append_nil _).symm
      | some bytes =>
          rw [isNull, if_pos rfl, Option.getD_some, toNat_ofNat_of_lt (small bytes rfl),
            List.append_assoc]
          rfl
  cases bound with
  | inclusive bytes => exact value bytes rfl
  | exclusive bytes => exact value bytes rfl
  | unbounded =>
      have taken : buf ++ boundWire .unbounded = (buf ++ be32 0 ++ out).take buf.length := by
        rw [List.append_assoc, List.take_left]
        exact List.append_nil buf
      exact ok_truncate.mpr taken

theorem ok_writeBound {writer : BoundWriter} {buf : Bytes} {bound : RangeBound (Option Bytes)}
    (writes : Writes writer buf bound) (fits : ∀ value ∈ bound.value?, FitsI32 value) :
    Builder.Ok (writeBound writer) buf (bound.map fun _ => ()) (buf ++ boundWire bound) := by
  obtain ⟨out, ran, written⟩ := writes
  refine Builder.ok_bind.mpr ⟨_, _, ok_len.mpr ⟨rfl, rfl⟩, ?_⟩
  refine Builder.ok_bind.mpr ⟨(), _, ok_putI32.mpr rfl, ?_⟩
  refine Builder.ok_bind.mpr ⟨_, _, ran, ?_⟩
  refine Builder.ok_bind.mpr ⟨(), _, ok_finishBound written fits, Builder.ok_pure.mpr ⟨?_, rfl⟩⟩
  cases bound <;> rfl

/-- The bytes of a range: its tag, then its two sides. -/
def rangeWire (lower upper : RangeBound (Option Bytes)) : Bytes :=
  rangeTag lower upper :: (boundWire lower ++ boundWire upper)

theorem ok_rangeToSql {lower upper : BoundWriter} {buf : Bytes}
    {lowerBound upperBound : RangeBound (Option Bytes)}
    (writesLower : Writes lower (buf ++ [0]) lowerBound)
    (writesUpper : Writes upper (buf ++ [0] ++ boundWire lowerBound) upperBound)
    (fitsLower : ∀ value ∈ lowerBound.value?, FitsI32 value)
    (fitsUpper : ∀ value ∈ upperBound.value?, FitsI32 value) :
    Builder.Ok (rangeToSql lower upper) buf () (buf ++ rangeWire lowerBound upperBound) := by
  refine Builder.ok_bind.mpr ⟨_, _, ok_len.mpr ⟨rfl, rfl⟩, ?_⟩
  refine Builder.ok_bind.mpr ⟨(), _, ok_putU8.mpr rfl, ?_⟩
  refine Builder.ok_bind.mpr ⟨_, _, ok_writeBound writesLower fitsLower, ?_⟩
  refine Builder.ok_bind.mpr ⟨_, _, ok_writeBound writesUpper fitsUpper, ?_⟩
  have patched := Builder.overwrite_append buf [0] [rangeTag lowerBound upperBound]
    (boundWire lowerBound ++ boundWire upperBound) rfl
  rw [List.append_assoc buf [rangeTag lowerBound upperBound]] at patched
  rw [Builder.ok_patch, tag_map, tag_map, List.append_assoc (buf ++ [0])]
  exact patched.symm

/-! ### What is read -/

/-- A side stands in these bytes. -/
def BoundBytes (bound : RangeBound (Option Bytes)) (raw : Bytes) : Prop :=
  match bound.value? with
  | none => raw = []
  | some value => NullableBytes value raw

/-- A range stands in these bytes, up to their end. -/
def RangeBytes : Range → Bytes → Prop
  | .empty, raw => raw = [rangeEmpty]
  | .nonempty lower upper, raw => ∃ tag lowerRaw upperRaw, raw = tag :: (lowerRaw ++ upperRaw) ∧
      tag ≠ rangeEmpty ∧ BoundBytes lower lowerRaw ∧ BoundBytes upper upperRaw

theorem readBound_front {tag unbounded inclusive : UInt8} {buf rest : Bytes}
    {bound : RangeBound (Option Bytes)}
    (read : readBound tag unbounded inclusive buf = .ok (bound, rest)) :
    ∃ front, buf = front ++ rest ∧ BoundBytes bound front := by
  rw [readBound] at read
  split at read
  · obtain ⟨rfl, rfl⟩ := Prod.mk.inj (Except.ok.inj read)
    exact ⟨[], rfl, rfl⟩
  · obtain ⟨value, between, first, last⟩ := bind_eq_ok.mp read
    obtain ⟨rfl, rfl⟩ := Prod.mk.inj (Except.ok.inj last)
    obtain ⟨front, same, shape⟩ := readNullable_iff.mp first
    refine ⟨front, same, ?_⟩
    split
    · exact shape
    · exact shape

/-- The flags of the tag say what stands behind it. -/
theorem readBound_wire {tag unbounded inclusive : UInt8} {bound : RangeBound (Option Bytes)}
    (isUnbounded : tag &&& unbounded ≠ 0 ↔ bound = .unbounded)
    (isInclusive : tag &&& inclusive ≠ 0 ↔ ∃ value, bound = .inclusive value)
    (fits : ∀ value ∈ bound.value?, FitsI32 value) (rest : Bytes) :
    readBound tag unbounded inclusive (boundWire bound ++ rest) = .ok (bound, rest) := by
  have value (bytes : Option Bytes) (isBound : bound.value? = some bytes) :
      readNullable "invalid message size" (nullable bytes ++ rest) = .ok (bytes, rest) :=
    readNullable_iff.mpr ⟨_, rfl, nullableBytes_nullable (fits bytes isBound)⟩
  cases bound with
  | inclusive bytes =>
      have flag := isInclusive.mpr ⟨bytes, rfl⟩
      rw [readBound, if_neg fun flag => nomatch isUnbounded.mp flag]
      refine (bind_ran (value bytes rfl)).trans ?_
      rw [if_pos flag]
      rfl
  | exclusive bytes =>
      have noFlag : ¬tag &&& inclusive ≠ 0 := fun flag =>
        nomatch (isInclusive.mp flag).choose_spec
      rw [readBound, if_neg fun flag => nomatch isUnbounded.mp flag]
      refine (bind_ran (value bytes rfl)).trans ?_
      rw [if_neg noFlag]
      rfl
  | unbounded =>
      rw [readBound, if_pos (isUnbounded.mpr rfl)]
      rfl

theorem rangeTag_flags (lower upper : RangeBound (Option Bytes)) :
    rangeTag lower upper ≠ rangeEmpty ∧
      (rangeTag lower upper &&& rangeLowerUnbounded ≠ 0 ↔ lower = .unbounded) ∧
      (rangeTag lower upper &&& rangeLowerInclusive ≠ 0 ↔ ∃ value, lower = .inclusive value) ∧
      (rangeTag lower upper &&& rangeUpperUnbounded ≠ 0 ↔ upper = .unbounded) ∧
      (rangeTag lower upper &&& rangeUpperInclusive ≠ 0 ↔ ∃ value, upper = .inclusive value) := by
  cases lower <;> cases upper <;>
    simp [rangeTag, RangeBound.tag, rangeEmpty, rangeLowerUnbounded, rangeLowerInclusive,
      rangeUpperUnbounded, rangeUpperInclusive] <;>
    decide

theorem parseRange_wire {lower upper : RangeBound (Option Bytes)}
    (fitsLower : ∀ value ∈ lower.value?, FitsI32 value)
    (fitsUpper : ∀ value ∈ upper.value?, FitsI32 value) :
    parseRange (rangeWire lower upper) = .ok (.nonempty lower upper, []) := by
  obtain ⟨nonempty, lowerUnbounded, lowerInclusive, upperUnbounded, upperInclusive⟩ :=
    rangeTag_flags lower upper
  have first : readU8 (rangeWire lower upper) =
      .ok (rangeTag lower upper, boundWire lower ++ boundWire upper) := rfl
  have last := readBound_wire upperUnbounded upperInclusive fitsUpper []
  rw [List.append_nil] at last
  rw [parseRange, bind_ran first, if_neg nonempty,
    bind_ran (readBound_wire lowerUnbounded lowerInclusive fitsLower _), bind_ran last]
  rfl

theorem parseRange_front {raw rest : Bytes} {range : Range}
    (parsed : parseRange raw = .ok (range, rest)) : RangeBytes range raw := by
  obtain ⟨tag, between, first, sides⟩ := bind_eq_ok.mp parsed
  obtain rfl := readU8_front first
  by_cases empty : tag = rangeEmpty
  · rw [if_pos empty] at sides
    obtain ⟨_, _, ended, last⟩ := bind_eq_ok.mp sides
    obtain ⟨rfl, -⟩ := drained_ok.mp ended
    obtain ⟨rfl, -⟩ := Prod.mk.inj (Except.ok.inj last)
    exact congrArg (fun byte => [byte]) empty
  · rw [if_neg empty] at sides
    obtain ⟨lower, behind, readLower, sides⟩ := bind_eq_ok.mp sides
    obtain ⟨upper, tail, readUpper, sides⟩ := bind_eq_ok.mp sides
    obtain ⟨_, _, ended, last⟩ := bind_eq_ok.mp sides
    obtain ⟨rfl, -⟩ := drained_ok.mp ended
    obtain ⟨rfl, -⟩ := Prod.mk.inj (Except.ok.inj last)
    obtain ⟨lowerRaw, rfl, lowerShape⟩ := readBound_front readLower
    obtain ⟨upperRaw, same, upperShape⟩ := readBound_front readUpper
    rw [List.append_nil] at same
    exact ⟨tag, lowerRaw, upperRaw, by rw [same], empty, lowerShape, upperShape⟩

theorem rangeFromSql_front {raw : Bytes} {range : Range} (read : rangeFromSql raw = .ok range) :
    RangeBytes range raw := by
  rw [rangeFromSql] at read
  cases parsed : parseRange raw with
  | error error =>
      rw [parsed] at read
      cases read
  | ok found =>
      rw [parsed] at read
      obtain rfl := Except.ok.inj read
      exact parseRange_front parsed

/-- Both sides of a range are read back as they were written, behind anything, an empty
range is, and every byte string is an error or the bytes of one range up to its end. -/
theorem rangeFromSql_rangeToSql {lower upper : BoundWriter} {buf : Bytes}
    {lowerBound upperBound : RangeBound (Option Bytes)}
    (writesLower : Writes lower (buf ++ [0]) lowerBound)
    (writesUpper : Writes upper (buf ++ [0] ++ boundWire lowerBound) upperBound)
    (fitsLower : ∀ value ∈ lowerBound.value?, FitsI32 value)
    (fitsUpper : ∀ value ∈ upperBound.value?, FitsI32 value) :
    (∃ raw, Builder.Ok (rangeToSql lower upper) buf () (buf ++ raw) ∧
      rangeFromSql raw = .ok (.nonempty lowerBound upperBound)) ∧
    (∃ raw, Builder.Ok emptyRangeToSql buf () (buf ++ raw) ∧ rangeFromSql raw = .ok .empty) ∧
    ∀ raw, (∃ error, rangeFromSql raw = .error error) ∨
      ∃ range, rangeFromSql raw = .ok range ∧ RangeBytes range raw := by
  refine ⟨⟨_, ok_rangeToSql writesLower writesUpper fitsLower fitsUpper, ?_⟩,
    ⟨[rangeEmpty], ok_putU8.mpr rfl, rfl⟩, fun raw => ?_⟩
  · rw [rangeFromSql, parseRange_wire fitsLower fitsUpper]
    rfl
  · cases read : rangeFromSql raw with
    | error error => exact .inl ⟨error, rfl⟩
    | ok range => exact .inr ⟨range, rfl, rangeFromSql_front read⟩

/-! ### Closures of given bounds -/

/-- A closure that writes this bound, and a byte on a side without one. -/
def boundWriter (bound : RangeBound (Option Bytes)) : BoundWriter := do
  putSlice (bound.value?.elim [7] fun value => value.getD [])
  return bound.map isNull

theorem writes_boundWriter (bound : RangeBound (Option Bytes)) (buf : Bytes) :
    Writes (boundWriter bound) buf bound := by
  refine ⟨bound.value?.elim [7] fun value => value.getD [],
    Builder.ok_bind.mpr ⟨(), _, ok_putSlice.mpr rfl, Builder.ok_pure.mpr ⟨rfl, rfl⟩⟩, ?_⟩
  intro value isBound
  rw [Option.mem_def] at isBound
  rw [isBound]
  rfl

theorem rangeFromSql_rangeToSql_half :
    (∃ raw, Builder.Ok (rangeToSql (boundWriter (.inclusive (some [1, 2]))) (boundWriter .unbounded))
        [9] () ([9] ++ raw) ∧ rangeFromSql raw = .ok (.nonempty (.inclusive (some [1, 2])) .unbounded)) ∧
      (∃ raw, Builder.Ok emptyRangeToSql [9] () ([9] ++ raw) ∧ rangeFromSql raw = .ok .empty) ∧
      ∀ raw, (∃ error, rangeFromSql raw = .error error) ∨
        ∃ range, rangeFromSql raw = .ok range ∧ RangeBytes range raw :=
  rangeFromSql_rangeToSql (writes_boundWriter _ _) (writes_boundWriter _ _)
    (fun value same bytes isBytes => by
      cases same
      cases isBytes
      decide)
    fun value same => nomatch same

end OpenGauss.Protocol.RangeSql
