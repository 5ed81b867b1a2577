import OpenGauss.Lib.FallibleIterator
import OpenGauss.Lib.Utf8
import OpenGauss.Protocol.SliceReads

/-! The codec of HSTORE (`opengauss-protocol`, `types/mod.rs`) and the map that
`opengauss-types` reads with it. -/

set_option autoImplicit false

namespace OpenGauss.Protocol.HstoreSql

open Lib ArraySql

abbrev Text := List Char

/-- A key, and its value unless that is missing. -/
abbrev Entry := Text × Option Text

/-! ### Serializing -/

def writePascalString (s : Text) : Put BoxError Unit := do
  let size ← i32FromUsize (Utf8.encode s).length
  putI32 size
  putSlice (Utf8.encode s)

def writeValue : Option Text → Put BoxError Unit
  | some value => writePascalString value
  | none => putI32 (-1)

/-- The loop over the entries, with its count. -/
def writeEntries (values : List Entry) : Put BoxError Nat :=
  values.foldlM (fun count entry => do
    writePascalString entry.1
    writeValue entry.2
    return count + 1) 0

def hstoreToSql (values : List Entry) : Put BoxError Unit := do
  let base ← len
  putI32 0
  let count ← writeEntries values
  let count ← i32FromUsize count
  writeI32 base count

/-! ### Deserializing -/

structure HstoreEntries where
  remaining : Int32
  buf : Bytes
  deriving DecidableEq, Repr

def hstoreFromSql (buf : Bytes) : Except BoxError HstoreEntries := do
  let (count, buf) ← readI32 buf
  if count < 0 then .error (.text "invalid entry count") else return { remaining := count, buf }

/-- `split_at`; `none` is a panic. -/
def splitAt? (buf : Bytes) (mid : Nat) : Option (Bytes × Bytes) :=
  if mid ≤ buf.length then some (buf.take mid, buf.drop mid) else none

/-- `str::from_utf8` of what is split off. -/
def readStr (len : Int32) (buf : Bytes) : Checked (Text × Bytes) := do
  let (raw, buf) ← (splitAt? buf (asUsize len) : Option (Bytes × Bytes))
  match Utf8.decode? raw with
  | some text => return (text, buf)
  | none => throw (.text "invalid utf-8")

def readValue (buf : Bytes) : Checked (Option Text × Bytes) := do
  let (valueLen, buf) ← ExceptT.mk (some (readI32 buf))
  if valueLen < 0 then return (none, buf)
  else do
    let (value, buf) ← readStr valueLen buf
    return (some value, buf)

def readEntry (buf : Bytes) : Checked (Entry × Bytes) := do
  let (keyLen, buf) ← ExceptT.mk (some (readI32 buf))
  if keyLen < 0 then throw (.text "invalid key length")
  else do
    let (key, buf) ← readStr keyLen buf
    let (value, buf) ← readValue buf
    return ((key, value), buf)

namespace HstoreEntries

def next (self : HstoreEntries) : Checked (Option (Entry × HstoreEntries)) :=
  if self.remaining = 0 then
    if self.buf ≠ [] then throw (.text "invalid buffer size") else return none
  else do
    let remaining ← (checkedPred self.remaining : Option Int32)
    let read ← readEntry self.buf
    return some (read.1, { remaining, buf := read.2 })

end HstoreEntries

/-! ### The bytes of entries -/

/-- A text behind its length. -/
def pascal (text : Text) : Bytes := be32 (Utf8.encode text).length ++ Utf8.encode text

def FitsText (text : Text) : Prop := (Utf8.encode text).length < 2 ^ 31

instance (text : Text) : Decidable (FitsText text) :=
  inferInstanceAs (Decidable ((Utf8.encode text).length < 2 ^ 31))

inductive ValueBytes : Option Text → Bytes → Prop where
  | missing {len : Int32} (negative : len < 0) : ValueBytes none (i32Wire len)
  | text {value : Text} (fits : FitsText value) : ValueBytes (some value) (pascal value)

inductive EntryBytes : Entry → Bytes → Prop where
  | mk {key : Text} {value : Option Text} {raw : Bytes} (fits : FitsText key)
      (valueBytes : ValueBytes value raw) : EntryBytes (key, value) (pascal key ++ raw)

inductive EntriesBytes : List Entry → Bytes → Prop where
  | nil : EntriesBytes [] []
  | cons {entry : Entry} {entries : List Entry} {front rest : Bytes} (first : EntryBytes entry front)
      (others : EntriesBytes entries rest) : EntriesBytes (entry :: entries) (front ++ rest)

/-- A length that is greater than what is left behind it: that of a key, or that of
the value behind a whole key. -/
inductive Overrun : Bytes → Prop where
  | key {len : Int32} {rest : Bytes} (nonnegative : 0 ≤ len.toInt)
      (long : (rest.length : Int) < len.toInt) : Overrun (i32Wire len ++ rest)
  | value {key : Text} {len : Int32} {rest : Bytes} (fits : FitsText key)
      (nonnegative : 0 ≤ len.toInt) (long : (rest.length : Int) < len.toInt) :
      Overrun (pascal key ++ (i32Wire len ++ rest))

theorem pascal_eq {text : Text} (fits : FitsText text) (rest : Bytes) :
    pascal text ++ rest =
      i32Wire (Int32.ofNat (Utf8.encode text).length) ++ (Utf8.encode text ++ rest) := by
  rw [pascal, i32Wire_ofNat fits, List.append_assoc]

theorem readStr_ok {len : Int32} {buf rest : Bytes} {text : Text} (nonnegative : 0 ≤ len.toInt)
    (read : (readStr len buf).run = some (.ok (text, rest))) :
    FitsText text ∧ i32Wire len ++ buf = pascal text ++ rest := by
  obtain ⟨length, small, rfl, size⟩ := exists_length nonnegative
  obtain ⟨split, cut, decoded⟩ := checked_bind_ok.mp read
  rw [size, splitAt?] at cut
  by_cases within : length ≤ buf.length
  · rw [if_pos within] at cut
    cases cut
    cases utf8 : Utf8.decode? (buf.take length) with
    | none =>
        dsimp only at decoded
        rw [utf8] at decoded
        cases decoded
    | some found =>
        dsimp only at decoded
        rw [utf8] at decoded
        cases decoded
        have raw := Utf8.encode_of_decode? utf8
        have long : (Utf8.encode text).length = length := by
          rw [raw, List.length_take_of_le within]
        have fits : FitsText text := Nat.lt_of_le_of_lt (Nat.le_of_eq long) small
        refine ⟨fits, ?_⟩
        rw [pascal_eq fits, long, raw, List.take_append_drop]
  · rw [if_neg within] at cut
    cases cut

theorem readStr_text {text : Text} (fits : FitsText text) (rest : Bytes) :
    readStr (Int32.ofNat (Utf8.encode text).length) (Utf8.encode text ++ rest) =
      return (text, rest) := by
  have within : (Utf8.encode text).length ≤ (Utf8.encode text ++ rest).length := by
    rw [List.length_append]
    exact Nat.le_add_right ..
  rw [readStr, (ofNat_nonnegative fits).2, splitAt?, if_pos within, checked_lift, List.take_left,
    List.drop_left]
  dsimp only
  rw [Utf8.decode?_encode]

theorem readStr_none_iff {len : Int32} (nonnegative : 0 ≤ len.toInt) (buf : Bytes) :
    (readStr len buf).run = none ↔ (buf.length : Int) < len.toInt := by
  obtain ⟨length, small, rfl, size⟩ := exists_length nonnegative
  have number : (Int32.ofNat length).toInt = length := Int32.toInt_ofNat_of_lt small
  rw [readStr, size, number, splitAt?]
  by_cases within : length ≤ buf.length
  · rw [if_pos within, checked_lift]
    refine iff_of_false ?_ (by omega)
    dsimp only
    cases Utf8.decode? (buf.take length) with
    | none => exact fun panics => (by cases panics)
    | some text => exact fun panics => (by cases panics)
  · rw [if_neg within]
    exact iff_of_true rfl (by omega)

theorem readValue_ok_iff {buf rest : Bytes} {value : Option Text} :
    (readValue buf).run = some (.ok (value, rest)) ↔
      ∃ front, buf = front ++ rest ∧ ValueBytes value front := by
  constructor
  · intro read
    obtain ⟨⟨len, between⟩, first, second⟩ := checked_bind_ok.mp read
    obtain rfl := readI32_front (Option.some.inj first)
    by_cases negative : len < 0
    · dsimp only at second
      rw [if_pos negative] at second
      cases second
      exact ⟨i32Wire len, rfl, .missing negative⟩
    · dsimp only at second
      rw [if_neg negative] at second
      obtain ⟨⟨text, tail⟩, third, last⟩ := checked_bind_ok.mp second
      cases last
      obtain ⟨fits, same⟩ := readStr_ok (not_negative.mp negative) third
      exact ⟨pascal text, same, .text fits⟩
  · intro written
    obtain ⟨front, rfl, shape⟩ := written
    cases shape with
    | @missing len negative =>
        rw [readValue, readI32_wire, checked_ok]
        dsimp only
        rw [if_pos negative]
        rfl
    | @text value fits =>
        rw [readValue, pascal_eq fits, readI32_wire, checked_ok]
        dsimp only
        rw [if_neg (ofNat_nonnegative fits).1, readStr_text fits]
        rfl

theorem readI32_bind_none {buf : Bytes} {Value : Type} {next : Int32 × Bytes → Checked Value} :
    (ExceptT.mk (some (readI32 buf)) >>= next).run = none ↔
      ∃ len rest, buf = i32Wire len ++ rest ∧ (next (len, rest)).run = none := by
  rw [checked_bind_none]
  constructor
  · intro panics
    cases panics with
    | inl same => cases same
    | inr found =>
        obtain ⟨⟨len, rest⟩, read, panics⟩ := found
        exact ⟨len, rest, readI32_front (Option.some.inj read), panics⟩
  · intro found
    obtain ⟨len, rest, rfl, panics⟩ := found
    exact .inr ⟨(len, rest), congrArg some (readI32_wire len rest), panics⟩

theorem readValue_none_iff {buf : Bytes} :
    (readValue buf).run = none ↔ ∃ len rest, buf = i32Wire len ++ rest ∧
      0 ≤ len.toInt ∧ (rest.length : Int) < len.toInt := by
  rw [readValue, readI32_bind_none]
  refine exists_congr fun len => exists_congr fun rest => and_congr_right fun _ => ?_
  dsimp only
  by_cases negative : len < 0
  · rw [if_pos negative]
    refine iff_of_false (fun panics => (by cases panics)) fun beyond => ?_
    exact not_negative.mpr beyond.1 negative
  · have nonnegative := not_negative.mp negative
    rw [if_neg negative, checked_bind_none, readStr_none_iff nonnegative, and_iff_right nonnegative]
    refine or_iff_left fun found => ?_
    obtain ⟨_, _, panics⟩ := found
    cases panics

theorem readEntry_ok_iff {buf rest : Bytes} {entry : Entry} :
    (readEntry buf).run = some (.ok (entry, rest)) ↔
      ∃ front, buf = front ++ rest ∧ EntryBytes entry front := by
  constructor
  · intro read
    obtain ⟨⟨len, between⟩, first, second⟩ := checked_bind_ok.mp read
    obtain rfl := readI32_front (Option.some.inj first)
    dsimp only at second
    by_cases negative : len < 0
    · rw [if_pos negative] at second
      cases second
    · rw [if_neg negative] at second
      obtain ⟨⟨key, behind⟩, third, fourth⟩ := checked_bind_ok.mp second
      obtain ⟨⟨value, tail⟩, fifth, last⟩ := checked_bind_ok.mp fourth
      cases last
      obtain ⟨fits, same⟩ := readStr_ok (not_negative.mp negative) third
      obtain ⟨front, rfl, shape⟩ := readValue_ok_iff.mp fifth
      exact ⟨pascal key ++ front, by rw [same, List.append_assoc], .mk fits shape⟩
  · intro written
    obtain ⟨front, rfl, shape⟩ := written
    obtain ⟨fits, valueBytes⟩ := shape
    have value := (@readValue_ok_iff (_ ++ rest) rest _).mpr ⟨_, rfl, valueBytes⟩
    rw [List.append_assoc, readEntry, pascal_eq fits, readI32_wire, checked_ok]
    dsimp only
    rw [if_neg (ofNat_nonnegative fits).1, readStr_text fits]
    exact checked_bind_ok.mpr ⟨_, rfl, checked_bind_ok.mpr ⟨_, value, rfl⟩⟩

theorem readEntry_none_iff {buf : Bytes} : (readEntry buf).run = none ↔ Overrun buf := by
  rw [readEntry, readI32_bind_none]
  constructor
  · intro panics
    obtain ⟨len, rest, rfl, panics⟩ := panics
    dsimp only at panics
    by_cases negative : len < 0
    · rw [if_pos negative] at panics
      cases panics
    · have nonnegative := not_negative.mp negative
      rw [if_neg negative] at panics
      cases checked_bind_none.mp panics with
      | inl key => exact .key nonnegative ((readStr_none_iff nonnegative rest).mp key)
      | inr found =>
          obtain ⟨⟨key, behind⟩, read, panics⟩ := found
          obtain ⟨fits, same⟩ := readStr_ok nonnegative read
          cases checked_bind_none.mp panics with
          | inl value =>
              obtain ⟨length, tail, rfl, natural, long⟩ := readValue_none_iff.mp value
              rw [same]
              exact .value fits natural long
          | inr found =>
              obtain ⟨_, _, panics⟩ := found
              cases panics
  · intro overrun
    cases overrun with
    | @key len rest nonnegative long =>
        refine ⟨len, rest, rfl, ?_⟩
        dsimp only
        rw [if_neg (not_negative.mpr nonnegative)]
        exact checked_bind_none.mpr (.inl ((readStr_none_iff nonnegative rest).mpr long))
    | @value key len rest fits nonnegative long =>
        refine ⟨_, _, pascal_eq fits _, ?_⟩
        dsimp only
        rw [if_neg (ofNat_nonnegative fits).1, readStr_text fits]
        refine checked_bind_none.mpr (.inr ⟨_, rfl, checked_bind_none.mpr (.inl ?_)⟩)
        exact readValue_none_iff.mpr ⟨len, rest, rfl, nonnegative, long⟩

end OpenGauss.Protocol.HstoreSql
