import OpenGauss.Protocol.ArraySqlProperties

/-! Reading from the front of a slice, with checked splits: bytes, the end of the
slice, and values behind their length. -/

set_option autoImplicit false

namespace OpenGauss.Protocol

open ArraySql

/-- `read_u8`. -/
def readU8 : Slice UInt8
  | [] => .error (.io fillWholeBuffer)
  | byte :: rest => .ok (byte, rest)

/-- `split_at_checked`, and this error if it answers nothing. -/
def splitAtChecked (message : String) (mid : Nat) : Slice Bytes := fun buf =>
  if mid ≤ buf.length then .ok (buf.take mid, buf.drop mid) else .error (.text message)

/-- The check that nothing is left. -/
def drained (message : String) : Slice Unit := fun buf =>
  if buf = [] then .ok ((), []) else .error (.text message)

/-- A value behind its length; a negative length stands for a NULL. -/
def readNullable (message : String) : Slice (Option Bytes) := do
  let len ← readI32
  if len < 0 then return none
  else return some (← splitAtChecked message (asUsize len))

inductive NullableBytes : Option Bytes → Bytes → Prop where
  | null {len : Int32} (negative : len < 0) : NullableBytes none (i32Wire len)
  | value {bytes : Bytes} (fits : bytes.length < 2 ^ 31) :
      NullableBytes (some bytes) (be32 bytes.length ++ bytes)

theorem asUsize_of_nonnegative {len : Int32} (nonnegative : 0 ≤ len.toInt) :
    asUsize len = len.toInt.toNat := by
  have small := len.toInt_lt
  rw [asUsize]
  omega

theorem i32Wire_ofNat {length : Nat} (fits : length < 2 ^ 31) :
    i32Wire (Int32.ofNat length) = be32 length := by
  rw [i32Wire, toNat_ofNat_of_lt fits]

/-- A length that is not negative is that of the value behind it. -/
theorem exists_length {len : Int32} (nonnegative : 0 ≤ len.toInt) :
    ∃ length, length < 2 ^ 31 ∧ len = Int32.ofNat length ∧ asUsize len = length := by
  have small := len.toInt_lt
  refine ⟨len.toInt.toNat, by omega, ?_, asUsize_of_nonnegative nonnegative⟩
  rw [← Int32.toInt_inj, Int32.toInt_ofNat_of_lt (by omega)]
  omega

theorem ofNat_nonnegative {length : Nat} (fits : length < 2 ^ 31) :
    ¬Int32.ofNat length < 0 ∧ asUsize (Int32.ofNat length) = length := by
  have same := Int32.toInt_ofNat_of_lt fits
  have nonnegative : 0 ≤ (Int32.ofNat length).toInt := by omega
  refine ⟨not_negative.mpr nonnegative, ?_⟩
  rw [asUsize_of_nonnegative nonnegative, same]
  rfl

theorem splitAtChecked_append (message : String) (bytes rest : Bytes) :
    splitAtChecked message bytes.length (bytes ++ rest) = .ok (bytes, rest) := by
  have within : bytes.length ≤ (bytes ++ rest).length := by
    rw [List.length_append]
    exact Nat.le_add_right ..
  rw [splitAtChecked, if_pos within, List.take_left, List.drop_left]

theorem splitAtChecked_front {message : String} {mid : Nat} {buf bytes rest : Bytes}
    (split : splitAtChecked message mid buf = .ok (bytes, rest)) :
    buf = bytes ++ rest ∧ bytes.length = mid := by
  rw [splitAtChecked] at split
  by_cases within : mid ≤ buf.length
  · rw [if_pos within] at split
    obtain ⟨rfl, rfl⟩ := Prod.mk.inj (Except.ok.inj split)
    exact ⟨(List.take_append_drop mid buf).symm, List.length_take_of_le within⟩
  · rw [if_neg within] at split
    cases split

theorem readU8_front {buf rest : Bytes} {byte : UInt8} (read : readU8 buf = .ok (byte, rest)) :
    buf = byte :: rest := by
  cases buf with
  | nil => cases read
  | cons first others =>
      obtain ⟨rfl, rfl⟩ := Prod.mk.inj (Except.ok.inj read)
      rfl

theorem drained_ok {message : String} {buf rest : Bytes} {done : Unit} :
    drained message buf = .ok (done, rest) ↔ buf = [] ∧ rest = [] := by
  rw [drained]
  split
  · next empty => exact ⟨fun same => ⟨empty, (Prod.mk.inj (Except.ok.inj same)).2.symm⟩,
      fun both => by rw [both.2]⟩
  · next more => exact ⟨fun same => (by cases same), fun both => absurd both.1 more⟩

/-- Reading a value takes exactly its bytes. -/
theorem readNullable_iff {message : String} {buf rest : Bytes} {value : Option Bytes} :
    readNullable message buf = .ok (value, rest) ↔
      ∃ front, buf = front ++ rest ∧ NullableBytes value front := by
  constructor
  · intro read
    obtain ⟨len, between, first, second⟩ := bind_eq_ok.mp read
    obtain rfl := readI32_front first
    by_cases negative : len < 0
    · rw [if_pos negative] at second
      obtain ⟨rfl, rfl⟩ := Prod.mk.inj (Except.ok.inj second)
      exact ⟨i32Wire len, rfl, .null negative⟩
    · rw [if_neg negative] at second
      obtain ⟨bytes, tail, split, last⟩ := bind_eq_ok.mp second
      obtain ⟨rfl, rfl⟩ := Prod.mk.inj (Except.ok.inj last)
      obtain ⟨length, small, rfl, size⟩ := exists_length (not_negative.mp negative)
      obtain ⟨rfl, long⟩ := splitAtChecked_front split
      rw [size] at long
      subst long
      refine ⟨be32 bytes.length ++ bytes, ?_, .value small⟩
      rw [i32Wire_ofNat small, List.append_assoc]
  · intro written
    obtain ⟨front, rfl, shape⟩ := written
    cases shape with
    | @null len negative =>
        rw [readNullable, bind_ran (readI32_wire len rest), if_pos negative]
        rfl
    | @value bytes fits =>
        obtain ⟨natural, size⟩ := ofNat_nonnegative fits
        rw [← i32Wire_ofNat fits, List.append_assoc, readNullable,
          bind_ran (readI32_wire _ _), if_neg natural, size,
          bind_ran (splitAtChecked_append message bytes rest)]
        rfl

theorem nullableBytes_nullable {value : Option Bytes} (fits : FitsI32 value) :
    NullableBytes value (nullable value) := by
  cases value with
  | none => exact @NullableBytes.null (-1) (by decide)
  | some bytes => exact .value (fits bytes rfl)

/-! ### Counting down -/

theorem ofNat_succ_ne_zero {count : Nat} (small : count + 1 < 2 ^ 31) :
    Int32.ofNat (count + 1) ≠ 0 := by
  intro zero
  have number := Int32.toInt_ofNat_of_lt small
  rw [zero, Int32.toInt_zero] at number
  omega

theorem checkedPred_succ {count : Nat} (small : count + 1 < 2 ^ 31) :
    checkedPred (Int32.ofNat (count + 1)) = some (Int32.ofNat count) := by
  have number := Int32.toInt_ofNat_of_lt small
  have positive : 0 < (Int32.ofNat (count + 1)).toInt := by omega
  obtain ⟨less, decremented, value⟩ := checkedPred_of_positive positive
  have same : less = Int32.ofNat count := by
    rw [← Int32.toInt_inj, value, number, Int32.toInt_ofNat_of_lt (by omega)]
    omega
  rw [decremented, same]

/-! ### Computations that can panic -/

section

variable {First Second : Type} {first : Checked First} {next : First → Checked Second}

theorem checked_bind_ok {result : Second} :
    (first >>= next).run = some (.ok result) ↔
      ∃ value, first.run = some (.ok value) ∧ (next value).run = some (.ok result) := by
  cases ran : first.run with
  | none =>
      obtain rfl : first = ExceptT.mk none := ran
      exact ⟨fun panics => (by cases panics), fun found => (nomatch found.choose_spec.1)⟩
  | some outcome =>
      obtain rfl : first = ExceptT.mk (some outcome) := ran
      cases outcome with
      | error error =>
          exact ⟨fun fails => (by cases fails), fun found => (nomatch found.choose_spec.1)⟩
      | ok value =>
          rw [checked_ok]
          constructor
          · exact fun more => ⟨value, rfl, more⟩
          · intro found
            obtain ⟨other, same, more⟩ := found
            cases same
            exact more

theorem checked_bind_none :
    (first >>= next).run = none ↔
      first.run = none ∨ ∃ value, first.run = some (.ok value) ∧ (next value).run = none := by
  cases ran : first.run with
  | none =>
      obtain rfl : first = ExceptT.mk none := ran
      exact ⟨fun _ => .inl rfl, fun _ => rfl⟩
  | some outcome =>
      obtain rfl : first = ExceptT.mk (some outcome) := ran
      cases outcome with
      | error error =>
          refine iff_of_false (fun panics => (by cases panics)) fun panics => ?_
          cases panics with
          | inl same => cases same
          | inr found => exact nomatch found.choose_spec.1
      | ok value =>
          rw [checked_ok]
          constructor
          · exact fun panics => .inr ⟨value, rfl, panics⟩
          · intro panics
            cases panics with
            | inl same => cases same
            | inr found =>
                obtain ⟨other, same, panics⟩ := found
                cases same
                exact panics

end

end OpenGauss.Protocol
