import OpenGauss.Types.Int64Sql

/-! Timestamps of `SystemTime` (`opengauss-types`, `lib.rs`), on a platform that counts its
seconds in an `i64`. Arithmetic that leaves its type panics with overflow checks, and wraps
around without them. -/

set_option autoImplicit false

namespace OpenGauss.Types

open Protocol Lib

/-- A time as its nanoseconds since 1970. -/
structure SystemTime where
  nanos : Int
  least : -2 ^ 63 * 10 ^ 9 ≤ nanos
  most : nanos < 2 ^ 63 * 10 ^ 9
  deriving DecidableEq, Repr

namespace SystemTime

/-- `std::time::Duration`, as its nanoseconds. -/
structure Duration where
  nanos : Nat
  most : nanos < 2 ^ 64 * 10 ^ 9
  deriving DecidableEq, Repr

namespace Duration

/-- `Duration::new`; `none` is a panic. -/
def new (secs nanos : Nat) : Option Duration :=
  if most : secs * 10 ^ 9 + nanos < 2 ^ 64 * 10 ^ 9 then some ⟨secs * 10 ^ 9 + nanos, most⟩
  else none

def asSecs (duration : Duration) : Nat := duration.nanos / 10 ^ 9

def subsecNanos (duration : Duration) : Nat := duration.nanos % 10 ^ 9

end Duration

/-- A time that a platform can have. -/
def ofNanos? (nanos : Int) : Option SystemTime :=
  if range : -2 ^ 63 * 10 ^ 9 ≤ nanos ∧ nanos < 2 ^ 63 * 10 ^ 9 then
    some ⟨nanos, range.1, range.2⟩
  else none

/-- `+`; `none` is a panic. -/
def add (time : SystemTime) (duration : Duration) : Option SystemTime :=
  ofNanos? (time.nanos + duration.nanos)

/-- `-`; `none` is a panic. -/
def sub (time : SystemTime) (duration : Duration) : Option SystemTime :=
  ofNanos? (time.nanos - duration.nanos)

/-- `duration_since`; the error is how much later the other time is. -/
def durationSince (self earlier : SystemTime) : Except Duration Duration :=
  have selfLeast := self.least
  have selfMost := self.most
  have earlierLeast := earlier.least
  have earlierMost := earlier.most
  if earlier.nanos ≤ self.nanos then .ok ⟨(self.nanos - earlier.nanos).toNat, by omega⟩
  else .error ⟨(earlier.nanos - self.nanos).toNat, by omega⟩

def timeSecConversion : Nat := 946684800

def usecPerSec : Nat := 1000000

def nsecPerUsec : Nat := 1000

/-- `UNIX_EPOCH + Duration::from_secs(TIME_SEC_CONVERSION)`. -/
def epoch : SystemTime := ⟨timeSecConversion * 10 ^ 9, by decide, by decide⟩

/-- A result that is too large for a `u64`. -/
def u64 (overflowChecks : Bool) (value : Nat) : Option Nat :=
  if value < 2 ^ 64 then some value else if overflowChecks then none else some (value % 2 ^ 64)

/-- `-` of an `i64`. -/
def negI64 (overflowChecks : Bool) (value : Int64) : Option Int64 :=
  if value = Int64.minValue ∧ overflowChecks then none else some (-value)

/-- How reading ends: with a value, with an error, or with a panic. -/
abbrev Checked (Value : Type) := ExceptT Failure Option Value

def fromSql (overflowChecks : Bool) (raw : Bytes) : Checked SystemTime := do
  let time ← ExceptT.mk (some (timestampFromSql raw))
  let negative := time < 0
  let time := time.natAbs
  let secs := time / usecPerSec
  let nsec ← u64 overflowChecks (time % usecPerSec * nsecPerUsec)
  let offset ← Duration.new secs (nsec % 2 ^ 32)
  if negative then epoch.sub offset else epoch.add offset

def toUsec (overflowChecks : Bool) (d : Duration) : Option Nat := do
  let secs ← u64 overflowChecks (d.asSecs * usecPerSec)
  u64 overflowChecks (secs + d.subsecNanos / nsecPerUsec)

/-- The value that `to_sql` writes. -/
def toTimestamp (overflowChecks : Bool) (self : SystemTime) : Option Int64 :=
  match self.durationSince epoch with
  | .ok duration => (toUsec overflowChecks duration).map fun usec => (UInt64.ofNat usec).toInt64
  | .error later => do negI64 overflowChecks (UInt64.ofNat (← toUsec overflowChecks later)).toInt64

def toSql (overflowChecks : Bool) (self : SystemTime) : Put Stop IsNull := do
  match self.toTimestamp overflowChecks with
  | none => throw .panicked
  | some time => timestampToSql time
  return .no

/-! ### What is written -/

/-- The whole microseconds between the epoch and a time, rounded toward the epoch. -/
def usec (self : SystemTime) : Int := (self.nanos - epoch.nanos).tdiv 1000

/-- The microseconds of a time are written, or are an error where they do not fit. -/
def Faithful (self : SystemTime) : Prop :=
  ∀ overflowChecks buf,
    (∃ time : Int64, time.toInt = self.usec ∧
      Builder.Ok (toSql overflowChecks self) buf .no (buf ++ wire time)) ∨
    ¬(-2 ^ 63 ≤ self.usec ∧ self.usec < 2 ^ 63) ∧
      ∃ error, ((toSql overflowChecks self).execute buf).1 = .error (.failed error)

/-- A count is read, and written again, without an overflow. -/
def RoundTrips (time : Int64) : Prop :=
  ∀ overflowChecks, ∃ self, fromSql overflowChecks (wire time) = pure self ∧
    ∀ buf, Builder.Ok (toSql overflowChecks self) buf .no (buf ++ wire time)

theorem u64_of_lt {overflowChecks : Bool} {value : Nat} (small : value < 2 ^ 64) :
    u64 overflowChecks value = some value := if_pos small

theorem u64_wraps (value : Nat) : u64 false value = some (value % 2 ^ 64) := by
  by_cases small : value < 2 ^ 64
  · rw [u64_of_lt small, Nat.mod_eq_of_lt small]
  · exact if_neg small

theorem u64_panics {value : Nat} (large : 2 ^ 64 ≤ value) : u64 true value = none :=
  if_neg (Nat.not_lt.mpr large)

/-- An overflow of the seconds is one of the microseconds. -/
theorem toUsec_eq (overflowChecks : Bool) (d : Duration) :
    toUsec overflowChecks d = u64 overflowChecks (d.nanos / 1000) := by
  obtain ⟨nanos, most⟩ := d
  have whole : nanos / 10 ^ 9 * 1000000 + nanos % 10 ^ 9 / 1000 = nanos / 1000 := by omega
  rw [toUsec, Duration.asSecs, Duration.subsecNanos, usecPerSec, nsecPerUsec]
  dsimp only
  by_cases small : nanos / 10 ^ 9 * 1000000 < 2 ^ 64
  · rw [u64_of_lt small, Option.bind_eq_bind, Option.bind_some, whole]
  · cases overflowChecks with
    | true =>
        rw [u64_panics (by omega), u64_panics (by omega)]
        rfl
    | false =>
        rw [u64_wraps, Option.bind_eq_bind, Option.bind_some, u64_wraps, u64_wraps, ← whole]
        exact congrArg some (Nat.mod_add_mod ..)

/-- The count of a time that is not before the epoch. -/
theorem toTimestamp_after {self : SystemTime} (after : epoch.nanos ≤ self.nanos)
    (overflowChecks : Bool) : self.toTimestamp overflowChecks =
      (u64 overflowChecks self.usec.toNat).map fun usec => (UInt64.ofNat usec).toInt64 := by
  have counted : (self.nanos - epoch.nanos).toNat / 1000 = self.usec.toNat := by
    rw [usec, Int.tdiv_eq_ediv_of_nonneg (by omega)]
    omega
  rw [toTimestamp, durationSince, if_pos after]
  dsimp only
  rw [toUsec_eq]
  dsimp only
  rw [counted]

theorem toTimestamp_before {self : SystemTime} (before : self.nanos < epoch.nanos)
    (overflowChecks : Bool) : self.toTimestamp overflowChecks =
      (u64 overflowChecks (-self.usec).toNat).bind fun usec =>
        negI64 overflowChecks (UInt64.ofNat usec).toInt64 := by
  have counted : (epoch.nanos - self.nanos).toNat / 1000 = (-self.usec).toNat := by
    have opposite : self.nanos - epoch.nanos = -(epoch.nanos - self.nanos) := by omega
    rw [usec, opposite, Int.neg_tdiv, Int.neg_neg, Int.tdiv_eq_ediv_of_nonneg (by omega)]
    omega
  rw [toTimestamp, durationSince, if_neg (Int.not_le.mpr before)]
  dsimp only
  rw [toUsec_eq]
  dsimp only
  rw [counted]
  rfl

theorem toInt64_ofNat (value : Nat) : (UInt64.ofNat value).toInt64 = Int64.ofInt value :=
  Int64.toBitVec_inj.mp (BitVec.ofInt_natCast 64 value).symm

theorem usec_nonneg {self : SystemTime} (after : epoch.nanos ≤ self.nanos) : 0 ≤ self.usec :=
  Int.tdiv_nonneg (by omega) (by decide)

theorem usec_nonpos {self : SystemTime} (before : self.nanos < epoch.nanos) : self.usec ≤ 0 := by
  have opposite : self.nanos - epoch.nanos = -(epoch.nanos - self.nanos) := by omega
  rw [usec, opposite, Int.neg_tdiv]
  exact Int.neg_nonpos_of_nonneg (Int.tdiv_nonneg (by omega) (by decide))

theorem toTimestamp_fits {self : SystemTime} (least : -2 ^ 63 < self.usec)
    (most : self.usec < 2 ^ 63) (overflowChecks : Bool) :
    self.toTimestamp overflowChecks = some (Int64.ofInt self.usec) := by
  by_cases after : epoch.nanos ≤ self.nanos
  · have sign := usec_nonneg after
    have small : self.usec.toNat < 2 ^ 64 := by omega
    rw [toTimestamp_after after, u64_of_lt small, Option.map_some, toInt64_ofNat,
      Int.toNat_of_nonneg sign]
  · have sign := usec_nonpos (Int.not_le.mp after)
    have small : (-self.usec).toNat < 2 ^ 64 := by omega
    have count : ((-self.usec).toNat : Int) = -self.usec := Int.toNat_of_nonneg (by omega)
    have noMin : Int64.ofInt (-self.usec) ≠ Int64.minValue := by
      intro same
      have values := congrArg Int64.toInt same
      rw [Int64.toInt_ofInt_of_le (by omega) (by omega), Int64.toInt_minValue] at values
      omega
    rw [toTimestamp_before (Int.not_le.mp after), u64_of_lt small, Option.bind_some,
      toInt64_ofNat, count, negI64, if_neg fun overflow => noMin overflow.1, ← Int64.ofInt_neg,
      Int.neg_neg]

/-- Without overflow checks there is always something that is written. -/
theorem toTimestamp_wraps (self : SystemTime) : ∃ time, self.toTimestamp false = some time := by
  by_cases after : epoch.nanos ≤ self.nanos
  · rw [toTimestamp_after after, u64_wraps]
    exact ⟨_, rfl⟩
  · rw [toTimestamp_before (Int.not_le.mp after), u64_wraps, Option.bind_some, negI64,
      if_neg (fun overflow => absurd overflow.2 Bool.false_ne_true)]
    exact ⟨_, rfl⟩

/-- The least count is negated after it has been narrowed. -/
theorem toTimestamp_least {self : SystemTime} (least : self.usec = -2 ^ 63) :
    self.toTimestamp true = none := by
  have before : self.nanos < epoch.nanos := by
    refine Int.not_le.mp fun after => ?_
    have sign := usec_nonneg after
    omega
  have small : (-self.usec).toNat < 2 ^ 64 := by omega
  rw [toTimestamp_before before, u64_of_lt small, Option.bind_some, negI64]
  refine if_pos ⟨?_, rfl⟩
  rw [least]
  decide

theorem toSql_ok {self : SystemTime} {overflowChecks : Bool} {time : Int64}
    (counted : self.toTimestamp overflowChecks = some time) {buf after : Bytes} :
    Builder.Ok (toSql overflowChecks self) buf .no after ↔ after = buf ++ wire time := by
  rw [toSql, counted]
  refine Builder.ok_bind.trans ?_
  simp [timestampToSql, putI64, Builder.ok_append, Builder.ok_pure]

theorem toSql_panics {self : SystemTime} {overflowChecks : Bool}
    (overflows : self.toTimestamp overflowChecks = none) (buf : Bytes) :
    (toSql overflowChecks self).execute buf = (.error .panicked, buf) := by
  rw [toSql, overflows]
  rfl

theorem not_faithful_least {self : SystemTime} (least : self.usec = -2 ^ 63) :
    ¬Faithful self := by
  intro faithful
  have panics := toSql_panics (toTimestamp_least least) []
  rcases faithful true [] with ⟨time, -, written⟩ | ⟨outside, -⟩
  · cases panics.symm.trans written
  · omega

/-- A time is written as it should be exactly if its count fits and is not the least one. -/
theorem faithful_iff (self : SystemTime) :
    Faithful self ↔ -2 ^ 63 < self.usec ∧ self.usec < 2 ^ 63 := by
  constructor
  · intro faithful
    obtain ⟨time, counted⟩ := toTimestamp_wraps self
    rcases faithful false [] with ⟨exact_, same, -⟩ | ⟨-, error, failed⟩
    · have most := exact_.toInt_lt
      have least := exact_.le_toInt
      have noLeast : self.usec ≠ -2 ^ 63 := fun same => not_faithful_least same faithful
      omega
    · have written : (toSql false self).execute [] = (.ok .no, [] ++ wire time) :=
        (toSql_ok counted).mpr rfl
      rw [written] at failed
      cases failed
  · rintro ⟨least, most⟩ overflowChecks buf
    refine .inl ⟨Int64.ofInt self.usec, Int64.toInt_ofInt_of_le (by omega) most, ?_⟩
    exact (toSql_ok (toTimestamp_fits least most overflowChecks)).mpr rfl

/-! ### What is read -/

theorem epoch_nanos : epoch.nanos = 946684800 * 10 ^ 9 := rfl

/-- The time of a count. -/
def ofUsec (time : Int64) : SystemTime where
  nanos := epoch.nanos + time.toInt * 1000
  least := by
    have least := time.le_toInt
    have start := epoch_nanos
    omega
  most := by
    have most := time.toInt_lt
    have start := epoch_nanos
    omega

theorem usec_ofUsec (time : Int64) : (ofUsec time).usec = time.toInt := by
  have distance : (ofUsec time).nanos - epoch.nanos = time.toInt * 1000 :=
    add_sub_cancel_left ..
  rw [usec, distance]
  exact Int.mul_tdiv_cancel _ (by decide)

theorem ofNanos?_self (self : SystemTime) : ofNanos? self.nanos = some self :=
  dif_pos ⟨self.least, self.most⟩

theorem fromSql_wire (overflowChecks : Bool) (time : Int64) :
    fromSql overflowChecks (wire time) = pure (ofUsec time) := by
  have least := time.le_toInt
  have most := time.toInt_lt
  have nsec : u64 overflowChecks (time.toInt.natAbs % usecPerSec * nsecPerUsec) =
      some (time.toInt.natAbs % usecPerSec * nsecPerUsec) := by
    refine u64_of_lt ?_
    rw [usecPerSec, nsecPerUsec]
    omega
  have offset : Duration.new (time.toInt.natAbs / usecPerSec)
      (time.toInt.natAbs % usecPerSec * nsecPerUsec % 2 ^ 32) =
        some ⟨time.toInt.natAbs * 1000, by omega⟩ := by
    have whole : time.toInt.natAbs / usecPerSec * 10 ^ 9 +
        time.toInt.natAbs % usecPerSec * nsecPerUsec % 2 ^ 32 = time.toInt.natAbs * 1000 := by
      rw [usecPerSec, nsecPerUsec]
      omega
    rw [Duration.new, dif_pos (by omega)]
    exact congrArg some (by simp only [whole])
  have moved : (if time.toInt < 0 then epoch.sub ⟨time.toInt.natAbs * 1000, by omega⟩
      else epoch.add ⟨time.toInt.natAbs * 1000, by omega⟩) = some (ofUsec time) := by
    rw [← ofNanos?_self (ofUsec time), ofUsec]
    split
    · refine congrArg ofNanos? ?_
      dsimp only
      omega
    · refine congrArg ofNanos? ?_
      dsimp only
      omega
  have lifted {First Next : Type} {first : Option First} {value : First}
      {next : First → Checked Next} (found : first = some value) :
      ((liftM first : Checked First) >>= next) = next value := by
    subst found
    rfl
  rw [fromSql, timestampFromSql_wire]
  change ((liftM (u64 overflowChecks (time.toInt.natAbs % usecPerSec * nsecPerUsec)) :
    Checked Nat) >>= _) = _
  rw [lifted nsec, lifted offset]
  split
  · next negative =>
      rw [if_pos negative] at moved
      rw [moved]
      rfl
  · next positive =>
      rw [if_neg positive] at moved
      rw [moved]
      rfl

/-- A count makes the round trip exactly if its sign can be changed. -/
theorem roundTrips_count_iff (time : Int64) : RoundTrips time ↔ time ≠ Int64.minValue := by
  constructor
  · rintro trips rfl
    obtain ⟨self, read, written⟩ := trips true
    rw [fromSql_wire] at read
    obtain rfl := Except.ok.inj (Option.some.inj read)
    have panics := toSql_panics (toTimestamp_least (usec_ofUsec Int64.minValue)) []
    cases panics.symm.trans (written [])
  · intro notLeast overflowChecks
    refine ⟨ofUsec time, fromSql_wire overflowChecks time, fun buf => ?_⟩
    have most := time.toInt_lt
    have least := time.le_toInt
    have noLeast : time.toInt ≠ -2 ^ 63 := fun same =>
      notLeast (Int64.toInt_inj.mp (same.trans Int64.toInt_minValue.symm))
    have counted := @toTimestamp_fits (ofUsec time) (by rw [usec_ofUsec]; omega)
      (by rw [usec_ofUsec]; omega) overflowChecks
    rw [usec_ofUsec, Int64.ofInt_toInt] at counted
    exact (toSql_ok counted).mpr rfl

/-- Every count but the least one makes the round trip, and a time is written as it should
be exactly if it is less than 2^63 microseconds away from the epoch. -/
theorem roundTrips_faithful (time : Int64) (self : SystemTime) :
    (RoundTrips time ↔ time ≠ Int64.minValue) ∧
      (Faithful self ↔ -2 ^ 63 < self.usec ∧ self.usec < 2 ^ 63) :=
  ⟨roundTrips_count_iff time, faithful_iff self⟩

/-- The first microsecond that an `i64` cannot count. -/
def tooLate : SystemTime where
  nanos := epoch.nanos + 2 ^ 63 * 1000
  least := by decide
  most := by decide

/-- The least count overflows, and a time that is too late is written as an early one. -/
theorem not_roundTrips : ¬RoundTrips Int64.minValue ∧ ¬Faithful tooLate := by
  constructor
  · exact fun trips => (roundTrips_count_iff _).mp trips rfl
  · intro faithful
    have most := ((faithful_iff _).mp faithful).2
    have late : tooLate.usec = 2 ^ 63 := by decide
    omega

end SystemTime

end OpenGauss.Types
