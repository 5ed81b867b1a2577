import OpenGauss.Types.Int64Sql

/-! TIME values of `chrono` and of `time` (`opengauss-types`, `chrono_04.rs` and `time_03.rs`):
the microseconds are added to midnight, which wraps around. -/

set_option autoImplicit false

namespace OpenGauss.Types

open Protocol Lib

def nanosPerDay : Int := 86400 * 10 ^ 9

/-- A package for times of day. A duration is its nanoseconds; adding one to midnight wraps
around after 24 hours. -/
structure TimePackage where
  Time : Type
  midnight : Time
  add : Time → Int → Time
  since : Time → Time → Int
  since_add : ∀ duration, since (add midnight duration) midnight = duration % nanosPerDay

/-- `Duration::microseconds`. -/
def microseconds (usec : Int) : Int := usec * 1000

/-- The whole microseconds of a duration, if they fit into an `i64`. -/
def numMicroseconds (duration : Int) : Option Int64 :=
  if -2 ^ 63 ≤ duration.tdiv 1000 ∧ duration.tdiv 1000 < 2 ^ 63 then
    some (Int64.ofInt (duration.tdiv 1000))
  else none

namespace TimePackage

variable (package : TimePackage)

/-- `from_sql`, for either package. -/
def fromSql (raw : Bytes) : Except Failure package.Time := do
  let usec ← timeFromSql raw
  return package.add package.midnight (microseconds usec)

/-- `to_sql`, for either package. -/
def toSql (self : package.Time) : Put Stop IsNull := do
  match numMicroseconds (package.since self package.midnight) with
  | some time => timeToSql time
  | none => throw (.failed (.message "value too large to transmit"))
  return .no

end TimePackage

def NaiveTime.fromSql (chrono : TimePackage) : Bytes → Except Failure chrono.Time := chrono.fromSql

def NaiveTime.toSql (chrono : TimePackage) : chrono.Time → Put Stop IsNull := chrono.toSql

def Time.fromSql (time : TimePackage) : Bytes → Except Failure time.Time := time.fromSql

def Time.toSql (time : TimePackage) : time.Time → Put Stop IsNull := time.toSql

/-- A value is refused, or read as a time that is written as that value. -/
def KeepsTime {Time : Type} (fromSql : Bytes → Except Failure Time) (toSql : Time → Put Stop IsNull)
    (usec : Int64) : Prop :=
  ∀ time, fromSql (wire usec) = .ok time → ∀ buf, Builder.Ok (toSql time) buf .no (buf ++ wire usec)

/-- The microseconds of a day, without its end. -/
def InDay (usec : Int64) : Prop := 0 ≤ usec.toInt ∧ usec.toInt < 86400000000

section

variable {package : TimePackage}

theorem fromSql_wire (usec : Int64) :
    package.fromSql (wire usec) = .ok (package.add package.midnight (microseconds usec.toInt)) := by
  rw [TimePackage.fromSql, timeFromSql_wire]
  rfl

theorem toSql_ok {self : package.Time} {time : Int64}
    (counted : numMicroseconds (package.since self package.midnight) = some time) {buf after : Bytes} :
    Builder.Ok (package.toSql self) buf .no after ↔ after = buf ++ wire time := by
  rw [TimePackage.toSql, counted]
  refine Builder.ok_bind.trans ?_
  simp [timeToSql, putI64, Builder.ok_append, Builder.ok_pure]

/-- What is counted of a value that is read: its remainder. -/
theorem since_add_microseconds (usec : Int) :
    (package.since (package.add package.midnight (microseconds usec)) package.midnight).tdiv 1000 =
      usec % 86400000000 := by
  have nonnegative : 0 ≤ microseconds usec % nanosPerDay := by
    rw [microseconds, nanosPerDay]
    omega
  rw [package.since_add, Int.tdiv_eq_ediv_of_nonneg nonnegative, microseconds, nanosPerDay]
  omega

theorem numMicroseconds_add (usec : Int64) :
    numMicroseconds (package.since (package.add package.midnight (microseconds usec.toInt))
      package.midnight) = some (Int64.ofInt (usec.toInt % 86400000000)) := by
  rw [numMicroseconds, since_add_microseconds, if_pos (by omega)]

theorem keepsTime_iff (usec : Int64) :
    KeepsTime package.fromSql package.toSql usec ↔ InDay usec := by
  have counted := @numMicroseconds_add package usec
  have remainder : (Int64.ofInt (usec.toInt % 86400000000)).toInt = usec.toInt % 86400000000 :=
    Int64.toInt_ofInt_of_le (by omega) (by omega)
  constructor
  · intro keeps
    have written := (toSql_ok counted).mp (keeps _ (fromSql_wire usec) [])
    have same := congrArg Int64.toInt (wire_inj (List.append_cancel_left written))
    rw [remainder] at same
    rw [InDay]
    omega
  · rintro ⟨least, most⟩ time read buf
    rw [fromSql_wire] at read
    obtain rfl := Except.ok.inj read
    have same : Int64.ofInt (usec.toInt % 86400000000) = usec := by
      rw [Int.emod_eq_of_lt least most, Int64.ofInt_toInt]
    rw [toSql_ok counted, same]

end

/-- The value that `FromSql` has for `gaussdb-mcp` is what is counted of the time. -/
theorem naiveTimeFrom_eq (chrono : TimePackage) (raw : Bytes) :
    naiveTimeFrom.fromSqlNullable .time (some raw) = (NaiveTime.fromSql chrono raw).map fun time =>
      (chrono.since time chrono.midnight).tdiv 1000 := by
  rw [NaiveTime.fromSql, TimePackage.fromSql]
  change (timeFromSql raw).map (fun usec => usec % 86400000000) = _
  cases timeFromSql raw with
  | error failure => rfl
  | ok usec => exact congrArg Except.ok (since_add_microseconds usec).symm

/-- In both packages, a value keeps exactly if it lies within a day. -/
theorem keepsTime_chrono_time (chrono time : TimePackage) (usec : Int64) :
    (KeepsTime (NaiveTime.fromSql chrono) (NaiveTime.toSql chrono) usec ↔ InDay usec) ∧
      (KeepsTime (Time.fromSql time) (Time.toSql time) usec ↔ InDay usec) :=
  ⟨keepsTime_iff usec, keepsTime_iff usec⟩

/-- Times as their nanoseconds. -/
def clock : TimePackage where
  Time := Int
  midnight := 0
  add time duration := (time + duration) % nanosPerDay
  since time other := time - other
  since_add duration := by rw [Int.zero_add, Int.sub_zero]

/-- The end of the day becomes its beginning. -/
theorem not_keepsTime : ¬KeepsTime (NaiveTime.fromSql clock) (NaiveTime.toSql clock) 86400000000 ∧
    ¬KeepsTime (Time.fromSql clock) (Time.toSql clock) 86400000000 := by
  have outside : ¬InDay 86400000000 := fun inDay => absurd inDay.2 (by decide)
  exact ⟨fun keeps => outside ((keepsTime_iff _).mp keeps),
    fun keeps => outside ((keepsTime_iff _).mp keeps)⟩

end OpenGauss.Types
