import OpenGauss.Driver.Config
import OpenGauss.Types.FromSql

/-! The text of an INTERVAL value (`gaussdb-mcp`, `output.rs`). A step that leaves
its integer type has no result. -/

set_option autoImplicit false

namespace OpenGauss.Mcp

open Driver Lib Protocol OpenGauss.Types

/-- The result of an operation on signed integers of `bits` bits. -/
def inSigned (bits : Nat) (value : Int) : Option Int :=
  if -2 ^ (bits - 1) ≤ value ∧ value < 2 ^ (bits - 1) then some value else none

/-- `abs`. -/
def absIn (bits : Nat) (value : Int) : Option Int := inSigned bits value.natAbs

structure Interval where
  micros : Int
  days : Int
  months : Int
  deriving DecidableEq, Repr

/-- The three integers of a buffer of sixteen bytes. -/
def Interval.ofBytes (buf : Bytes) : Interval where
  micros := asI64 (beNat (buf.take 8))
  days := asI32 (beNat ((buf.drop 8).take 4))
  months := asI32 (beNat ((buf.drop 12).take 4))

/-- `if number != 0 { parts.push(format!("{} unit", number)) }`. -/
def unitPart (unit : Text) (number : Int) : List Text :=
  if number ≠ 0 then [Numeral.showSigned number ++ ' ' :: unit] else []

def monthParts (months : Int) : Option (List Text) :=
  if months ≠ 0 then do
    let years ← inSigned 32 (months.tdiv 12)
    let mons ← inSigned 32 (months.tmod 12)
    return unitPart "years".toList years ++ unitPart "mons".toList mons
  else some []

/-- `{:02}:{:02}:{:02}`, with `.{:06}` behind it if there is a fraction. -/
def clockText (h m s frac : Int) : Text :=
  Numeral.zeroPadded 2 h ++ ':' :: Numeral.zeroPadded 2 m ++ ':' :: Numeral.zeroPadded 2 s ++
    if 0 < frac then '.' :: Numeral.zeroPadded 6 frac else []

/-- `div_euclid` and `rem_euclid` are the division of the integers here, and the
operators of the source truncate. -/
def timePart (micros : Int) : Option Text := do
  let totalSecs ← inSigned 64 (micros / 1000000)
  let rest ← inSigned 64 (micros % 1000000)
  let frac ← absIn 64 rest
  let h ← inSigned 64 (totalSecs.tdiv 3600)
  let ofHour ← inSigned 64 (totalSecs.tmod 3600)
  let m ← inSigned 64 (ofHour.tdiv 60)
  let s ← inSigned 64 (totalSecs.tmod 60)
  return clockText (← absIn 64 h) (← absIn 64 m) (← absIn 64 s) frac

def timeParts (micros : Int) : Option (List Text) :=
  if micros ≠ 0 then (timePart micros).map fun part => [part] else some []

def formatInterval (b : Bytes) : Option Text :=
  if b.length ≠ 16 then
    some ("<malformed interval: ".toList ++ Nat.toDigits 10 b.length ++ " bytes>".toList)
  else do
    let interval := Interval.ofBytes b
    let months ← monthParts interval.months
    let time ← timeParts interval.micros
    let parts := months ++ unitPart "days".toList interval.days ++ time
    return if parts.isEmpty then "00:00:00".toList else [' '].intercalate parts

end OpenGauss.Mcp
