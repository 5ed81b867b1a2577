import OpenGauss.Lib.FallibleIterator
import OpenGauss.Protocol.SliceReads

/-! The decoder of PATH (`opengauss-protocol`, `types/mod.rs`) and the line string that
`opengauss-types` reads with it. A float is its bits. -/

set_option autoImplicit false

namespace OpenGauss.Protocol.PathSql

open Lib ArraySql

structure Point where
  x : UInt64
  y : UInt64
  deriving DecidableEq, Repr

structure Path where
  closed : Bool
  points : Int32
  buf : Bytes
  deriving DecidableEq, Repr

structure PathPoints where
  remaining : Int32
  buf : Bytes
  deriving DecidableEq, Repr

/-- `read_f64`. -/
def readF64 : Slice UInt64 := do
  return UInt64.ofNat (beNat (← readExact 8))

def readPoint : Slice Point := do
  let x ← readF64
  let y ← readF64
  return { x, y }

def parsePath : Slice Path := do
  let closed ← readU8
  let points ← readI32
  let buf ← get
  return { closed := closed != 0, points, buf }

def pathFromSql (buf : Bytes) : Except BoxError Path := (parsePath buf).map Prod.fst

/-- `points()`. -/
def Path.pathPoints (self : Path) : PathPoints := { remaining := self.points, buf := self.buf }

namespace PathPoints

def next (self : PathPoints) : Checked (Option (Point × PathPoints)) :=
  if self.remaining = 0 then
    if self.buf ≠ [] then throw (.text "invalid message length: path points not drained")
    else return none
  else do
    let remaining ← (checkedPred self.remaining : Option Int32)
    let read ← ExceptT.mk (some (readPoint self.buf))
    return some (read.1, { remaining, buf := read.2 })

def sizeHint (self : PathPoints) : Nat := asUsize self.remaining

end PathPoints

theorem readF64_eq (buf : Bytes) : readF64 buf =
    if buf.length < 8 then .error (.io fillWholeBuffer)
    else .ok (UInt64.ofNat (beNat (buf.take 8)), buf.drop 8) := by
  by_cases short : buf.length < 8
  · simp only [readF64, readExact, bind, StateT.bind, Except.bind, if_pos short]
  · simp only [readF64, readExact, bind, StateT.bind, Except.bind, if_neg short]
    rfl

theorem readPoint_ok {buf : Bytes} (long : 16 ≤ buf.length) :
    ∃ point, readPoint buf = .ok (point, buf.drop 16) := by
  have first : readF64 buf = .ok (UInt64.ofNat (beNat (buf.take 8)), buf.drop 8) := by
    rw [readF64_eq, if_neg (by omega)]
  have second : readF64 (buf.drop 8) =
      .ok (UInt64.ofNat (beNat ((buf.drop 8).take 8)), buf.drop 16) := by
    have rest : ¬(buf.drop 8).length < 8 := by
      rw [List.length_drop]
      omega
    rw [readF64_eq, if_neg rest, List.drop_drop]
  refine ⟨⟨UInt64.ofNat (beNat (buf.take 8)), UInt64.ofNat (beNat ((buf.drop 8).take 8))⟩, ?_⟩
  rw [readPoint, bind_ran first, bind_ran second]
  rfl

theorem readF64_front {buf rest : Bytes} {float : UInt64}
    (read : readF64 buf = .ok (float, rest)) : 8 ≤ buf.length ∧ rest = buf.drop 8 := by
  rw [readF64_eq] at read
  split at read
  · cases read
  · obtain ⟨-, rfl⟩ := Prod.mk.inj (Except.ok.inj read)
    exact ⟨by omega, rfl⟩

theorem readPoint_front {buf rest : Bytes} {point : Point}
    (read : readPoint buf = .ok (point, rest)) : buf.length = rest.length + 16 := by
  obtain ⟨x, between, first, more⟩ := bind_eq_ok.mp read
  obtain ⟨y, tail, second, last⟩ := bind_eq_ok.mp more
  obtain ⟨-, rfl⟩ := Prod.mk.inj (Except.ok.inj last)
  obtain ⟨long, rfl⟩ := readF64_front first
  obtain ⟨longer, rfl⟩ := readF64_front second
  rw [List.length_drop] at longer ⊢
  rw [List.length_drop]
  omega

theorem PathPoints.next_shorter {self rest : PathPoints} {point : Point}
    (step : self.next.run = some (.ok (some (point, rest)))) :
    rest.buf.length < self.buf.length := by
  rw [PathPoints.next] at step
  split at step
  · split at step <;> cases step
  · obtain ⟨remaining, _, step⟩ := checked_bind_ok.mp step
    obtain ⟨read, first, last⟩ := checked_bind_ok.mp step
    cases last
    have size := readPoint_front (Option.some.inj first)
    dsimp only
    omega

def iterator : FallibleIterator PathPoints Point BoxError where
  next self := self.next.run
  size self := self.buf.length
  shorter := PathPoints.next_shorter

/-- Draining the points of a value. -/
def drainPoints (raw : Bytes) : Checked (List Point) := do
  let path ← ExceptT.mk (some (pathFromSql raw))
  ExceptT.mk (iterator.collect path.pathPoints)

/-- `Vec::with_capacity`, of items of sixteen bytes, which panics beyond `isize::MAX`. -/
def withCapacity (capacity : Nat) : Option Unit :=
  if 16 * capacity < 2 ^ 63 then some () else none

/-- `LineString::from_sql`: `collect` first makes room for as many points as the hint
says. -/
def lineStringFromSql (raw : Bytes) : Checked (List Point) := do
  let path ← ExceptT.mk (some (pathFromSql raw))
  (withCapacity path.pathPoints.sizeHint : Option Unit)
  ExceptT.mk (iterator.collect path.pathPoints)

/-! ### What stands in a path -/

/-- The count behind the first byte, and what stands behind it. -/
def Announces (raw : Bytes) (count : Int) (rest : Bytes) : Prop :=
  ∃ closed number, raw = closed :: (i32Wire number ++ rest) ∧ number.toInt = count

/-- As many points as are announced, and nothing else. -/
def WellFormed (raw : Bytes) (count : Int) : Prop :=
  (∃ rest, Announces raw count rest) ∧ 0 ≤ count ∧ (raw.length : Int) = 5 + 16 * count

/-- The points of a well-formed value are read, and anything else is an error. -/
def ReadsExactly (raw : Bytes) : Prop :=
  (∃ count points, WellFormed raw count ∧ (drainPoints raw).run = some (.ok points) ∧
      (points.length : Int) = count) ∨
    (¬∃ count, WellFormed raw count) ∧ ∃ error, (drainPoints raw).run = some (.error error)

/-- No hint is greater than the number of points that the bytes can hold. -/
def HintsFit (raw : Bytes) : Prop :=
  ∀ path points state, pathFromSql raw = .ok path → iterator.Yields path.pathPoints points state →
    16 * state.sizeHint ≤ state.buf.length

/-- Points are decoded as they should be, also into a line string. -/
def Decodes (raw : Bytes) : Prop :=
  ReadsExactly raw ∧ HintsFit raw ∧ (lineStringFromSql raw).run = (drainPoints raw).run

theorem pathFromSql_announced (closed : UInt8) (number : Int32) (rest : Bytes) :
    pathFromSql (closed :: (i32Wire number ++ rest)) = .ok ⟨closed != 0, number, rest⟩ := by
  have first : readU8 (closed :: (i32Wire number ++ rest)) =
      .ok (closed, i32Wire number ++ rest) := rfl
  rw [pathFromSql, parsePath, bind_ran first, bind_ran (readI32_wire number rest)]
  rfl

theorem pathFromSql_cases (raw : Bytes) :
    (∃ error, pathFromSql raw = .error error) ∧ (∀ count rest, ¬Announces raw count rest) ∨
      ∃ closed number rest, raw = closed :: (i32Wire number ++ rest) := by
  by_cases announced : ∃ closed number rest, raw = closed :: (i32Wire number ++ rest)
  · exact .inr announced
  · refine .inl ⟨?_, fun count rest stands => ?_⟩
    · cases parsed : parsePath raw with
      | error error => exact ⟨error, by rw [pathFromSql, parsed]; rfl⟩
      | ok found =>
          obtain ⟨closed, between, first, more⟩ := bind_eq_ok.mp parsed
          obtain ⟨number, rest, second, _⟩ := bind_eq_ok.mp more
          rw [readU8_front first, readI32_front second] at announced
          exact absurd ⟨closed, number, rest, rfl⟩ announced
    · obtain ⟨closed, number, same, _⟩ := stands
      exact announced ⟨closed, number, rest, same⟩

/-! ### Counts that are not negative -/

theorem next_succ {count : Nat} (small : count + 1 < 2 ^ 31) (buf : Bytes) :
    (PathPoints.mk (Int32.ofNat (count + 1)) buf).next =
      ExceptT.mk (some (readPoint buf)) >>= fun read =>
        return some (read.1, ⟨Int32.ofNat count, read.2⟩) := by
  rw [PathPoints.next, if_neg (ofNat_succ_ne_zero small), checkedPred_succ small, checked_lift]

theorem sizeHint_ofNat {count : Nat} (small : count < 2 ^ 31) (buf : Bytes) :
    (PathPoints.mk (Int32.ofNat count) buf).sizeHint = count := (ofNat_nonnegative small).2

/-- All announced points are handed out when their bytes are there. -/
theorem exists_yields {count : Nat} (small : count < 2 ^ 31) {buf : Bytes}
    (long : 16 * count ≤ buf.length) : ∃ points, points.length = count ∧
      iterator.Yields ⟨Int32.ofNat count, buf⟩ points ⟨Int32.ofNat 0, buf.drop (16 * count)⟩ := by
  induction count generalizing buf with
  | zero => exact ⟨[], rfl, .nil⟩
  | succ count ih =>
      obtain ⟨point, read⟩ := readPoint_ok (show 16 ≤ buf.length by omega)
      have rest : 16 * count ≤ (buf.drop 16).length := by
        rw [List.length_drop]
        omega
      obtain ⟨points, size, yields⟩ := ih (by omega) rest
      have both : 16 + 16 * count = 16 * (count + 1) := by omega
      rw [List.drop_drop, both] at yields
      refine ⟨point :: points, congrArg (· + 1) size, .cons ?_ yields⟩
      change (PathPoints.mk (Int32.ofNat (count + 1)) buf).next.run = _
      rw [next_succ small, read]
      rfl

/-- What is left after some points: fewer to come, and sixteen bytes less for each. -/
theorem yields_left {count : Nat} (small : count < 2 ^ 31) {buf : Bytes} {points : List Point}
    {last : PathPoints} (yields : iterator.Yields ⟨Int32.ofNat count, buf⟩ points last) :
    points.length ≤ count ∧ last.remaining = Int32.ofNat (count - points.length) ∧
      buf.length = last.buf.length + 16 * points.length := by
  induction points generalizing count buf with
  | nil =>
      cases yields
      exact ⟨Nat.zero_le count, rfl, rfl⟩
  | cons point points ih =>
      cases yields with
      | cons step rest =>
          cases count with
          | zero =>
              change (PathPoints.mk (Int32.ofNat 0) buf).next.run = _ at step
              have zero : Int32.ofNat 0 = 0 := rfl
              rw [PathPoints.next, if_pos zero] at step
              split at step <;> cases step
          | succ count =>
              change (PathPoints.mk (Int32.ofNat (count + 1)) buf).next.run = _ at step
              rw [next_succ small] at step
              obtain ⟨read, first, final⟩ := checked_bind_ok.mp step
              cases final
              have size := readPoint_front (Option.some.inj first)
              obtain ⟨few, remaining, left⟩ := ih (by omega) rest
              rw [List.length_cons]
              refine ⟨by omega, ?_, by omega⟩
              rw [remaining, Nat.succ_sub_succ]

theorem next_zero (buf : Bytes) : (PathPoints.mk (Int32.ofNat 0) buf).next.run =
    if buf = [] then some (.ok none)
    else some (.error (.text "invalid message length: path points not drained")) := by
  have zero : Int32.ofNat 0 = 0 := rfl
  rw [PathPoints.next, if_pos zero]
  by_cases empty : buf = []
  · rw [if_neg (not_not_intro empty), if_pos empty]
    rfl
  · rw [if_pos empty, if_neg empty]
    rfl

theorem collect_ofNat {count : Nat} (small : count < 2 ^ 31) {buf : Bytes}
    (long : 16 * count ≤ buf.length) :
    (buf.length = 16 * count ∧ ∃ points, points.length = count ∧
        iterator.collect ⟨Int32.ofNat count, buf⟩ = some (.ok points)) ∨
      buf.length ≠ 16 * count ∧
        ∃ error, iterator.collect ⟨Int32.ofNat count, buf⟩ = some (.error error) := by
  obtain ⟨points, size, yields⟩ := exists_yields small long
  have step := next_zero (buf.drop (16 * count))
  by_cases whole : buf.length = 16 * count
  · rw [if_pos (List.drop_of_length_le (Nat.le_of_eq whole))] at step
    exact .inl ⟨whole, points, size, yields.collect_all step⟩
  · have more : buf.drop (16 * count) ≠ [] := by
      rw [ne_eq, List.drop_eq_nil_iff]
      omega
    rw [if_neg more] at step
    refine .inr ⟨whole, .text "invalid message length: path points not drained", ?_⟩
    rw [yields.collect, FallibleIterator.collect_error step]
    rfl

/-! ### Exactly when points are decoded as they should be -/

/-- With a hint that fits and a line string that is what draining answers, the bytes of all
announced points are there. -/
theorem fits_of_decodes {closed : UInt8} {number : Int32} {rest : Bytes}
    (decodes : Decodes (closed :: (i32Wire number ++ rest))) :
    0 ≤ number.toInt ∧ 16 * number.toInt ≤ rest.length := by
  obtain ⟨exact, hints, same⟩ := decodes
  have path := pathFromSql_announced closed number rest
  have size : (Path.mk (closed != 0) number rest).pathPoints.sizeHint = asUsize number := rfl
  by_cases natural : 0 ≤ number.toInt
  · have hint := hints _ _ _ path .nil
    have left : (Path.mk (closed != 0) number rest).pathPoints.buf = rest := rfl
    rw [size, left, asUsize_of_nonnegative natural] at hint
    exact ⟨natural, by omega⟩
  · have least := number.le_toInt
    have large : ¬16 * asUsize number < 2 ^ 63 := by
      rw [asUsize]
      omega
    have panics : (lineStringFromSql (closed :: (i32Wire number ++ rest))).run = none := by
      rw [lineStringFromSql, path, checked_ok, size, withCapacity, if_neg large]
      rfl
    rw [panics] at same
    obtain ⟨_, _, _, read, _⟩ | ⟨_, _, read⟩ := exact
    · rw [← same] at read
      cases read
    · rw [← same] at read
      cases read

/-- What is too short for a count is an error. -/
theorem decodes_of_error {raw : Bytes} {error : BoxError} (failed : pathFromSql raw = .error error)
    (silent : ∀ count rest, ¬Announces raw count rest) : Decodes raw := by
  have drained : (drainPoints raw).run = some (.error error) := by
    rw [drainPoints, failed]
    rfl
  refine ⟨.inr ⟨fun formed => ?_, error, drained⟩, fun path _ _ read _ => ?_, ?_⟩
  · obtain ⟨count, ⟨rest, announces⟩, _, _⟩ := formed
    exact silent count rest announces
  · rw [failed] at read
    cases read
  · rw [lineStringFromSql, drained, failed]
    rfl

section

variable {count : Nat} (small : count < 2 ^ 31) (closed : UInt8) {rest : Bytes}
  (long : 16 * count ≤ rest.length)

theorem drainPoints_ofNat :
    (drainPoints (closed :: (i32Wire (Int32.ofNat count) ++ rest))).run =
      iterator.collect ⟨Int32.ofNat count, rest⟩ := by
  rw [drainPoints, pathFromSql_announced closed (Int32.ofNat count) rest, checked_ok]
  rfl

include small

theorem announces_ofNat {other : Int} {tail : Bytes}
    (announces : Announces (closed :: (i32Wire (Int32.ofNat count) ++ rest)) other tail) :
    other = count := by
  obtain ⟨second, number, same, rfl⟩ := announces
  obtain ⟨numbers, rfl⟩ := List.append_inj (List.cons.inj same).2 rfl
  have read := readI32_wire number []
  rw [← numbers, readI32_wire] at read
  rw [← (Prod.mk.inj (Except.ok.inj read)).1, Int32.toInt_ofNat_of_lt small]

theorem hintsFit_ofNat (long : 16 * count ≤ rest.length) :
    HintsFit (closed :: (i32Wire (Int32.ofNat count) ++ rest)) := by
  intro other points state read yields
  rw [pathFromSql_announced closed (Int32.ofNat count) rest] at read
  cases read
  obtain ⟨few, remaining, left⟩ := @yields_left count small rest points state yields
  have hint := (ofNat_nonnegative (show count - points.length < 2 ^ 31 by omega)).2
  rw [PathPoints.sizeHint, remaining, hint]
  omega

theorem lineStringFromSql_ofNat :
    (lineStringFromSql (closed :: (i32Wire (Int32.ofNat count) ++ rest))).run =
      iterator.collect ⟨Int32.ofNat count, rest⟩ := by
  have room : 16 * (Path.mk (closed != 0) (Int32.ofNat count) rest).pathPoints.sizeHint <
      2 ^ 63 := by
    change 16 * asUsize (Int32.ofNat count) < 2 ^ 63
    rw [(ofNat_nonnegative small).2]
    omega
  rw [lineStringFromSql, pathFromSql_announced closed (Int32.ofNat count) rest, checked_ok,
    withCapacity, if_pos room]
  rfl

include long

theorem readsExactly_ofNat : ReadsExactly (closed :: (i32Wire (Int32.ofNat count) ++ rest)) := by
  have value : (Int32.ofNat count).toInt = count := Int32.toInt_ofNat_of_lt small
  have size : (closed :: (i32Wire (Int32.ofNat count) ++ rest)).length = 5 + rest.length := by
    rw [List.length_cons, List.length_append, i32Wire_length]
    omega
  rw [ReadsExactly, drainPoints_ofNat]
  obtain ⟨whole, points, number, read⟩ | ⟨more, error, failed⟩ := collect_ofNat small long
  · refine .inl ⟨count, points, ⟨⟨rest, closed, _, rfl, value⟩, by omega, ?_⟩, read, by omega⟩
    rw [size]
    omega
  · refine .inr ⟨fun formed => ?_, error, failed⟩
    obtain ⟨other, ⟨tail, announces⟩, _, length⟩ := formed
    obtain rfl := announces_ofNat small closed announces
    rw [size] at length
    omega

end

/-- Points are decoded as they should be exactly if the count, where there is one, is not
negative and the bytes of all announced points are there. -/
theorem decodes_iff (raw : Bytes) :
    Decodes raw ↔ ∀ count rest, Announces raw count rest → 0 ≤ count ∧ 16 * count ≤ rest.length := by
  constructor
  · intro decodes count rest announces
    obtain ⟨closed, number, rfl, rfl⟩ := announces
    exact fits_of_decodes decodes
  · intro fits
    obtain ⟨⟨error, failed⟩, silent⟩ | ⟨closed, number, rest, rfl⟩ := pathFromSql_cases raw
    · exact decodes_of_error failed silent
    · obtain ⟨natural, long⟩ := fits _ rest ⟨closed, number, rfl, rfl⟩
      obtain ⟨count, small, rfl, _⟩ := exists_length natural
      rw [Int32.toInt_ofNat_of_lt small] at long
      have enough : 16 * count ≤ rest.length := by omega
      refine ⟨readsExactly_ofNat small closed enough, hintsFit_ofNat small closed enough, ?_⟩
      rw [lineStringFromSql_ofNat small, drainPoints_ofNat]

/-- The least count overflows when it is counted down. -/
theorem not_decodes : ¬Decodes [0, 128, 0, 0, 0] := by
  intro decodes
  have panics : (drainPoints [0, 128, 0, 0, 0]).run = none := FallibleIterator.collect_panic rfl
  rcases decodes.1 with ⟨_, _, _, read, _⟩ | ⟨_, _, read⟩
  · rw [panics] at read
    cases read
  · rw [panics] at read
    cases read

end OpenGauss.Protocol.PathSql
