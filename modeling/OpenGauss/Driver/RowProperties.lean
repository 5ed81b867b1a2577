import OpenGauss.Driver.Row

/-! Reading a row panics exactly when the server has sent fewer fields than the
row has columns. -/

set_option autoImplicit false

namespace OpenGauss.Driver

open Protocol Protocol.Backend Lib

/-! ### The ranges of a body -/

/-- A range that can be cut out of `storage`. -/
def Range.Inside (storage : Bytes) (range : Range) : Prop :=
  range.start ≤ range.stop ∧ range.stop ≤ storage.length

theorem slice?_inside {storage : Bytes} {range : Range} (inside : range.Inside storage) :
    ∃ bytes, slice? storage range = some bytes :=
  ⟨_, if_pos inside⟩

theorem readI32_shorter {buf rest : Bytes} {value : Int}
    (read : Buffer.readI32 buf = .ok (value, rest)) : rest.length ≤ buf.length := by
  simp only [Buffer.readI32, Buffer.readExact, bind, StateT.bind, Except.bind] at read
  split at read
  · cases read
  · next short =>
      split at short
      · cases short
      · cases short
        cases read
        rw [List.length_drop]
        exact Nat.sub_le ..

namespace DataRowRanges

/-- What a step of the iterator answers, and what it leaves. -/
theorem next_some {self after : DataRowRanges} {range : Option Range}
    (stepped : self.next = .ok (some (range, after))) (fits : self.buf.length ≤ self.len) :
    self.remaining = after.remaining + 1 ∧ after.len = self.len ∧ after.buf.length ≤ after.len ∧
      ∀ found ∈ range, found.start ≤ found.stop ∧ found.stop ≤ self.len := by
  obtain ⟨buf, len, remaining⟩ := self
  unfold next at stepped
  cases remaining with
  | zero =>
      dsimp only at stepped
      split at stepped <;> cases stepped
  | succ remaining =>
      dsimp only at stepped fits
      cases read : Buffer.readI32 buf with
      | error error =>
          rw [read] at stepped
          cases stepped
      | ok result =>
          obtain ⟨count, rest⟩ := result
          have shorter := readI32_shorter read
          rw [read] at stepped
          dsimp only at stepped
          split at stepped
          · cases stepped
            exact ⟨rfl, rfl, Nat.le_trans shorter fits, fun _ found => by cases found⟩
          · split at stepped
            · cases stepped
            · next enough =>
                cases stepped
                refine ⟨rfl, rfl, ?_, ?_⟩
                · dsimp only
                  rw [List.length_drop]
                  omega
                · intro found member
                  cases member
                  exact ⟨Nat.le_add_right .., by dsimp only; omega⟩

theorem next_none {self : DataRowRanges} (stepped : self.next = .ok none) :
    self.remaining = 0 := by
  obtain ⟨buf, len, remaining⟩ := self
  unfold next at stepped
  cases remaining with
  | zero => rfl
  | succ remaining =>
      dsimp only at stepped
      cases read : Buffer.readI32 buf with
      | error error =>
          rw [read] at stepped
          cases stepped
      | ok result =>
          rw [read] at stepped
          dsimp only at stepped
          split at stepped
          · cases stepped
          · split at stepped <;> cases stepped

theorem collect_ok {fuel : Nat} {self : DataRowRanges} {ranges : List (Option Range)}
    (collected : self.collect fuel = .ok ranges) (fits : self.buf.length ≤ self.len)
    (enough : self.remaining < fuel) :
    ranges.length = self.remaining ∧
      ∀ range, some range ∈ ranges → range.start ≤ range.stop ∧ range.stop ≤ self.len := by
  induction fuel generalizing self ranges with
  | zero => exact absurd enough (Nat.not_lt_zero _)
  | succ fuel ih =>
      rw [collect] at collected
      cases stepped : self.next with
      | error error =>
          rw [stepped] at collected
          cases collected
      | ok answer =>
          rw [stepped] at collected
          cases answer with
          | none =>
              cases collected
              exact ⟨(next_none stepped).symm, fun _ member => absurd member List.not_mem_nil⟩
          | some found =>
              obtain ⟨range, after⟩ := found
              dsimp only at collected
              obtain ⟨counts, same, keeps, inside⟩ := next_some stepped fits
              cases rest : after.collect fuel with
              | error error =>
                  rw [rest] at collected
                  cases collected
              | ok later =>
                  rw [rest] at collected
                  cases collected
                  obtain ⟨long, others⟩ := ih rest keeps (by omega)
                  refine ⟨by rw [List.length_cons, long, counts], ?_⟩
                  intro other member
                  cases member with
                  | head => exact inside other rfl
                  | tail _ member => exact same ▸ others other member

end DataRowRanges

/-- One range for each field that the message announces, all of them within it. -/
theorem ranges_ok {body : CountedBody} {found : List (Option Range)}
    (collected : ranges body = .ok found) :
    found.length = body.len ∧ ∀ range, some range ∈ found → range.Inside body.storage :=
  DataRowRanges.collect_ok collected (Nat.le_refl _) (Nat.lt_succ_self _)

/-! ### Looking a column up -/

namespace RowIndex

theorem idx_lt {columns : List (List Char)} {index : RowIndex} {found : Nat}
    (resolved : index.idx columns = some found) : found < columns.length := by
  cases index with
  | index number =>
      simp only [idx] at resolved
      split at resolved
      · cases resolved
      · next inside =>
          cases resolved
          exact Nat.lt_of_not_le inside
  | name name =>
      simp only [idx] at resolved
      split at resolved
      · next exactly =>
          cases resolved
          exact (List.findIdx?_eq_some_iff_findIdx_eq.mp exactly).1
      · exact (List.findIdx?_eq_some_iff_findIdx_eq.mp resolved).1

theorem idx_index {columns : List (List Char)} {number : Nat} (inside : number < columns.length) :
    (RowIndex.index number).idx columns = some number :=
  if_neg (Nat.not_le.mpr inside)

end RowIndex

/-! ### Reading -/

section

variable {Ty Value Cause : Type}

namespace Row

theorem new_ok {columns : List (Column Ty)} {body : CountedBody} {row : Row Ty}
    (made : (Row.new columns body : Except (RowError Cause) _) = .ok row) :
    row.columns = columns ∧ row.ranges.length = body.len ∧
      ∀ range, some range ∈ row.ranges → range.Inside row.body.storage := by
  unfold Row.new at made
  cases collected : Driver.ranges body with
  | error error =>
      rw [collected] at made
      cases made
  | ok found =>
      rw [collected] at made
      cases made
      obtain ⟨long, inside⟩ := ranges_ok collected
      exact ⟨rfl, long, inside⟩

/-- The buffer of a column is there exactly when the message has that field. -/
theorem colBuffer_isSome {row : Row Ty} {idx : Nat}
    (inside : ∀ range, some range ∈ row.ranges → range.Inside row.body.storage) :
    (row.colBuffer idx).isSome ↔ idx < row.ranges.length := by
  constructor
  · intro read
    apply Classical.byContradiction
    intro outside
    have missing : row.ranges[idx]? = none := List.getElem?_eq_none (Nat.le_of_not_lt outside)
    simp only [colBuffer, missing, bind, Option.bind] at read
    cases read
  · intro enough
    have present : row.ranges[idx]? = some row.ranges[idx] := List.getElem?_eq_getElem enough
    simp only [colBuffer, present, bind, Option.bind]
    cases found : row.ranges[idx] with
    | none => rfl
    | some range =>
        obtain ⟨bytes, cut⟩ := slice?_inside (inside range (found ▸ List.getElem_mem enough))
        dsimp only
        rw [cut]
        rfl

theorem getInner_isSome {row : Row Ty} {fromSql : FromSql Ty Value Cause} {index : RowIndex}
    {idx : Nat} {column : Column Ty}
    (resolved : index.idx (row.columns.map Column.name) = some idx)
    (found : row.columns[idx]? = some column) :
    (row.getInner fromSql index).isSome ↔
      (fromSql.accepts column.type = true → (row.colBuffer idx).isSome) := by
  simp only [getInner, resolved, found, bind, Option.bind]
  cases accepted : fromSql.accepts column.type with
  | false => exact ⟨fun _ impossible => (by cases impossible), fun _ => rfl⟩
  | true =>
      cases buffer : row.colBuffer idx with
      | none => exact ⟨fun read _ => read, fun read => read rfl⟩
      | some bytes => exact ⟨fun _ _ => rfl, fun _ => rfl⟩

theorem tryGet_unknown {row : Row Ty} {fromSql : FromSql Ty Value Cause} {index : RowIndex}
    (unknown : index.idx (row.columns.map Column.name) = none) :
    row.tryGet fromSql index = some (.error (.column index.display)) := by
  simp only [tryGet, getInner, unknown]
  rfl

/-- Reading a row answers for every index exactly when each column that the
conversion accepts has a field. -/
theorem tryGet_total {row : Row Ty} {fromSql : FromSql Ty Value Cause}
    (inside : ∀ range, some range ∈ row.ranges → range.Inside row.body.storage) :
    (∀ index, (row.tryGet fromSql index).isSome) ↔
      ∀ idx column, row.columns[idx]? = some column → fromSql.accepts column.type = true →
        idx < row.ranges.length := by
  constructor
  · intro total idx column found accepted
    have bound : idx < (row.columns.map Column.name).length := by
      rw [List.length_map]
      exact (List.getElem?_eq_some_iff.mp found).1
    have read := (getInner_isSome (RowIndex.idx_index bound) found).mp (total (.index idx))
    exact (colBuffer_isSome inside).mp (read accepted)
  · intro covered index
    cases resolved : index.idx (row.columns.map Column.name) with
    | none =>
        rw [tryGet_unknown resolved]
        rfl
    | some idx =>
        have bound := RowIndex.idx_lt resolved
        rw [List.length_map] at bound
        have found : row.columns[idx]? = some row.columns[idx] := List.getElem?_eq_getElem bound
        apply (getInner_isSome resolved found).mpr
        intro accepted
        exact (colBuffer_isSome inside).mpr (covered idx _ found accepted)

end Row

namespace SimpleQueryRow

theorem new_ok {columns : List (List Char)} {body : CountedBody} {row : SimpleQueryRow}
    (made : (SimpleQueryRow.new columns body : Except (RowError Cause) _) = .ok row) :
    row.columns = columns ∧ row.ranges.length = body.len ∧
      ∀ range, some range ∈ row.ranges → range.Inside row.body.storage := by
  unfold SimpleQueryRow.new at made
  cases collected : Driver.ranges body with
  | error error =>
      rw [collected] at made
      cases made
  | ok found =>
      rw [collected] at made
      cases made
      obtain ⟨long, inside⟩ := ranges_ok collected
      exact ⟨rfl, long, inside⟩

theorem getInner_isSome {row : SimpleQueryRow} {index : RowIndex} {idx : Nat}
    (inside : ∀ range, some range ∈ row.ranges → range.Inside row.body.storage)
    (resolved : index.idx row.columns = some idx) :
    (row.getInner index).isSome ↔ idx < row.ranges.length := by
  simp only [getInner, resolved, bind, Option.bind]
  by_cases enough : idx < row.ranges.length
  · have present : row.ranges[idx]? = some row.ranges[idx] := List.getElem?_eq_getElem enough
    rw [present]
    refine ⟨fun _ => enough, fun _ => ?_⟩
    cases found : row.ranges[idx] with
    | none => rfl
    | some range =>
        obtain ⟨bytes, cut⟩ := slice?_inside (inside range (found ▸ List.getElem_mem enough))
        dsimp only
        rw [cut]
        rfl
  · rw [List.getElem?_eq_none (Nat.le_of_not_lt enough)]
    exact ⟨fun impossible => (by cases impossible), fun inside => absurd inside enough⟩

theorem tryGet_total {row : SimpleQueryRow}
    (inside : ∀ range, some range ∈ row.ranges → range.Inside row.body.storage) :
    (∀ index, (row.tryGet index).isSome) ↔ row.columns.length ≤ row.ranges.length := by
  constructor
  · intro total
    apply Nat.le_of_not_lt
    intro short
    have read := (getInner_isSome inside (RowIndex.idx_index short)).mp (total _)
    exact absurd read (Nat.lt_irrefl _)
  · intro covered index
    cases resolved : index.idx row.columns with
    | none =>
        simp only [tryGet, getInner, resolved]
        rfl
    | some idx =>
        apply (getInner_isSome inside resolved).mpr
        exact Nat.lt_of_lt_of_le (RowIndex.idx_lt resolved) covered

end SimpleQueryRow

/-! ### What the message has to do with the statement -/

/-- `try_get` answers for every index, on the row that `new` makes: for a row of a
statement when every column that the conversion accepts has a field in the
message, for a row of a simple query when every column has. -/
theorem tryGet_never_panics_iff (columns : List (Column Ty)) (names : List (List Char))
    (body : CountedBody) :
    (∀ row, (Row.new columns body : Except (RowError Cause) _) = .ok row →
        ∀ fromSql : FromSql Ty Value Cause,
          (∀ index, (row.tryGet fromSql index).isSome) ↔
            ∀ idx column, columns[idx]? = some column → fromSql.accepts column.type = true →
              idx < body.len) ∧
      ∀ row, (SimpleQueryRow.new names body : Except (RowError Cause) _) = .ok row →
        ((∀ index, (row.tryGet index).isSome) ↔ names.length ≤ body.len) := by
  constructor
  · intro row made fromSql
    obtain ⟨same, long, inside⟩ := Row.new_ok made
    rw [← same, ← long]
    exact Row.tryGet_total inside
  · intro row made
    obtain ⟨same, long, inside⟩ := SimpleQueryRow.new_ok made
    rw [← same, ← long]
    exact SimpleQueryRow.tryGet_total inside

/-- A message with the field that the one column asks for. -/
theorem tryGet_never_panics_iff_one :
    let body : CountedBody := ⟨[0, 0, 0, 1, 55], 1⟩
    let text : FromSql Nat (Option Bytes) Empty := ⟨fun _ => true, fun _ buf => .ok buf⟩
    (∃ row, (Row.new [⟨['a'], 25⟩] body : Except (RowError Empty) _) = .ok row ∧
        ∀ index, (row.tryGet text index).isSome) ∧
      ∃ row, (SimpleQueryRow.new [['a']] body : Except (RowError Empty) _) = .ok row ∧
        ∀ index, (row.tryGet index).isSome := by
  intro body text
  have holds := @tryGet_never_panics_iff Nat (Option Bytes) Empty [⟨['a'], 25⟩] [['a']] body
  refine ⟨⟨_, rfl, (holds.1 _ rfl text).mpr ?_⟩, ⟨_, rfl, (holds.2 _ rfl).mpr (by decide)⟩⟩
  intro idx column found _
  exact (List.getElem?_eq_some_iff.mp found).1

/-- The statement has two columns and the message one field: reading the second
column is a panic. -/
theorem tryGet_panics_short_message :
    ¬ (∀ (columns : List (Column Nat)) (body : CountedBody) (row : Row Nat)
          (fromSql : FromSql Nat (Option Bytes) Empty) (index : RowIndex),
        (Row.new columns body : Except (RowError Empty) _) = .ok row →
          (row.tryGet fromSql index).isSome) := by
  intro total
  have read := total [⟨['a'], 25⟩, ⟨['b'], 25⟩] ⟨[255, 255, 255, 255], 1⟩ _
    ⟨fun _ => true, fun _ buf => .ok buf⟩ (.index 1) rfl
  revert read
  decide +kernel

end

end OpenGauss.Driver
