import OpenGauss.Protocol.HstoreSql

/-! The entries of an HSTORE: they are read back as they were written, and reading
panics exactly at a length that is greater than what is left. -/

set_option autoImplicit false

namespace OpenGauss.Protocol.HstoreSql

open Lib ArraySql

/-! ### One call -/

theorem EntryBytes.nonempty {entry : Entry} {front : Bytes} (bytes : EntryBytes entry front) :
    0 < front.length := by
  obtain ⟨fits, _⟩ := bytes
  rw [List.length_append, pascal, List.length_append, be32_length]
  omega

theorem HstoreEntries.next_shorter {self rest : HstoreEntries} {entry : Entry}
    (step : self.next.run = some (.ok (some (entry, rest)))) :
    rest.buf.length < self.buf.length := by
  rw [HstoreEntries.next] at step
  split at step
  · split at step <;> cases step
  · obtain ⟨remaining, _, step⟩ := checked_bind_ok.mp step
    obtain ⟨read, first, last⟩ := checked_bind_ok.mp step
    cases last
    obtain ⟨front, same, bytes⟩ := readEntry_ok_iff.mp first
    have more := bytes.nonempty
    rw [same, List.length_append]
    dsimp only
    omega

/-- The entries as an iterator. -/
def iterator : FallibleIterator HstoreEntries Entry BoxError where
  next self := self.next.run
  size self := self.buf.length
  shorter := HstoreEntries.next_shorter

/-- Draining the entries of a value. -/
def collectEntries (raw : Bytes) : Checked (List Entry) := do
  let entries ← ExceptT.mk (some (hstoreFromSql raw))
  ExceptT.mk (iterator.collect entries)

abbrev HashMap := Text → Option (Option Text)

def HashMap.insert (map : HashMap) (entry : Entry) : HashMap :=
  fun key => if key = entry.1 then some entry.2 else map key

/-- `HashMap::from_sql`. -/
def hashMapFromSql (raw : Bytes) : Checked HashMap := do
  return (← collectEntries raw).foldl HashMap.insert fun _ => none

theorem next_succ {count : Nat} (small : count + 1 < 2 ^ 31) (buf : Bytes) :
    (HstoreEntries.mk (Int32.ofNat (count + 1)) buf).next =
      readEntry buf >>= fun read => return some (read.1, ⟨Int32.ofNat count, read.2⟩) := by
  rw [HstoreEntries.next, if_neg (ofNat_succ_ne_zero small), checkedPred_succ small, checked_lift]

theorem next_zero_ok_iff {buf : Bytes} :
    (HstoreEntries.mk (Int32.ofNat 0) buf).next.run = some (.ok none) ↔ buf = [] := by
  have zero : Int32.ofNat 0 = 0 := rfl
  rw [HstoreEntries.next, if_pos zero]
  by_cases empty : buf = []
  · rw [if_neg (not_not_intro empty)]
    exact iff_of_true rfl empty
  · rw [if_pos empty]
    exact iff_of_false (fun same => by cases same) empty

theorem next_zero_stops {buf : Bytes} {answer : Entry × HstoreEntries} :
    (HstoreEntries.mk (Int32.ofNat 0) buf).next.run ≠ some (.ok (some answer)) ∧
      (HstoreEntries.mk (Int32.ofNat 0) buf).next.run ≠ none := by
  have zero : Int32.ofNat 0 = 0 := rfl
  rw [HstoreEntries.next, if_pos zero]
  split
  · exact ⟨fun same => (by cases same), fun same => (by cases same)⟩
  · exact ⟨fun same => (by cases same), fun same => (by cases same)⟩

theorem next_none_iff {count : Nat} (small : count < 2 ^ 31) {buf : Bytes} :
    (HstoreEntries.mk (Int32.ofNat count) buf).next.run = none ↔ 0 < count ∧ Overrun buf := by
  cases count with
  | zero =>
      exact iff_of_false (@next_zero_stops buf (([], none), ⟨0, []⟩)).2
        fun both => Nat.lt_irrefl 0 both.1
  | succ count =>
      rw [next_succ small, checked_bind_none, readEntry_none_iff, and_iff_right (Nat.succ_pos count)]
      refine or_iff_left fun found => ?_
      obtain ⟨_, _, panics⟩ := found
      cases panics

/-! ### Runs -/

/-- The entries that are handed out are those in front. -/
theorem yields_iff {count : Nat} (small : count < 2 ^ 31) {buf : Bytes} {entries : List Entry}
    {last : HstoreEntries} :
    iterator.Yields ⟨Int32.ofNat count, buf⟩ entries last ↔
      ∃ front rest, buf = front ++ rest ∧ EntriesBytes entries front ∧
        entries.length ≤ count ∧ last = ⟨Int32.ofNat (count - entries.length), rest⟩ := by
  induction entries generalizing count buf with
  | nil =>
      constructor
      · intro yields
        cases yields
        exact ⟨[], buf, rfl, .nil, Nat.zero_le count, rfl⟩
      · intro stands
        obtain ⟨front, rest, rfl, nothing, _, rfl⟩ := stands
        cases nothing
        exact .nil
  | cons entry entries ih =>
      cases count with
      | zero =>
          refine iff_of_false (fun yields => ?_) fun stands => ?_
          · cases yields with
            | cons step rest => exact next_zero_stops.1 step
          · obtain ⟨_, _, _, _, few, _⟩ := stands
            exact absurd few (Nat.not_succ_le_zero _)
      | succ count =>
          have lower : count + 1 - (entry :: entries).length = count - entries.length := by
            rw [List.length_cons]
            omega
          constructor
          · intro yields
            cases yields with
            | cons step rest =>
                change (HstoreEntries.mk (Int32.ofNat (count + 1)) buf).next.run = _ at step
                rw [next_succ small] at step
                obtain ⟨read, first, final⟩ := checked_bind_ok.mp step
                cases final
                obtain ⟨front, rfl, bytes⟩ := readEntry_ok_iff.mp first
                obtain ⟨others, tail, same, shape, few, rfl⟩ := (ih (by omega)).mp rest
                refine ⟨front ++ others, tail, ?_, .cons bytes shape, Nat.succ_le_succ few, ?_⟩
                · rw [same, List.append_assoc]
                · rw [lower]
          · intro stands
            obtain ⟨front, rest, rfl, shape, few, rfl⟩ := stands
            cases shape with
            | @cons _ _ first others bytes shape =>
                have fewer : entries.length ≤ count := Nat.le_of_succ_le_succ few
                refine .cons ?_ ((ih (by omega)).mpr
                  ⟨others, rest, rfl, shape, fewer, by rw [lower]⟩)
                change (HstoreEntries.mk (Int32.ofNat (count + 1)) _).next.run = _
                rw [next_succ small, List.append_assoc]
                exact checked_bind_ok.mpr ⟨(entry, others ++ rest),
                  readEntry_ok_iff.mpr ⟨first, rfl, bytes⟩, rfl⟩

/-! ### What is written -/

def valueWire : Option Text → Bytes
  | some value => pascal value
  | none => i32Wire (-1)

def entryWire (entry : Entry) : Bytes := pascal entry.1 ++ valueWire entry.2

/-- An entry whose lengths can be written. -/
def FitsEntry (entry : Entry) : Prop := FitsText entry.1 ∧ ∀ value ∈ entry.2, FitsText value

theorem entriesBytes_wire {entries : List Entry} (fits : ∀ entry ∈ entries, FitsEntry entry) :
    EntriesBytes entries (entries.flatMap entryWire) := by
  induction entries with
  | nil => exact .nil
  | cons entry entries ih =>
      have first := fits entry List.mem_cons_self
      have others := ih fun other member => fits other (List.mem_cons_of_mem _ member)
      obtain ⟨key, value⟩ := entry
      refine .cons (.mk first.1 ?_) others
      cases value with
      | none => exact .missing (by decide)
      | some text => exact .text (first.2 text rfl)

theorem ok_writePascalString {text : Text} (fits : FitsText text) (buf : Bytes) :
    Builder.Ok (writePascalString text) buf () (buf ++ pascal text) := by
  refine Builder.ok_bind.mpr ⟨_, _, ok_i32FromUsize.mpr ⟨fits, rfl, rfl⟩, ?_⟩
  refine Builder.ok_bind.mpr ⟨(), _, ok_putI32.mpr rfl, ok_putSlice.mpr ?_⟩
  rw [toNat_ofNat_of_lt fits, List.append_assoc]
  rfl

theorem ok_writeValue {value : Option Text} (fits : ∀ text ∈ value, FitsText text) (buf : Bytes) :
    Builder.Ok (writeValue value) buf () (buf ++ valueWire value) := by
  cases value with
  | none => exact ok_putI32.mpr rfl
  | some text => exact ok_writePascalString (fits text rfl) buf

theorem ok_writeEntries {entries : List Entry} (fits : ∀ entry ∈ entries, FitsEntry entry)
    (count : Nat) (buf : Bytes) :
    Builder.Ok (entries.foldlM (fun count entry => do
        writePascalString entry.1
        writeValue entry.2
        return count + 1) count : Put BoxError Nat)
      buf (count + entries.length) (buf ++ entries.flatMap entryWire) := by
  induction entries generalizing count buf with
  | nil =>
      rw [List.foldlM_nil]
      exact Builder.ok_pure.mpr ⟨rfl, List.append_nil buf⟩
  | cons entry entries ih =>
      have first := fits entry List.mem_cons_self
      have others := ih fun other member => fits other (List.mem_cons_of_mem _ member)
      have written : buf ++ (entry :: entries).flatMap entryWire =
          buf ++ pascal entry.1 ++ valueWire entry.2 ++ entries.flatMap entryWire := by
        rw [List.flatMap_cons, entryWire, List.append_assoc, List.append_assoc, List.append_assoc]
      have number : count + (entry :: entries).length = count + 1 + entries.length := by
        rw [List.length_cons]
        omega
      rw [List.foldlM_cons, written, number]
      refine Builder.ok_bind.mpr ⟨count + 1, _, ?_, others (count + 1) _⟩
      refine Builder.ok_bind.mpr ⟨(), _, ok_writePascalString first.1 buf, ?_⟩
      refine Builder.ok_bind.mpr ⟨(), _, ok_writeValue first.2 _, Builder.ok_pure.mpr ⟨rfl, rfl⟩⟩

theorem ok_hstoreToSql {entries : List Entry} (fits : ∀ entry ∈ entries, FitsEntry entry)
    (few : entries.length < 2 ^ 31) (buf : Bytes) :
    Builder.Ok (hstoreToSql entries) buf ()
      (buf ++ (be32 entries.length ++ entries.flatMap entryWire)) := by
  refine Builder.ok_bind.mpr ⟨_, _, ok_len.mpr ⟨rfl, rfl⟩, ?_⟩
  refine Builder.ok_bind.mpr ⟨(), _, ok_putI32.mpr rfl, ?_⟩
  refine Builder.ok_bind.mpr ⟨_, _, ok_writeEntries fits 0 _, ?_⟩
  refine Builder.ok_bind.mpr ⟨_, _, ok_i32FromUsize.mpr ⟨by omega, rfl, rfl⟩, ok_writeI32.mpr ?_⟩
  rw [Nat.zero_add, toNat_ofNat_of_lt few, ← List.append_assoc]
  exact (overwrite_be32 buf (entries.flatMap entryWire) entries.length).symm

theorem hstoreFromSql_count {count : Nat} (small : count < 2 ^ 31) (buf : Bytes) :
    hstoreFromSql (be32 count ++ buf) = .ok ⟨Int32.ofNat count, buf⟩ := by
  rw [← i32Wire_ofNat small, hstoreFromSql, readI32_wire]
  exact if_neg (ofNat_nonnegative small).1

/-- Written behind anything, the entries come back in their order, each with its value or
without one, and nothing behind them. -/
theorem yields_hstoreToSql {entries : List Entry} (fits : ∀ entry ∈ entries, FitsEntry entry)
    (few : entries.length < 2 ^ 31) (buf : Bytes) :
    ∃ raw start last, Builder.Ok (hstoreToSql entries) buf () (buf ++ raw) ∧
      hstoreFromSql raw = .ok start ∧ iterator.Yields start entries last ∧
      last.next.run = some (.ok none) ∧ (collectEntries raw).run = some (.ok entries) := by
  have read := hstoreFromSql_count few (entries.flatMap entryWire)
  have yields : iterator.Yields ⟨Int32.ofNat entries.length, entries.flatMap entryWire⟩ entries
      ⟨Int32.ofNat 0, []⟩ :=
    (yields_iff few).mpr ⟨_, [], (List.append_nil _).symm, entriesBytes_wire fits, Nat.le_refl _,
      by rw [Nat.sub_self]⟩
  have ends : (HstoreEntries.mk (Int32.ofNat 0) []).next.run = some (.ok none) :=
    next_zero_ok_iff.mpr rfl
  refine ⟨_, _, _, ok_hstoreToSql fits few buf, read, yields, ends, ?_⟩
  rw [collectEntries, read]
  exact yields.collect_all ends

theorem yields_hstoreToSql_two :
    ∃ raw start last, Builder.Ok (hstoreToSql [(['k'], some []), (['m'], none)]) [7] () ([7] ++ raw) ∧
      hstoreFromSql raw = .ok start ∧
      iterator.Yields start [(['k'], some []), (['m'], none)] last ∧
      last.next.run = some (.ok none) ∧
      (collectEntries raw).run = some (.ok [(['k'], some []), (['m'], none)]) :=
  have one (char : Char) : FitsText [char] := by
    have few := char.utf8Size_le_four
    rw [FitsText, Utf8.encode, List.flatMap_singleton, String.length_utf8EncodeChar]
    omega
  have empty : FitsText [] := by decide
  have first : FitsEntry (['k'], some []) :=
    ⟨one 'k', fun _ same => Option.mem_some.mp same ▸ empty⟩
  have second : FitsEntry (['m'], none) :=
    ⟨one 'm', fun value same => absurd same (Option.not_mem_none value)⟩
  yields_hstoreToSql (List.forall_mem_cons.mpr
    ⟨first, List.forall_mem_cons.mpr ⟨second, List.forall_mem_nil _⟩⟩) (by decide) [7]

/-! ### Panics -/

/-- Neither draining the entries nor reading them into a map panics. -/
def NeverPanics (raw : Bytes) : Prop :=
  (∃ result, (collectEntries raw).run = some result) ∧
    ∃ result, (hashMapFromSql raw).run = some result

/-- Behind the count and fewer entries than it announces, a length is greater than what
is left. -/
def Overruns (raw : Bytes) : Prop :=
  ∃ count entries front rest, count < 2 ^ 31 ∧ raw = be32 count ++ (front ++ rest) ∧
    EntriesBytes entries front ∧ entries.length < count ∧ Overrun rest

theorem collect_none_iff {count : Nat} (small : count < 2 ^ 31) {buf : Bytes} :
    iterator.collect ⟨Int32.ofNat count, buf⟩ = none ↔
      ∃ entries front rest, buf = front ++ rest ∧ EntriesBytes entries front ∧
        entries.length < count ∧ Overrun rest := by
  rw [FallibleIterator.collect_none_iff]
  constructor
  · intro reaches
    obtain ⟨entries, last, yields, panics⟩ := reaches
    obtain ⟨front, rest, same, shape, few, rfl⟩ := (yields_iff small).mp yields
    obtain ⟨more, overrun⟩ := (next_none_iff (by omega)).mp panics
    exact ⟨entries, front, rest, same, shape, by omega, overrun⟩
  · intro stands
    obtain ⟨entries, front, rest, same, shape, fewer, overrun⟩ := stands
    exact ⟨entries, _, (yields_iff small).mpr ⟨front, rest, same, shape, Nat.le_of_lt fewer, rfl⟩,
      (next_none_iff (by omega)).mpr ⟨by omega, overrun⟩⟩

theorem hstoreFromSql_ok {raw : Bytes} {start : HstoreEntries}
    (read : hstoreFromSql raw = .ok start) : ∃ count, count < 2 ^ 31 ∧
      raw = be32 count ++ start.buf ∧ start = ⟨Int32.ofNat count, start.buf⟩ := by
  rw [hstoreFromSql] at read
  cases first : readI32 raw with
  | error error =>
      rw [first] at read
      cases read
  | ok found =>
      obtain ⟨len, rest⟩ := found
      obtain rfl := readI32_front first
      rw [first] at read
      change (if len < 0 then _ else _) = _ at read
      split at read
      · cases read
      · next natural =>
          cases read
          obtain ⟨count, small, rfl, _⟩ := exists_length (not_negative.mp natural)
          exact ⟨count, small, by rw [i32Wire_ofNat small], rfl⟩

theorem collectEntries_none_iff {raw : Bytes} :
    (collectEntries raw).run = none ↔ Overruns raw := by
  rw [collectEntries, checked_bind_none]
  constructor
  · intro panics
    cases panics with
    | inl same => cases same
    | inr found =>
        obtain ⟨start, read, panics⟩ := found
        obtain ⟨count, small, same, shape⟩ := hstoreFromSql_ok (Option.some.inj read)
        rw [shape] at panics
        obtain ⟨entries, front, rest, split, bytes, fewer, overrun⟩ :=
          (collect_none_iff small).mp panics
        exact ⟨count, entries, front, rest, small, by rw [same, split], bytes, fewer, overrun⟩
  · intro overruns
    obtain ⟨count, entries, front, rest, small, rfl, bytes, fewer, overrun⟩ := overruns
    exact .inr ⟨_, congrArg some (hstoreFromSql_count small _),
      (collect_none_iff small).mpr ⟨entries, front, rest, rfl, bytes, fewer, overrun⟩⟩

theorem hashMapFromSql_none_iff {raw : Bytes} :
    (hashMapFromSql raw).run = none ↔ (collectEntries raw).run = none := by
  rw [hashMapFromSql, checked_bind_none]
  refine or_iff_left fun found => ?_
  obtain ⟨_, _, panics⟩ := found
  cases panics

theorem exists_iff_ne_none {Value : Type} {result : Option Value} :
    (∃ value, result = some value) ↔ ¬result = none := by
  rw [← ne_eq, Option.ne_none_iff_exists']

/-- Reading an HSTORE panics exactly if a key or value length is greater than what is
left behind it, where an entry is still to come. -/
theorem neverPanics_iff (raw : Bytes) : NeverPanics raw ↔ ¬Overruns raw := by
  rw [NeverPanics, exists_iff_ne_none, exists_iff_ne_none, hashMapFromSql_none_iff, and_self,
    collectEntries_none_iff]

/-- One entry is announced, with a key of five bytes, and nothing follows. -/
theorem not_neverPanics : ¬NeverPanics [0, 0, 0, 1, 0, 0, 0, 5] := by
  intro never
  obtain ⟨result, collected⟩ := never.1
  have panics : (collectEntries [0, 0, 0, 1, 0, 0, 0, 5]).run = none :=
    FallibleIterator.collect_panic rfl
  rw [panics] at collected
  cases collected

end OpenGauss.Protocol.HstoreSql
