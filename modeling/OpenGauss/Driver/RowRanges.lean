import OpenGauss.Driver.RowProperties

/-! The ranges of a data row (`opengauss-protocol`, `message/backend.rs`) cut its
fields out of the storage, and are there exactly when it consists of fields. -/

set_option autoImplicit false

namespace OpenGauss.Driver

open Protocol Protocol.Backend

/-- A field as a server sends it. Every negative length is a NULL. -/
inductive DataField : Bytes → Option Bytes → Prop where
  | null {word : Bytes} (four : word.length = 4) (negative : asI32 (beNat word) < 0) :
      DataField word none
  | value {word bytes : Bytes} (four : word.length = 4)
      (count : asI32 (beNat word) = bytes.length) : DataField (word ++ bytes) (some bytes)

/-- A storage that is nothing but fields. -/
inductive DataFields : Bytes → List (Option Bytes) → Prop where
  | nil : DataFields [] []
  | cons {front tail : Bytes} {value : Option Bytes} {values : List (Option Bytes)}
      (field : DataField front value) (rest : DataFields tail values) :
      DataFields (front ++ tail) (value :: values)

/-! ### The iterator with its panics -/

/-- A subtraction of `usize`; `none` is a panic. -/
def subUsize? (first second : Nat) : Option Nat :=
  if second ≤ first then some (first - second) else none

namespace DataRowRanges

/-- `next`; `none` is a panic. -/
def next? (self : DataRowRanges) : Option (Except IoError (Option (Option Range × DataRowRanges))) :=
  match self.remaining with
  | 0 =>
      if self.buf.isEmpty then some (.ok none)
      else some (.error ⟨.invalidInput, "invalid message length: datarowrange is not empty"⟩)
  | remaining + 1 =>
      match Buffer.readI32 self.buf with
      | .error error => some (.error error)
      | .ok (len, buf) =>
          if len < 0 then some (.ok (some (none, { self with buf, remaining })))
          else
            let len := len.toNat
            if buf.length < len then some (.error unexpectedEof)
            else do
              let base ← subUsize? self.len buf.length
              let buf ← slice? buf ⟨len, buf.length⟩
              return .ok (some (some ⟨base, base + len⟩, { self with buf, remaining }))

/-- `collect`; `none` is a panic. -/
def collect? : Nat → DataRowRanges → Option (Except IoError (List (Option Range)))
  | 0, _ => some (.ok [])
  | fuel + 1, self => do
      match ← self.next? with
      | .error error => return .error error
      | .ok none => return .ok []
      | .ok (some (range, self)) => return (← collect? fuel self).map (range :: ·)

end DataRowRanges

/-- `body.ranges().collect()`; `none` is a panic. -/
def ranges? (body : CountedBody) : Option (Except IoError (List (Option Range))) :=
  (DataRowRanges.ofBody body).collect? (body.len + 1)

/-! ### A field in front of the buffer -/

theorem readI32_append {word : Bytes} (four : word.length = 4) (rest : Bytes) :
    Buffer.readI32 (word ++ rest) = .ok (asI32 (beNat word), rest) := by
  have enough : ¬(word ++ rest).length < 4 := by
    rw [List.length_append]
    omega
  have front : (word ++ rest).take 4 = word := by rw [← four, List.take_left]
  have tail : (word ++ rest).drop 4 = rest := by rw [← four, List.drop_left]
  simp only [Buffer.readI32, Buffer.readExact, bind, StateT.bind, Except.bind, if_neg enough, front,
    tail]
  rfl

theorem readI32_ok {buf rest : Bytes} {value : Int}
    (read : Buffer.readI32 buf = .ok (value, rest)) :
    ∃ word, word.length = 4 ∧ buf = word ++ rest ∧ value = asI32 (beNat word) := by
  by_cases short : buf.length < 4
  · simp only [Buffer.readI32, Buffer.readExact, bind, StateT.bind, Except.bind, if_pos short] at read
    cases read
  · have four : (buf.take 4).length = 4 := by
      rw [List.length_take]
      omega
    have read' := readI32_append four (buf.drop 4)
    rw [List.take_append_drop, read] at read'
    cases read'
    exact ⟨buf.take 4, four, (List.take_append_drop 4 buf).symm, rfl⟩

theorem slice?_suffix {front tail : Bytes} :
    slice? (front ++ tail) ⟨front.length, (front ++ tail).length⟩ = some tail := by
  rw [slice?, if_pos ⟨by rw [List.length_append]; exact Nat.le_add_right .., Nat.le_refl _⟩,
    List.take_length, List.drop_left]

/-- Where a field stands that is sent from `position` on. -/
def rangeAt (position : Nat) : Option Bytes → Option Range
  | none => none
  | some bytes => some ⟨position + 4, position + 4 + bytes.length⟩

namespace DataRowRanges

theorem next?_field {front tail : Bytes} {value : Option Bytes} (field : DataField front value)
    (position remaining : Nat) :
    next? ⟨front ++ tail, position + (front ++ tail).length, remaining + 1⟩ =
      some (.ok (some (rangeAt position value,
        ⟨tail, position + (front ++ tail).length, remaining⟩))) := by
  unfold next?
  cases field with
  | null four negative =>
      dsimp only
      rw [readI32_append four tail]
      dsimp only
      rw [if_pos negative]
      rfl
  | @value word bytes four count =>
      dsimp only
      rw [List.append_assoc word bytes tail, readI32_append four (bytes ++ tail)]
      dsimp only
      have length : (word ++ (bytes ++ tail)).length = 4 + (bytes ++ tail).length := by
        rw [List.length_append, four]
      rw [count, if_neg (by omega), Int.toNat_natCast, if_neg (by rw [List.length_append]; omega),
        slice?_suffix, length, subUsize?, if_pos (by omega)]
      have base : position + (4 + (bytes ++ tail).length) - (bytes ++ tail).length = position + 4 := by
        omega
      rw [base]
      rfl

/-- An answer comes of a field that stands in front. -/
theorem next?_ok {self after : DataRowRanges} {range : Option Range}
    (stepped : self.next? = some (.ok (some (range, after)))) :
    ∃ front value, DataField front value ∧ self.buf = front ++ after.buf ∧ after.len = self.len ∧
      self.remaining = after.remaining + 1 := by
  obtain ⟨buf, len, remaining⟩ := self
  unfold next? at stepped
  cases remaining with
  | zero =>
      dsimp only at stepped
      split at stepped <;> cases stepped
  | succ remaining =>
      dsimp only at stepped ⊢
      cases read : Buffer.readI32 buf with
      | error error =>
          rw [read] at stepped
          cases stepped
      | ok result =>
          obtain ⟨count, rest⟩ := result
          obtain ⟨word, four, same, value⟩ := readI32_ok read
          rw [read] at stepped
          dsimp only at stepped
          split at stepped
          · next negative =>
              cases stepped
              exact ⟨word, none, .null four (value ▸ negative), same, rfl, rfl⟩
          · next counted =>
              split at stepped
              · cases stepped
              · next enough =>
                  have split : rest = rest.take count.toNat ++ rest.drop count.toNat :=
                    (List.take_append_drop ..).symm
                  have taken : (rest.take count.toNat).length = count.toNat := by
                    rw [List.length_take]
                    omega
                  have cut : slice? rest ⟨count.toNat, rest.length⟩ = some (rest.drop count.toNat) := by
                    rw [slice?, if_pos ⟨Nat.le_of_not_lt enough, Nat.le_refl _⟩, List.take_length]
                  rw [cut] at stepped
                  cases based : subUsize? len rest.length with
                  | none =>
                      rw [based] at stepped
                      cases stepped
                  | some base =>
                      rw [based] at stepped
                      cases stepped
                      refine ⟨word ++ rest.take count.toNat, some (rest.take count.toNat),
                        .value four ?_, ?_, rfl, rfl⟩
                      · rw [taken, ← value]
                        omega
                      · rw [List.append_assoc, ← split, same]

theorem next?_end {self : DataRowRanges} (stepped : self.next? = some (.ok none)) :
    self.buf = [] ∧ self.remaining = 0 := by
  obtain ⟨buf, len, remaining⟩ := self
  unfold next? at stepped
  cases remaining with
  | zero =>
      dsimp only at stepped
      split at stepped
      · next empty => exact ⟨List.isEmpty_iff.mp empty, rfl⟩
      · cases stepped
  | succ remaining =>
      dsimp only at stepped
      cases read : Buffer.readI32 buf with
      | error error =>
          rw [read] at stepped
          cases stepped
      | ok result =>
          rw [read] at stepped
          dsimp only at stepped
          split at stepped
          · cases stepped
          · split at stepped
            · cases stepped
            · obtain ⟨base, _, stepped⟩ := Option.bind_eq_some_iff.mp stepped
              obtain ⟨rest, _, stepped⟩ := Option.bind_eq_some_iff.mp stepped
              cases stepped

/-- As long as the buffer is a part of the storage nothing panics. -/
theorem next?_next {self : DataRowRanges} (fits : self.buf.length ≤ self.len) :
    self.next? = some self.next := by
  obtain ⟨buf, len, remaining⟩ := self
  unfold next? next
  cases remaining with
  | zero =>
      dsimp only
      split <;> rfl
  | succ remaining =>
      dsimp only at fits ⊢
      cases read : Buffer.readI32 buf with
      | error error => rfl
      | ok result =>
          obtain ⟨count, rest⟩ := result
          have shorter := readI32_shorter read
          dsimp only
          split
          · rfl
          · split
            · rfl
            · next enough =>
                rw [subUsize?, if_pos (Nat.le_trans shorter fits), slice?,
                  if_pos ⟨Nat.le_of_not_lt enough, Nat.le_refl _⟩, List.take_length]
                rfl

end DataRowRanges

/-! ### The ranges of all fields -/

/-- Where the fields stand that are sent from `position` on. -/
def place : Nat → List (Option Bytes) → List (Option Range)
  | _, [] => []
  | position, none :: values => none :: place (position + 4) values
  | position, some bytes :: values =>
      some ⟨position + 4, position + 4 + bytes.length⟩ ::
        place (position + 4 + bytes.length) values

theorem place_cons {front : Bytes} {value : Option Bytes} (field : DataField front value)
    (position : Nat) (values : List (Option Bytes)) :
    place position (value :: values) =
      rangeAt position value :: place (position + front.length) values := by
  cases field with
  | null four negative => rw [place, rangeAt, four]
  | value four count => rw [place, rangeAt, List.length_append, four, Nat.add_assoc position]

theorem place_length (position : Nat) (values : List (Option Bytes)) :
    (place position values).length = values.length := by
  induction values generalizing position with
  | nil => rfl
  | cons value values ih =>
      cases value with
      | none => exact congrArg (· + 1) (ih _)
      | some bytes => exact congrArg (· + 1) (ih _)

/-- The ranges stand behind `position`, one behind the other. -/
theorem place_increasing (position : Nat) (values : List (Option Bytes)) :
    (∀ range, some range ∈ place position values → position < range.start) ∧
      ((place position values).filterMap id).Pairwise fun first second =>
        first.stop < second.start := by
  induction values generalizing position with
  | nil => exact ⟨fun _ member => absurd member List.not_mem_nil, .nil⟩
  | cons value values ih =>
      cases value with
      | none =>
          obtain ⟨behind, increasing⟩ := ih (position + 4)
          refine ⟨fun range member => ?_, increasing⟩
          cases member with
          | tail _ member => exact Nat.lt_of_le_of_lt (Nat.le_add_right ..) (behind range member)
      | some bytes =>
          obtain ⟨behind, increasing⟩ := ih (position + 4 + bytes.length)
          refine ⟨fun range member => ?_, .cons (fun range member => ?_) increasing⟩
          · cases member with
            | head => exact Nat.lt_add_of_pos_right (by decide)
            | tail _ member =>
                have later := behind range member
                omega
          · obtain ⟨found, member, same⟩ := List.mem_filterMap.mp member
            exact behind range (same ▸ member)

/-- What a range cuts out of the storage, with NULL as its own. -/
def cut (storage : Bytes) : Option Range → Option (Option Bytes)
  | none => some none
  | some range => (slice? storage range).map some

theorem cut_rangeAt {front tail : Bytes} {value : Option Bytes} (field : DataField front value)
    (before : Bytes) : cut (before ++ (front ++ tail)) (rangeAt before.length value) = some value := by
  cases field with
  | null four negative => rfl
  | @value word bytes four count =>
      have inside : before.length + 4 + bytes.length ≤
          (before ++ (word ++ bytes ++ tail)).length := by
        simp only [List.length_append]
        omega
      have split : before ++ (word ++ bytes ++ tail) = (before ++ word) ++ bytes ++ tail := by
        simp only [List.append_assoc]
      have start : before.length + 4 = (before ++ word).length := by rw [List.length_append, four]
      rw [rangeAt, cut, slice?, if_pos ⟨Nat.le_add_right .., inside⟩, split, start,
        ← List.length_append, List.take_left, List.drop_left]
      rfl

theorem cut_place {buf : Bytes} {values : List (Option Bytes)} (fields : DataFields buf values)
    (before : Bytes) :
    (place before.length values).map (cut (before ++ buf)) = values.map some := by
  induction fields generalizing before with
  | nil => rfl
  | @cons front tail value values field rest ih =>
      have later := ih (before ++ front)
      rw [List.length_append, List.append_assoc] at later
      rw [place_cons field, List.map_cons, cut_rangeAt field, later, List.map_cons]

namespace DataRowRanges

theorem collect?_fields {buf : Bytes} {values : List (Option Bytes)} (fields : DataFields buf values)
    (position : Nat) :
    collect? (values.length + 1) ⟨buf, position + buf.length, values.length⟩ =
      some (.ok (place position values)) := by
  induction fields generalizing position with
  | nil => rfl
  | @cons front tail value values field rest ih =>
      have later := ih (position + front.length)
      rw [Nat.add_assoc, ← List.length_append] at later
      rw [List.length_cons, collect?, next?_field field]
      dsimp only [bind, Option.bind]
      rw [later, place_cons field]
      rfl

theorem collect?_ok {fuel : Nat} {self : DataRowRanges} {ranges : List (Option Range)}
    (collected : self.collect? fuel = some (.ok ranges)) (enough : self.remaining < fuel) :
    ∃ values, DataFields self.buf values ∧ values.length = self.remaining := by
  induction fuel generalizing self ranges with
  | zero => exact absurd enough (Nat.not_lt_zero _)
  | succ fuel ih =>
      rw [collect?] at collected
      obtain ⟨answer, stepped, collected⟩ := Option.bind_eq_some_iff.mp collected
      cases answer with
      | error error => cases collected
      | ok answer =>
          cases answer with
          | none =>
              obtain ⟨empty, counts⟩ := next?_end stepped
              exact ⟨[], empty ▸ .nil, counts.symm⟩
          | some found =>
              obtain ⟨range, after⟩ := found
              obtain ⟨front, value, field, same, _, counts⟩ := next?_ok stepped
              dsimp only at collected
              obtain ⟨result, rest, collected⟩ := Option.bind_eq_some_iff.mp collected
              cases result with
              | error error => cases collected
              | ok later =>
                  obtain ⟨values, fields, long⟩ := ih rest (by omega)
                  exact ⟨value :: values, same ▸ .cons field fields, by
                    rw [List.length_cons, long, counts]⟩

theorem collect?_collect {fuel : Nat} {self : DataRowRanges} (fits : self.buf.length ≤ self.len) :
    self.collect? fuel = some (self.collect fuel) := by
  induction fuel generalizing self with
  | zero => rfl
  | succ fuel ih =>
      have stepped := next?_next fits
      rw [collect?, collect, stepped]
      cases answered : self.next with
      | error error => rfl
      | ok answer =>
          cases answer with
          | none => rfl
          | some found =>
              obtain ⟨range, after⟩ := found
              obtain ⟨_, same, shorter, _⟩ := next_some answered fits
              dsimp only [bind, Option.bind]
              rw [ih shorter]
              rfl

end DataRowRanges

/-! ### Decoding a body -/

/-- The ranges of a storage, one for each of the fields. -/
structure Locates (storage : Bytes) (ranges : List (Option Range))
    (values : List (Option Bytes)) : Prop where
  counts : ranges.length = values.length
  inside : ∀ range, some range ∈ ranges → range.Inside storage
  increasing : (ranges.filterMap id).Pairwise fun first second => first.stop < second.start
  slices : ranges.map (cut storage) = values.map some

theorem inside_of_cut {storage : Bytes} {range : Range} {value : Option Bytes}
    (found : cut storage (some range) = some value) : range.Inside storage := by
  rw [cut, slice?] at found
  split at found
  · next inside => exact inside
  · cases found

theorem locates_place {buf : Bytes} {values : List (Option Bytes)} (fields : DataFields buf values)
    (before : Bytes) : Locates (before ++ buf) (place before.length values) values where
  counts := place_length before.length values
  inside := fun range member => by
    have found := List.mem_map_of_mem (f := cut (before ++ buf)) member
    rw [cut_place fields] at found
    obtain ⟨value, _, same⟩ := List.mem_map.mp found
    exact inside_of_cut same.symm
  increasing := (place_increasing before.length values).2
  slices := cut_place fields before

/-- No body makes the iterator panic. -/
theorem ranges?_ranges (body : CountedBody) : ranges? body = some (ranges body) :=
  DataRowRanges.collect?_collect (Nat.le_refl _)

theorem ranges?_fields {body : CountedBody} {values : List (Option Bytes)}
    (fields : DataFields body.storage values) (counts : values.length = body.len) :
    ranges? body = some (.ok (place 0 values)) := by
  have collected := DataRowRanges.collect?_fields fields 0
  rw [Nat.zero_add, counts] at collected
  exact collected

theorem fields_of_ranges? {body : CountedBody} {ranges : List (Option Range)}
    (answered : ranges? body = some (.ok ranges)) :
    ∃ values, DataFields body.storage values ∧ values.length = body.len :=
  DataRowRanges.collect?_ok answered (Nat.lt_succ_self _)

/-- The ranges of a body are there exactly when the storage consists of as many
fields as the message declares, and then they are where these fields stand. Any
other body is an error. -/
theorem ranges?_iff (body : CountedBody) :
    ((∃ ranges, ranges? body = some (.ok ranges)) ↔
      ∃ values, DataFields body.storage values ∧ values.length = body.len) ∧
    (∀ ranges, ranges? body = some (.ok ranges) →
      ∃ values, DataFields body.storage values ∧ values.length = body.len ∧
        Locates body.storage ranges values) ∧
    ((¬∃ ranges, ranges? body = some (.ok ranges)) →
      ∃ error, ranges? body = some (.error error)) := by
  refine ⟨⟨fun ⟨_, answered⟩ => fields_of_ranges? answered, ?_⟩, ?_, ?_⟩
  · intro ⟨values, fields, counts⟩
    exact ⟨_, ranges?_fields fields counts⟩
  · intro ranges answered
    obtain ⟨values, fields, counts⟩ := fields_of_ranges? answered
    rw [ranges?_fields fields counts] at answered
    cases answered
    exact ⟨values, fields, counts, locates_place fields []⟩
  · intro refused
    rw [ranges?_ranges] at refused ⊢
    cases collected : ranges body with
    | error error => exact ⟨error, rfl⟩
    | ok found => exact absurd ⟨found, by rw [collected]⟩ refused

/-- One field of one byte and a NULL, and the same with a byte behind them. -/
theorem ranges?_iff_two :
    (∃ values, DataFields [0, 0, 0, 1, 65, 255, 255, 255, 254] values ∧ values.length = 2 ∧
      Locates [0, 0, 0, 1, 65, 255, 255, 255, 254] [some ⟨4, 5⟩, none] values) ∧
    ∃ error, ranges? ⟨[0, 0, 0, 1, 65, 255, 255, 255, 254, 0], 2⟩ = some (.error error) := by
  have answered : ranges? ⟨[0, 0, 0, 1, 65, 255, 255, 255, 254], 2⟩ =
      some (.ok [some ⟨4, 5⟩, none]) := by decide +kernel
  refine ⟨(ranges?_iff ⟨[0, 0, 0, 1, 65, 255, 255, 255, 254], 2⟩).2.1 _ answered,
    (ranges?_iff ⟨[0, 0, 0, 1, 65, 255, 255, 255, 254, 0], 2⟩).2.2 ?_⟩
  have refused : ranges? ⟨[0, 0, 0, 1, 65, 255, 255, 255, 254, 0], 2⟩ =
      some (.error ⟨.invalidInput, "invalid message length: datarowrange is not empty"⟩) := by
    decide +kernel
  intro ⟨ranges, answered⟩
  rw [refused] at answered
  cases answered

end OpenGauss.Driver
