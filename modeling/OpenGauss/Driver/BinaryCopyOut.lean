import OpenGauss.Driver.BinaryCopyIn

/-! What the stream of a binary copy reads: the rows that the writer has sent, and
of any other chunks rows, errors or the end, unless one more column than an `i16`
can count is announced. -/

set_option autoImplicit false

namespace OpenGauss.Driver.BinaryCopy

open Lib Protocol

/-! ### Reading from a cursor -/

theorem bind_ok {Value Next : Type} {first : CursorM Value} {rest : Value → CursorM Next}
    {cursor after : Cursor} {value : Value} (ran : first cursor = .ok (value, after)) :
    (first >>= rest) cursor = rest value after := by
  simp only [bind, StateT.bind, ran, Except.bind]

theorem bind_error {Value Next : Type} {first : CursorM Value} {rest : Value → CursorM Next}
    {cursor : Cursor} {reason : Halt} (ran : first cursor = .error reason) :
    (first >>= rest) cursor = .error reason := by
  simp only [bind, StateT.bind, ran, Except.bind]

theorem get_ok (cursor : Cursor) : (get : CursorM Cursor) cursor = .ok (cursor, cursor) := rfl

/-- A cursor that stands between two parts of its buffer. -/
def between (front rest : Bytes) : Cursor := ⟨front ++ rest, front.length⟩

theorem remaining_between (front rest : Bytes) : (between front rest).remaining = rest.length := by
  rw [between, Cursor.remaining, List.length_append, Nat.add_sub_cancel_left]

theorem chunk_between (front rest : Bytes) : (between front rest).chunk = rest := by
  rw [between, Cursor.chunk, List.drop_left]

theorem checkRemaining_ok {front rest : Bytes} {len : Nat} (enough : len ≤ rest.length) :
    checkRemaining len (between front rest) = .ok ((), between front rest) := by
  rw [checkRemaining, remaining_between, if_neg (Nat.not_lt.mpr enough)]

theorem checkRemaining_error {front rest : Bytes} {len : Nat} (short : rest.length < len) :
    checkRemaining len (between front rest) = .error (.error (.parse unexpectedEof)) := by
  rw [checkRemaining, remaining_between, if_pos short]

theorem advance_between {front bytes rest : Bytes} {count : Nat} (long : bytes.length = count) :
    advance count (between front (bytes ++ rest)) = .ok ((), between (front ++ bytes) rest) := by
  have enough : ¬(bytes ++ rest).length < count := by
    rw [List.length_append]
    omega
  rw [advance, remaining_between, if_neg enough, between, between, List.length_append, long,
    List.append_assoc]

theorem getWord_between {front word rest : Bytes} {size : Nat} (long : word.length = size) :
    getWord size (between front (word ++ rest)) =
      .ok (beNat word, between (front ++ word) rest) := by
  have taken : (word ++ rest).take size = word := by rw [← long, List.take_left]
  rw [getWord, bind_ok (get_ok _), bind_ok (advance_between long), chunk_between, taken]
  rfl

theorem getI16_between {front word rest : Bytes} (two : word.length = 2) :
    getI16 (between front (word ++ rest)) =
      .ok (asI16 (beNat word), between (front ++ word) rest) := by
  simp only [getI16, bind, StateT.bind, getWord_between two, Except.bind]
  rfl

theorem getI32_between {front word rest : Bytes} (four : word.length = 4) :
    getI32 (between front (word ++ rest)) =
      .ok (asI32 (beNat word), between (front ++ word) rest) := by
  simp only [getI32, bind, StateT.bind, getWord_between four, Except.bind]
  rfl

/-- The first bytes of what is left, when there are enough. -/
theorem split_at {rest : Bytes} {count : Nat} (enough : count ≤ rest.length) :
    ∃ bytes tail, rest = bytes ++ tail ∧ bytes.length = count :=
  ⟨rest.take count, rest.drop count, (List.take_append_drop ..).symm, by
    rw [List.length_take, Nat.min_eq_left enough]⟩

/-! ### The fields -/

theorem readRanges_null {count : Nat} {front word rest : Bytes} (four : word.length = 4)
    (null : asI32 (beNat word) = -1) :
    readRanges (count + 1) (between front (word ++ rest)) =
      (readRanges count (between (front ++ word) rest)).map fun result =>
        (none :: result.1, result.2) := by
  rw [readRanges, bind_ok (checkRemaining_ok (by rw [List.length_append]; omega)),
    bind_ok (getI32_between four), if_pos null]
  cases later : readRanges count (between (front ++ word) rest) with
  | error reason => exact bind_error later
  | ok result => exact bind_ok later

theorem readRanges_value {count : Nat} {front word bytes rest : Bytes} (four : word.length = 4)
    (value : asI32 (beNat word) ≠ -1) (long : asUsize (asI32 (beNat word)) = bytes.length) :
    readRanges (count + 1) (between front (word ++ (bytes ++ rest))) =
      (readRanges count (between (front ++ word ++ bytes) rest)).map fun result =>
        (some ⟨front.length + 4, front.length + 4 + bytes.length⟩ :: result.1, result.2) := by
  have start : (between (front ++ word) (bytes ++ rest)).position = front.length + 4 := by
    rw [between, List.length_append, four]
  rw [readRanges, bind_ok (checkRemaining_ok (by rw [List.length_append]; omega)),
    bind_ok (getI32_between four), if_neg value, long]
  dsimp only
  rw [bind_ok (checkRemaining_ok (by rw [List.length_append]; omega))]
  rw [show ∀ next : Cursor → CursorM (List (Option Range)),
    ((get : CursorM Cursor) >>= next) (between (front ++ word) (bytes ++ rest)) =
      next (between (front ++ word) (bytes ++ rest)) (between (front ++ word) (bytes ++ rest))
    from fun _ => rfl, start, bind_ok (advance_between rfl)]
  cases later : readRanges count (between (front ++ word ++ bytes) rest) with
  | error reason => exact bind_error later
  | ok result => exact bind_ok later

/-- What the loop over the fields comes to: an end of the chunk that is too
early, or a range for each field. -/
inductive RangesRead (count : Nat) (front rest : Bytes) :
    Except Halt (List (Option Range) × Cursor) → Prop where
  | short : RangesRead count front rest (.error (.error (.parse unexpectedEof)))
  | read (ranges : List (Option Range)) (used tail : Bytes) (split : rest = used ++ tail)
      (counts : ranges.length = count)
      (inside : ∀ range, some range ∈ ranges → range.Inside (front ++ used)) :
      RangesRead count front rest (.ok (ranges, between (front ++ used) tail))

theorem Range.Inside.append {storage : Bytes} {range : Range} (inside : range.Inside storage)
    (tail : Bytes) : range.Inside (storage ++ tail) :=
  ⟨inside.1, by rw [List.length_append]; exact Nat.le_trans inside.2 (Nat.le_add_right ..)⟩

/-- One more field in front of those that are read behind it. -/
theorem RangesRead.cons {count : Nat} {front field rest : Bytes}
    {result : Except Halt (List (Option Range) × Cursor)} (range : Option Range)
    (later : RangesRead count (front ++ field) rest result)
    (inside : ∀ found ∈ range, found.Inside (front ++ field)) :
    RangesRead (count + 1) front (field ++ rest)
      (result.map fun found => (range :: found.1, found.2)) := by
  cases later with
  | short => exact .short
  | read ranges used tail split counts others =>
      have read : RangesRead (count + 1) front (field ++ rest)
          (.ok (range :: ranges, between (front ++ (field ++ used)) tail)) := by
        refine .read (range :: ranges) (field ++ used) tail (by rw [split, List.append_assoc])
          (congrArg (· + 1) counts) fun found member => ?_
        rw [← List.append_assoc]
        cases member with
        | head => exact Range.Inside.append (inside found rfl) used
        | tail _ member => exact others found member
      rw [← List.append_assoc] at read
      exact read

theorem readRanges_read (count : Nat) (front rest : Bytes) :
    RangesRead count front rest (readRanges count (between front rest)) := by
  induction count generalizing front rest with
  | zero =>
      have done : RangesRead 0 front rest (.ok ([], between (front ++ []) rest)) :=
        .read [] [] rest rfl rfl fun _ member => absurd member List.not_mem_nil
      rwa [List.append_nil] at done
  | succ count ih =>
      by_cases enough : 4 ≤ rest.length
      · obtain ⟨word, tail, rfl, four⟩ := split_at enough
        by_cases null : asI32 (beNat word) = -1
        · rw [readRanges_null four null]
          exact (ih (front ++ word) tail).cons none fun _ found => by cases found
        · by_cases long : asUsize (asI32 (beNat word)) ≤ tail.length
          · obtain ⟨bytes, tail, rfl, counted⟩ := split_at long
            have inside : Range.Inside (front ++ (word ++ bytes))
                ⟨front.length + 4, front.length + 4 + bytes.length⟩ := by
              refine ⟨Nat.le_add_right .., ?_⟩
              simp only [List.length_append]
              omega
            have read := (ih (front ++ (word ++ bytes)) tail).cons
              (some ⟨front.length + 4, front.length + 4 + bytes.length⟩)
              fun found same => by cases same; exact inside
            rw [readRanges_value four null counted.symm]
            rwa [List.append_assoc word bytes tail, ← List.append_assoc front word bytes] at read
          · have stops : readRanges (count + 1) (between front (word ++ tail)) =
                .error (.error (.parse unexpectedEof)) := by
              rw [readRanges, bind_ok (checkRemaining_ok (by rw [List.length_append]; omega)),
                bind_ok (getI32_between four), if_neg null]
              exact bind_error (checkRemaining_error (Nat.lt_of_not_le long))
            rw [stops]
            exact .short
      · have stops : readRanges (count + 1) (between front rest) =
            .error (.error (.parse unexpectedEof)) :=
          bind_error (checkRemaining_error (Nat.lt_of_not_le enough))
        rw [stops]
        exact .short

/-! ### A row -/

section

variable {Ty : Type}

/-- One range for each column, all of them inside the buffer. -/
structure WellFormed (row : BinaryCopyOutRow Ty) : Prop where
  counts : row.ranges.length = row.types.length
  inside : ∀ range, some range ∈ row.ranges → range.Inside row.buf

/-- A count of fields that `len += 1` cannot take. -/
def MaxCount (hasOids : Bool) (rest : Bytes) : Prop := hasOids = true ∧ [127, 255] <+: rest

/-- What reading a row comes to. -/
inductive RowRead (types : List Ty) (hasOids : Bool) (front rest : Bytes) :
    Except Halt (Option (BinaryCopyOutRow Ty) × Cursor) → Prop where
  | error (cause : Error) (counted : ¬MaxCount hasOids rest) :
      RowRead types hasOids front rest (.error (.error cause))
  | ended (after : Cursor) (counted : ¬MaxCount hasOids rest) :
      RowRead types hasOids front rest (.ok (none, after))
  | row (row : BinaryCopyOutRow Ty) (after : Cursor) (counted : ¬MaxCount hasOids rest)
      (same : row.types = types) (wellFormed : WellFormed row) :
      RowRead types hasOids front rest (.ok (some row, after))
  | overflow (most : MaxCount hasOids rest) :
      RowRead types hasOids front rest (.error .overflow)

theorem asI16_range {word : Bytes} (two : word.length = 2) :
    -(2 ^ 15) ≤ asI16 (beNat word) ∧ asI16 (beNat word) < 2 ^ 15 ∧
      (asI16 (beNat word) = 2 ^ 15 - 1 ↔ word = [127, 255]) := by
  obtain ⟨high, low, rfl⟩ := List.length_eq_two.mp two
  have big := high.toNat_lt
  have small := low.toNat_lt
  have value : beNat [high, low] = high.toNat * 256 + low.toNat := by simp [beNat]
  rw [value, asI16]
  refine ⟨by split <;> omega, by split <;> omega, ?_⟩
  constructor
  · intro most
    have first : high.toNat = 127 := by split at most <;> omega
    have second : low.toNat = 255 := by split at most <;> omega
    rw [UInt8.toNat_inj.mp (show high.toNat = (127 : UInt8).toNat from first),
      UInt8.toNat_inj.mp (show low.toNat = (255 : UInt8).toNat from second)]
  · intro same
    cases same
    decide

theorem maxCount_iff {hasOids : Bool} {word rest : Bytes} (two : word.length = 2) :
    MaxCount hasOids (word ++ rest) ↔
      hasOids = true ∧ asI16 (beNat word) = 2 ^ 15 - 1 := by
  rw [(asI16_range two).2.2, MaxCount]
  refine and_congr_right fun _ => ⟨fun ⟨tail, same⟩ => ?_, fun same => ?_⟩
  · exact (List.append_inj_left same two.symm).symm
  · rw [same]
    exact List.prefix_append _ _

theorem asUsize_of_nonneg {len : Int} (counted : 0 ≤ len) (small : len < 2 ^ 64) :
    asUsize len = len.toNat := by
  rw [asUsize, Int.emod_eq_of_lt counted small]

/-- A negative count is larger than any number of columns. -/
theorem asUsize_eq {len : Int} {count : Nat} (low : -(2 ^ 15) ≤ len) (high : len ≤ 2 ^ 15)
    (few : count ≤ 32767) (same : asUsize len = count) : len = count := by
  by_cases counted : 0 ≤ len
  · rw [asUsize_of_nonneg counted (by omega)] at same
    omega
  · rw [asUsize] at same
    omega

theorem readRow_counted {types : List Ty} {hasOids : Bool} {front word rest : Bytes} {len : Int}
    (two : word.length = 2) (more : asI16 (beNat word) ≠ -1)
    (counted : fieldCount hasOids (asI16 (beNat word)) (between (front ++ word) rest) =
      .ok (len, between (front ++ word) rest)) :
    readRow types hasOids (between front (word ++ rest)) =
      if asUsize len ≠ types.length then
        .error (.error (.parse ⟨.invalidInput,
          "expected " ++ toString types.length ++ " values but got " ++ toString len⟩))
      else
        (readRanges len.toNat (between (front ++ word) rest)).map fun result =>
          (some ⟨result.2.inner, result.1, types⟩, result.2) := by
  rw [readRow, bind_ok (checkRemaining_ok (by rw [List.length_append]; omega)),
    bind_ok (getI16_between two), if_neg more, bind_ok counted]
  split
  · rfl
  · cases later : readRanges len.toNat (between (front ++ word) rest) with
    | error reason => exact bind_error later
    | ok result => exact bind_ok later

theorem readRow_read {types : List Ty} (few : types.length ≤ 32767) (hasOids : Bool)
    (front rest : Bytes) :
    RowRead types hasOids front rest (readRow types hasOids (between front rest)) := by
  by_cases enough : 2 ≤ rest.length
  · obtain ⟨word, rest, rfl, two⟩ := split_at enough
    obtain ⟨low, high, _⟩ := asI16_range two
    by_cases last : asI16 (beNat word) = -1
    · have ended : readRow types hasOids (between front (word ++ rest)) =
          .ok (none, between (front ++ word) rest) := by
        rw [readRow, bind_ok (checkRemaining_ok (by rw [List.length_append]; omega)),
          bind_ok (getI16_between two), if_pos last]
        rfl
      rw [ended]
      refine .ended _ fun most => ?_
      have value := ((maxCount_iff two).mp most).2
      omega
    · by_cases most : MaxCount hasOids (word ++ rest)
      · obtain ⟨oids, value⟩ := (maxCount_iff two).mp most
        have stops : readRow types hasOids (between front (word ++ rest)) = .error .overflow := by
          rw [readRow, bind_ok (checkRemaining_ok (by rw [List.length_append]; omega)),
            bind_ok (getI16_between two), if_neg last, oids, value]
          rfl
        rw [stops]
        exact .overflow most
      · have counted : ∃ len : Int, -(2 ^ 15) ≤ len ∧ len ≤ 2 ^ 15 ∧
            fieldCount hasOids (asI16 (beNat word)) (between (front ++ word) rest) =
              .ok (len, between (front ++ word) rest) := by
          cases hasOids with
          | false => exact ⟨_, low, by omega, rfl⟩
          | true =>
              have value : asI16 (beNat word) ≠ 2 ^ 15 - 1 :=
                fun value => most ((maxCount_iff two).mpr ⟨rfl, value⟩)
              refine ⟨asI16 (beNat word) + 1, by omega, by omega, ?_⟩
              rw [fieldCount, if_pos rfl, if_pos (by omega)]
              rfl
        obtain ⟨len, above, below, counted⟩ := counted
        rw [readRow_counted two last counted]
        split
        · exact .error _ most
        · next same =>
            have exact := asUsize_eq above below few (Decidable.not_not.mp same)
            have long : len.toNat = types.length := by omega
            rw [long]
            have read := readRanges_read types.length (front ++ word) rest
            generalize readRanges types.length (between (front ++ word) rest) = result at read
            cases read with
            | short => exact .error _ most
            | read ranges used tail split counts inside =>
                refine .row _ _ most rfl ⟨counts, fun range member => ?_⟩
                exact Range.Inside.append (inside range member) tail
  · have stops : readRow types hasOids (between front rest) =
        .error (.error (.parse unexpectedEof)) :=
      bind_error (checkRemaining_error (Nat.lt_of_not_le enough))
    rw [stops]
    refine .error _ fun most => ?_
    have long := most.2.length_le
    exact absurd long (by rw [List.length_cons, List.length_singleton]; omega)

/-! ### The header -/

/-- A chunk that a header stands in front of, with what is behind it. -/
inductive Opens : Bytes → Header → Bytes → Prop where
  | header {flags word extension rest : Bytes} (four : flags.length = 4) (long : word.length = 4)
      (counted : extension.length = beNat word) :
      Opens (magic ++ (flags ++ (word ++ (extension ++ rest)))) ⟨(beNat flags).testBit 16⟩ rest

theorem Opens.unique {chunk first second : Bytes} {header other : Header}
    (left : Opens chunk header first) (right : Opens chunk other second) :
    header = other ∧ first = second := by
  generalize same : chunk = again at right
  cases left with
  | header four long counted =>
      cases right with
      | header four' long' counted' =>
          have rest := List.append_cancel_left same
          obtain ⟨rfl, behind⟩ := List.append_inj rest (four.trans four'.symm)
          obtain ⟨rfl, last⟩ := List.append_inj behind (long.trans long'.symm)
          obtain ⟨_, rfl⟩ := List.append_inj last (counted.trans counted'.symm)
          exact ⟨rfl, rfl⟩

/-- What reading the header comes to. -/
inductive HeaderRead (chunk : Bytes) : Except Halt (Header × Cursor) → Prop where
  | error (cause : Error) (other : ∀ header rest, ¬Opens chunk header rest) :
      HeaderRead chunk (.error (.error cause))
  | read (header : Header) (front rest : Bytes) (opens : Opens chunk header rest)
      (split : chunk = front ++ rest) : HeaderRead chunk (.ok (header, between front rest))

theorem readHeader_other {chunk : Bytes} (enough : headerLen ≤ chunk.length)
    (other : ¬magic <+: chunk) :
    readHeader (between [] chunk) =
      .error (.error (.parse ⟨.invalidData, "invalid magic value"⟩)) := by
  have differs : (!magic.isPrefixOf (between [] chunk).chunk) = true := by
    rw [chunk_between, Bool.not_eq_true', Bool.eq_false_iff]
    exact fun starts => other (List.isPrefixOf_iff_prefix.mp starts)
  rw [readHeader, bind_ok (checkRemaining_ok enough), bind_ok (get_ok _), if_pos differs]
  rfl

theorem readHeader_magic {flags word rest : Bytes} (four : flags.length = 4)
    (long : word.length = 4) :
    readHeader (between [] (magic ++ (flags ++ (word ++ rest)))) =
      if rest.length < beNat word then .error (.error (.parse unexpectedEof))
      else
        .ok (⟨(beNat flags).testBit 16⟩,
          between (magic ++ flags ++ word ++ rest.take (beNat word)) (rest.drop (beNat word))) := by
  have enough : headerLen ≤ (magic ++ (flags ++ (word ++ rest))).length := by
    simp only [List.length_append, headerLen]
    omega
  have starts : ¬(!magic.isPrefixOf (between [] (magic ++ (flags ++ (word ++ rest)))).chunk) = true := by
    rw [chunk_between, List.isPrefixOf_iff_prefix.mpr (List.prefix_append ..)]
    exact Bool.false_ne_true
  rw [readHeader, bind_ok (checkRemaining_ok enough), bind_ok (get_ok _), if_neg starts,
    bind_ok (advance_between rfl), bind_ok (getWord_between four)]
  rw [getU32, bind_ok (getWord_between long)]
  split
  · next short => exact bind_error (checkRemaining_error short)
  · next fits =>
      have taken : (rest.take (beNat word)).length = beNat word := by
        rw [List.length_take]
        omega
      have moved := @advance_between (magic ++ flags ++ word) (rest.take (beNat word))
        (rest.drop (beNat word)) (beNat word) taken
      rw [List.take_append_drop] at moved
      rw [bind_ok (checkRemaining_ok (Nat.le_of_not_lt fits))]
      exact bind_ok moved

theorem Opens.enough {chunk rest : Bytes} {header : Header} (opens : Opens chunk header rest) :
    headerLen ≤ chunk.length ∧ magic <+: chunk := by
  cases opens with
  | header four long counted =>
      refine ⟨?_, List.prefix_append ..⟩
      simp only [List.length_append, headerLen]
      omega

theorem readHeader_read (chunk : Bytes) : HeaderRead chunk (readHeader (between [] chunk)) := by
  by_cases enough : headerLen ≤ chunk.length
  · by_cases starts : magic <+: chunk
    · obtain ⟨rest, rfl⟩ := starts
      have eight : 8 ≤ rest.length := by
        rw [List.length_append, headerLen] at enough
        omega
      obtain ⟨flags, rest, rfl, four⟩ := split_at (show 4 ≤ rest.length by omega)
      rw [List.length_append, four] at eight
      obtain ⟨word, rest, rfl, long⟩ := split_at (show 4 ≤ rest.length by omega)
      rw [readHeader_magic four long]
      split
      · next short =>
          refine .error _ fun header tail opens => ?_
          generalize same : magic ++ (flags ++ (word ++ rest)) = chunk at opens
          cases opens with
          | header four' long' counted' =>
              have behind := List.append_cancel_left same
              obtain ⟨_, behind⟩ := List.append_inj behind (four.trans four'.symm)
              obtain ⟨rfl, last⟩ := List.append_inj behind (long.trans long'.symm)
              rw [last, List.length_append] at short
              omega
      · next fits =>
          have taken : (rest.take (beNat word)).length = beNat word := by
            rw [List.length_take]
            omega
          have opens := @Opens.header flags word (rest.take (beNat word)) (rest.drop (beNat word))
            four long taken
          rw [List.take_append_drop] at opens
          refine .read _ _ _ opens ?_
          simp only [List.append_assoc, List.take_append_drop]
    · rw [readHeader_other enough starts]
      exact .error _ fun header rest opens => starts opens.enough.2
  · have stops : readHeader (between [] chunk) = .error (.error (.parse unexpectedEof)) :=
      bind_error (checkRemaining_error (Nat.lt_of_not_le enough))
    rw [stops]
    exact .error _ fun header rest opens => enough opens.enough.1

/-! ### A poll -/

/-- The chunk announces one column more than an `i16` can count. -/
def Overflows (header : Option Header) (chunk : Bytes) : Prop :=
  match header with
  | some header => MaxCount header.hasOids chunk
  | none => ∃ header rest, Opens chunk header rest ∧ MaxCount header.hasOids rest

/-- What a poll answers: a row that is well formed, or no row at all. -/
def Answers (types : List Ty) (answer : Poll (Option (Except Error (BinaryCopyOutRow Ty)))) : Prop :=
  ∀ row, answer = .ready (some (.ok row)) → row.types = types ∧ WellFormed row

/-- What `poll_next` comes to. -/
inductive PolledOnce (self : BinaryCopyOutStream Ty) (polled : Poll (Option (Except Error Bytes))) :
    Polled Ty × BinaryCopyOutStream Ty → Prop where
  | answer (answer : Poll (Option (Except Error (BinaryCopyOutRow Ty))))
      (after : BinaryCopyOutStream Ty) (same : after.types = self.types)
      (counted : ∀ chunk, polled = .ready (some (.ok chunk)) → ¬Overflows self.header chunk)
      (answers : Answers self.types answer) : PolledOnce self polled (some answer, after)
  | overflow (chunk : Bytes) (after : BinaryCopyOutStream Ty)
      (given : polled = .ready (some (.ok chunk))) (most : Overflows self.header chunk) :
      PolledOnce self polled (none, after)

theorem answers_of_ne {types : List Ty} {answer : Poll (Option (Except Error (BinaryCopyOutRow Ty)))}
    (other : ∀ row, answer ≠ .ready (some (.ok row))) : Answers types answer :=
  fun row same => absurd same (other row)

theorem pollRow_polled {self after : BinaryCopyOutStream Ty} (few : self.types.length ≤ 32767)
    (same : after.types = self.types) (header : Header) {chunk front rest : Bytes}
    (most : MaxCount header.hasOids rest ↔ Overflows self.header chunk) :
    PolledOnce self (.ready (some (.ok chunk)))
      (after.pollRow header.hasOids (between front rest), after) := by
  have read : RowRead self.types header.hasOids front rest
      ((readRow self.types header.hasOids).run (between front rest)) :=
    readRow_read few header.hasOids front rest
  rw [BinaryCopyOutStream.pollRow, same]
  generalize (readRow self.types header.hasOids).run (between front rest) = result at read
  have counts (counted : ¬MaxCount header.hasOids rest) (other : Bytes)
      (given : Poll.ready (some (Except.ok chunk : Except Error Bytes)) = .ready (some (.ok other))) :
      ¬Overflows self.header other := by
    cases given
    exact fun overflows => counted (most.mpr overflows)
  cases read with
  | error cause counted =>
      exact .answer _ after same (counts counted) (answers_of_ne fun row other => by cases other)
  | ended cursor counted =>
      exact .answer _ after same (counts counted) (answers_of_ne fun row other => by cases other)
  | row row cursor counted own wellFormed =>
      refine .answer _ after same (counts counted) fun other equal => ?_
      cases equal
      exact ⟨own, wellFormed⟩
  | overflow reached => exact .overflow chunk after rfl (most.mp reached)

theorem pollChunk_polled {types : List Ty} (few : types.length ≤ 32767) (header : Option Header)
    (chunk : Bytes) :
    PolledOnce ⟨types, header⟩ (.ready (some (.ok chunk)))
      (BinaryCopyOutStream.pollNext ⟨types, header⟩ (.ready (some (.ok chunk)))) := by
  cases header with
  | some header => exact @pollRow_polled _ ⟨types, some header⟩ _ few rfl header chunk [] chunk .rfl
  | none =>
      have read : HeaderRead chunk (readHeader.run ⟨chunk, 0⟩) := readHeader_read chunk
      rw [BinaryCopyOutStream.pollNext]
      generalize readHeader.run ⟨chunk, 0⟩ = result at read
      cases read with
      | error cause other =>
          refine .answer _ _ rfl (fun same given => ?_) (answers_of_ne fun row other => by cases other)
          cases given
          exact fun ⟨header, rest, opens, _⟩ => other header rest opens
      | read header front rest opens split =>
          have reached : MaxCount header.hasOids rest ↔ Overflows none chunk := by
            refine ⟨fun most => ⟨header, rest, opens, most⟩, fun ⟨other, tail, again, most⟩ => ?_⟩
            obtain ⟨rfl, rfl⟩ := opens.unique again
            exact most
          exact @pollRow_polled _ ⟨types, none⟩ ⟨types, some header⟩ few rfl header chunk front rest
            reached

theorem pollNext_polled {self : BinaryCopyOutStream Ty} (few : self.types.length ≤ 32767)
    (polled : Poll (Option (Except Error Bytes))) : PolledOnce self polled (self.pollNext polled) := by
  obtain ⟨types, header⟩ := self
  cases polled with
  | pending =>
      exact .answer _ _ rfl (fun chunk given => by cases given)
        (answers_of_ne fun row other => by cases other)
  | ready item =>
      cases item with
      | none =>
          exact .answer _ _ rfl (fun chunk given => by cases given)
            (answers_of_ne fun row other => by cases other)
      | some received =>
          cases received with
          | error error =>
              exact .answer _ _ rfl (fun chunk given => by cases given)
                (answers_of_ne fun row other => by cases other)
          | ok chunk => exact pollChunk_polled few header chunk

/-! ### A stream -/

/-- A stream, with what its polls have answered. -/
structure Reading (Ty : Type) where
  stream : BinaryCopyOutStream Ty
  answers : List (Poll (Option (Except Error (BinaryCopyOutRow Ty)))) := []

namespace Reading

def start (types : List Ty) : Reading Ty where
  stream := .new types

/-- One poll; a panic ends the run. -/
def step (reading : Reading Ty) (polled : Poll (Option (Except Error Bytes))) : Option (Reading Ty) :=
  match reading.stream.pollNext polled with
  | (none, _) => none
  | (some answer, stream) => some { stream, answers := reading.answers ++ [answer] }

/-- The poll gives no chunk whose count of fields is at its limit. -/
def Countable (reading : Reading Ty) (polled : Poll (Option (Except Error Bytes))) : Prop :=
  ∀ chunk, polled = .ready (some (.ok chunk)) → ¬Overflows reading.stream.header chunk

/-- Everything that has been answered is for these columns. -/
structure Sound (types : List Ty) (reading : Reading Ty) : Prop where
  columns : reading.stream.types = types
  answers : ∀ answer ∈ reading.answers, Answers types answer

theorem sound_start (types : List Ty) : Sound types (start types) where
  columns := rfl
  answers _ member := absurd member List.not_mem_nil

theorem step_iff {types : List Ty} (few : types.length ≤ 32767) (reading : Reading Ty)
    (polled : Poll (Option (Except Error Bytes))) (sound : Sound types reading) :
    (∃ next, reading.step polled = some next) ↔ reading.Countable polled := by
  obtain ⟨⟨columns, header⟩, answers⟩ := reading
  obtain ⟨rfl, _⟩ := sound
  have once := @pollNext_polled _ ⟨columns, header⟩ few polled
  unfold step Countable
  dsimp only
  generalize BinaryCopyOutStream.pollNext ⟨columns, header⟩ polled = result at once
  cases once with
  | answer answer after same counted => exact ⟨fun _ => counted, fun _ => ⟨_, rfl⟩⟩
  | overflow chunk after given most =>
      refine ⟨fun stepped => ?_, fun countable => absurd most (countable chunk given)⟩
      obtain ⟨_, impossible⟩ := stepped
      cases impossible

theorem step_sound {types : List Ty} (few : types.length ≤ 32767) (reading : Reading Ty)
    (polled : Poll (Option (Except Error Bytes))) (next : Reading Ty) (sound : Sound types reading)
    (stepped : reading.step polled = some next) : Sound types next := by
  obtain ⟨⟨columns, header⟩, answers⟩ := reading
  obtain ⟨rfl, earlier⟩ := sound
  have once := @pollNext_polled _ ⟨columns, header⟩ few polled
  unfold step at stepped
  dsimp only at stepped
  generalize BinaryCopyOutStream.pollNext ⟨columns, header⟩ polled = result at once stepped
  cases once with
  | answer answer after same counted own =>
      cases stepped
      refine ⟨same, fun other member => ?_⟩
      obtain before | last := List.mem_append.mp member
      · exact earlier other before
      · rw [List.mem_singleton.mp last]
        exact own
  | overflow => cases stepped

end Reading

/-- No poll of the stream panics, and each answers a well-formed row, an error or
the end, as long as the polls are of that kind. -/
theorem reading_iff {types : List Ty} (few : types.length ≤ 32767)
    (inputs : List (Poll (Option (Except Error Bytes)))) :
    (∃ final, Execution.execute Reading.step (Reading.start types) inputs = some final ∧
        ∀ answer ∈ final.answers, Answers types answer) ↔
      Execution.Along Reading.step Reading.Countable (Reading.start types) inputs := by
  rw [← Execution.execute_iff_along Reading.step (Reading.step_iff few) (Reading.step_sound few)
    (Reading.sound_start types)]
  constructor
  · exact fun ⟨final, run, _⟩ => ⟨final, run⟩
  · intro ⟨final, run⟩
    have sound : Reading.Sound types final :=
      Execution.invariant Reading.step (Reading.step_sound few) run (Reading.sound_start types)
    exact ⟨final, run, sound.answers⟩

/-! ### Reading a field -/

/-- The fields of a well-formed row can be read at every index. -/
theorem tryGet_total {Value Cause : Type} {row : BinaryCopyOutRow Ty} (wellFormed : WellFormed row)
    (fromSql : FromSql Ty Value Cause) (idx : Nat) : row.tryGet fromSql idx ≠ none := by
  rw [BinaryCopyOutRow.tryGet]
  cases found : row.types[idx]? with
  | none => exact Option.some_ne_none _
  | some type =>
      dsimp only
      split
      · exact Option.some_ne_none _
      · have inside : idx < row.ranges.length := by
          rw [wellFormed.counts]
          exact (List.getElem?_eq_some_iff.mp found).1
        rw [List.getElem?_eq_getElem inside]
        cases range : row.ranges[idx] with
        | none => exact Option.some_ne_none _
        | some range' =>
            obtain ⟨bytes, sliced⟩ :=
              slice?_inside (wellFormed.inside range' (range ▸ List.getElem_mem inside))
            dsimp only [bind, Option.bind, cut]
            rw [sliced]
            exact Option.some_ne_none _

/-! ### What the writer has sent -/

/-- The calls for rows of encoded fields. -/
def writes (rows : List (List (Option Bytes))) : List (Event Ty) :=
  rows.map fun fields => .write (fields.map ofEncoded)

/-- The bytes of a copy in which every row is accepted. -/
def Produces (types : List Ty) (rows : List (List (Option Bytes))) (bytes : Bytes) : Prop :=
  ∃ final count after, Execution.execute Copy.step (Copy.start types) (writes rows) = some final ∧
    final.accepted.length = rows.length ∧
    final.writer.finish (.ok count) = (.ok count, after) ∧ bytes = after.sink.sent.flatten

/-- What a server makes of them: the header together with the first row, a chunk
for each other row, and one for the trailer. -/
def withHeader : List Bytes → List Bytes
  | [] => []
  | first :: rest => (header ++ first) :: rest

def serverChunks (count : Nat) (rows : List (List (Option Bytes))) : List Bytes :=
  withHeader (rows.map (rowBytes count) ++ [trailer])

/-- All the bytes that a writer has taken. -/
def taken (writer : BinaryCopyInWriter Ty) : Bytes := writer.sink.sent.flatten ++ writer.buf

theorem write_accepted {copy next : Copy Ty} {fields : List (Option Bytes)}
    (stepped : copy.step (.write (fields.map ofEncoded)) = some next) :
    next.accepted.length ≤ copy.accepted.length + 1 ∧ next.writer.types = copy.writer.types ∧
      (next.accepted.length = copy.accepted.length + 1 →
        fields.length = copy.writer.types.length ∧ (∀ field ∈ fields, FitsI32 field) ∧
          taken next.writer =
            taken copy.writer ++ rowBytes copy.writer.types.length fields) := by
  obtain ⟨writer, accepted⟩ := copy
  have written := writeRaw_written writer (fields.map ofEncoded)
  have own {others : List (Option Bytes)}
      (counts : (fields.map (@ofEncoded Ty)).length = writer.types.length)
      (converted : Converts writer.types writer.buf (fields.map ofEncoded) others) : others = fields := by
    rw [List.length_map] at counts
    exact converted.1.unique (serialized_ofEncoded counts _)
  unfold Copy.step at stepped
  dsimp only at stepped
  generalize writer.writeRaw (fields.map ofEncoded) = answer at written stepped
  cases written with
  | panicked counts =>
      cases stepped
      exact ⟨Nat.le_succ _, rfl, fun grown => absurd grown (Nat.ne_of_lt (Nat.lt_succ_self _))⟩
  | refused error buf counts failed =>
      cases stepped
      exact ⟨Nat.le_succ _, rfl, fun grown => absurd grown (Nat.ne_of_lt (Nat.lt_succ_self _))⟩
  | buffered others counts converted small =>
      cases stepped
      obtain rfl := own counts converted
      rw [List.length_map] at counts
      exact ⟨by rw [List.length_append, List.length_singleton], rfl,
        fun _ => ⟨counts, converted.2, (List.append_assoc ..).symm⟩⟩
  | sent others counts converted =>
      cases stepped
      obtain rfl := own counts converted
      rw [List.length_map] at counts
      refine ⟨by rw [List.length_append, List.length_singleton], rfl,
        fun _ => ⟨counts, converted.2, ?_⟩⟩
      rw [taken, taken, List.flatten_concat, List.append_nil, List.append_assoc]
  | oversized =>
      cases stepped
      exact ⟨Nat.le_succ _, rfl, fun grown => absurd grown (Nat.ne_of_lt (Nat.lt_succ_self _))⟩
  | closed =>
      cases stepped
      exact ⟨Nat.le_succ _, rfl, fun grown => absurd grown (Nat.ne_of_lt (Nat.lt_succ_self _))⟩

theorem writes_accepted {rows : List (List (Option Bytes))} {copy final : Copy Ty}
    (run : Execution.execute Copy.step copy (writes rows) = some final) :
    final.accepted.length ≤ copy.accepted.length + rows.length ∧
      (final.accepted.length = copy.accepted.length + rows.length →
        (∀ fields ∈ rows, fields.length = copy.writer.types.length ∧
            ∀ field ∈ fields, FitsI32 field) ∧
          taken final.writer =
            taken copy.writer ++ rows.flatMap (rowBytes copy.writer.types.length)) := by
  induction rows generalizing copy with
  | nil =>
      cases run
      exact ⟨Nat.le_refl _, fun _ => ⟨fun _ member => absurd member List.not_mem_nil,
        (List.append_nil _).symm⟩⟩
  | cons fields rows ih =>
      obtain ⟨next, stepped, later⟩ := (Execution.execute_cons Copy.step).mp run
      obtain ⟨most, columns, accepted⟩ := write_accepted stepped
      obtain ⟨atMost, others⟩ := ih later
      rw [List.length_cons]
      refine ⟨by omega, fun all => ?_⟩
      obtain ⟨counts, fits, row⟩ := accepted (by omega)
      obtain ⟨rest, bytes⟩ := others (by omega)
      rw [columns] at rest bytes
      exact ⟨List.forall_mem_cons.mpr ⟨⟨counts, fits⟩, rest⟩, by
        rw [bytes, row, List.flatMap_cons, List.append_assoc]⟩

theorem finish_ok {writer after : BinaryCopyInWriter Ty} {count : Nat}
    (finished : writer.finish (.ok count) = (.ok count, after)) :
    after.sink.sent.flatten = taken writer ++ trailer := by
  rw [BinaryCopyInWriter.finish, BinaryCopyInWriter.sendBuf, Sink.send] at finished
  by_cases gone : writer.sink.closed = true
  · rw [if_pos gone] at finished
    cases finished
  · rw [if_neg gone] at finished
    cases made : FrontendBuffer.CopyData.new (writer.buf ++ be16 65535) with
    | error error =>
        dsimp only at finished
        rw [made] at finished
        cases finished
    | ok data =>
        dsimp only at finished
        rw [made] at finished
        cases finished
        rw [List.flatten_concat, taken, List.append_assoc]
        rfl

theorem produces_bytes {types : List Ty} {rows : List (List (Option Bytes))} {bytes : Bytes}
    (produced : Produces types rows bytes) :
    (∀ fields ∈ rows, fields.length = types.length ∧ ∀ field ∈ fields, FitsI32 field) ∧
      bytes = header ++ rows.flatMap (rowBytes types.length) ++ trailer := by
  obtain ⟨final, count, after, run, all, finished, rfl⟩ := produced
  obtain ⟨_, accepted⟩ := writes_accepted run
  obtain ⟨counts, same⟩ := accepted (by rw [all]; exact (Nat.zero_add _).symm)
  exact ⟨counts, by rw [finish_ok finished, same]; rfl⟩

theorem serverChunks_flatten (count : Nat) (rows : List (List (Option Bytes))) :
    (serverChunks count rows).flatten = header ++ rows.flatMap (rowBytes count) ++ trailer := by
  have joined (first : Bytes) (rest : List Bytes) :
      (withHeader (first :: rest)).flatten = header ++ (first :: rest).flatten :=
    List.append_assoc ..
  cases rows with
  | nil => rfl
  | cons fields rows =>
      rw [serverChunks, List.map_cons, List.cons_append, joined, ← List.cons_append,
        ← List.map_cons, List.flatten_concat, List.append_assoc, ← List.flatMap_def]

/-! ### Reading it back -/

theorem dataField_nullable {field : Option Bytes} (fits : FitsI32 field) :
    DataField (nullable field) field := by
  cases field with
  | none => exact .null rfl (by decide)
  | some bytes =>
      have small : bytes.length < 2 ^ 31 := fits bytes rfl
      refine .value rfl ?_
      rw [beNat_be32 _ (by omega), asI32_of_lt _ small]

theorem dataFields_nullable {fields : List (Option Bytes)} (fits : ∀ field ∈ fields, FitsI32 field) :
    DataFields (fields.flatMap nullable) fields := by
  induction fields with
  | nil => exact .nil
  | cons field fields ih =>
      obtain ⟨first, rest⟩ := List.forall_mem_cons.mp fits
      exact .cons (dataField_nullable first) (ih rest)

theorem readRanges_nullable {fields : List (Option Bytes)} (fits : ∀ field ∈ fields, FitsI32 field)
    (front tail : Bytes) :
    readRanges fields.length (between front (fields.flatMap nullable ++ tail)) =
      .ok (place front.length fields, between (front ++ fields.flatMap nullable) tail) := by
  induction fields generalizing front with
  | nil => rw [List.flatMap_nil, List.append_nil]; rfl
  | cons field fields ih =>
      obtain ⟨first, rest⟩ := List.forall_mem_cons.mp fits
      have later := ih rest (front ++ nullable field)
      rw [List.flatMap_cons, List.append_assoc, List.length_cons,
        place_cons (dataField_nullable first)]
      cases field with
      | none =>
          rw [nullable] at later ⊢
          rw [readRanges_null rfl (by decide), later, List.length_append, List.append_assoc]
          rfl
      | some bytes =>
          have small : bytes.length < 2 ^ 31 := first bytes rfl
          have count : asI32 (beNat (be32 bytes.length)) = bytes.length := by
            rw [beNat_be32 _ (by omega), asI32_of_lt _ small]
          have long : asUsize (asI32 (beNat (be32 bytes.length))) = bytes.length := by
            rw [count, asUsize_of_nonneg (by omega) (by omega), Int.toNat_natCast]
          rw [nullable] at later ⊢
          rw [List.append_assoc (be32 bytes.length) bytes,
            readRanges_value rfl (by rw [count]; omega) long, List.append_assoc front, later,
            List.length_append, List.append_assoc]
          rfl

/-- The row that is read of a chunk with these fields behind `front`. -/
def rowOf (types : List Ty) (front : Bytes) (fields : List (Option Bytes)) : BinaryCopyOutRow Ty where
  buf := front ++ rowBytes types.length fields
  ranges := place (front ++ be16 types.length).length fields
  types

theorem readRow_rowBytes {types : List Ty} (few : types.length ≤ 32767)
    {fields : List (Option Bytes)} (counts : fields.length = types.length)
    (fits : ∀ field ∈ fields, FitsI32 field) (front : Bytes) :
    ∃ after, readRow types false (between front (rowBytes types.length fields)) =
      .ok (some (rowOf types front fields), after) := by
  have word : asI16 (beNat (be16 types.length)) = types.length := by
    rw [FrontendBuffer.beNat_be16 _ (by omega), asI16, if_pos (by omega)]
  have more : asI16 (beNat (be16 types.length)) ≠ -1 := by
    rw [word]
    omega
  have same : ¬asUsize (asI16 (beNat (be16 types.length))) ≠ types.length := by
    rw [word, asUsize_of_nonneg (by omega) (by omega), Int.toNat_natCast]
    exact fun other => other rfl
  have read := readRanges_nullable fits (front ++ be16 types.length) []
  rw [List.append_nil, counts] at read
  rw [rowBytes, readRow_counted rfl more rfl, if_neg same, word, Int.toNat_natCast, read]
  refine ⟨between (front ++ be16 types.length ++ fields.flatMap nullable) [], ?_⟩
  rw [rowOf, rowBytes, between]
  simp only [Except.map, List.append_nil, List.append_assoc]

/-- The answer is a row with these fields. -/
def ReadsRow (types : List Ty) (fields : List (Option Bytes))
    (answer : Poll (Option (Except Error (BinaryCopyOutRow Ty)))) : Prop :=
  ∃ row, answer = .ready (some (.ok row)) ∧ row.types = types ∧ Locates row.buf row.ranges fields

theorem readsRow_rowOf {types : List Ty} {fields : List (Option Bytes)}
    (fits : ∀ field ∈ fields, FitsI32 field) (front : Bytes) :
    ReadsRow types fields (.ready (some (.ok (rowOf types front fields)))) := by
  refine ⟨_, rfl, rfl, ?_⟩
  have located := locates_place (dataFields_nullable fits) (front ++ be16 types.length)
  rw [List.append_assoc] at located
  exact located

/-- A poll that is given a chunk. -/
def given (chunk : Bytes) : Poll (Option (Except Error Bytes)) := .ready (some (.ok chunk))

theorem pollRow_rowBytes {self : BinaryCopyOutStream Ty} (few : self.types.length ≤ 32767)
    {fields : List (Option Bytes)} (counts : fields.length = self.types.length)
    (fits : ∀ field ∈ fields, FitsI32 field) (front : Bytes) :
    self.pollRow false (between front (rowBytes self.types.length fields)) =
      some (.ready (some (.ok (rowOf self.types front fields)))) := by
  obtain ⟨after, read⟩ := readRow_rowBytes few counts fits front
  rw [BinaryCopyOutStream.pollRow, StateT.run, read]
  rfl

theorem pollRow_trailer (self : BinaryCopyOutStream Ty) (front : Bytes) :
    self.pollRow false (between front trailer) = some (.ready none) := by
  have last : asI16 (beNat trailer) = -1 := by decide
  have read : readRow self.types false (between front (trailer ++ [])) =
      .ok (none, between (front ++ trailer) []) := by
    rw [readRow, bind_ok (checkRemaining_ok (by decide)), bind_ok (getI16_between rfl), if_pos last]
    rfl
  rw [List.append_nil] at read
  rw [BinaryCopyOutStream.pollRow, StateT.run, read]
  rfl

theorem pollNext_first {types : List Ty} {chunk : Bytes} {first : Header} {cursor : Cursor}
    (read : readHeader.run ⟨chunk, 0⟩ = .ok (first, cursor)) :
    BinaryCopyOutStream.pollNext ⟨types, none⟩ (given chunk) =
      (BinaryCopyOutStream.pollRow ⟨types, none⟩ first.hasOids cursor, ⟨types, some first⟩) := by
  unfold given BinaryCopyOutStream.pollNext
  dsimp only
  rw [read]

theorem pollNext_later (types : List Ty) (first : Header) (chunk : Bytes) :
    BinaryCopyOutStream.pollNext ⟨types, some first⟩ (given chunk) =
      (BinaryCopyOutStream.pollRow ⟨types, some first⟩ first.hasOids (between [] chunk),
        ⟨types, some first⟩) := rfl

/-- The header of the writer has no flags and no extension. -/
theorem readHeader_header (first : Bytes) :
    readHeader.run ⟨header ++ first, 0⟩ = .ok (⟨false⟩, between header first) := by
  have split : header ++ first = magic ++ (be32 0 ++ (be32 0 ++ first)) := by
    rw [header, List.append_assoc, List.append_assoc]
  have zero : beNat (be32 0) = 0 := by decide
  have bit : (0 : Nat).testBit 16 = false := by decide
  change readHeader (between [] (header ++ first)) = _
  rw [split, readHeader_magic rfl rfl, zero, if_neg (Nat.not_lt_zero _), bit, List.take_zero,
    List.drop_zero, List.append_nil, header]

theorem Reading.step_answer {reading : Reading Ty} {input : Poll (Option (Except Error Bytes))}
    {answer : Poll (Option (Except Error (BinaryCopyOutRow Ty)))} {stream : BinaryCopyOutStream Ty}
    (polled : reading.stream.pollNext input = (some answer, stream)) :
    reading.step input = some ⟨stream, reading.answers ++ [answer]⟩ := by
  rw [Reading.step, polled]

/-- The answer for a row that stands behind `front`. -/
def rowAnswer (types : List Ty) (front : Bytes) (fields : List (Option Bytes)) :
    Poll (Option (Except Error (BinaryCopyOutRow Ty))) :=
  .ready (some (.ok (rowOf types front fields)))

theorem execute_rows {types : List Ty} (few : types.length ≤ 32767) {rows : List (List (Option Bytes))}
    (sized : ∀ fields ∈ rows, fields.length = types.length ∧ ∀ field ∈ fields, FitsI32 field)
    (answers : List (Poll (Option (Except Error (BinaryCopyOutRow Ty))))) :
    Execution.execute Reading.step ⟨⟨types, some ⟨false⟩⟩, answers⟩
        ((rows.map (rowBytes types.length) ++ [trailer]).map given) =
      some ⟨⟨types, some ⟨false⟩⟩, answers ++ rows.map (rowAnswer types []) ++ [.ready none]⟩ := by
  induction rows generalizing answers with
  | nil =>
      have ended := pollRow_trailer (⟨types, some ⟨false⟩⟩ : BinaryCopyOutStream Ty) []
      have polled := pollNext_later types ⟨false⟩ trailer
      rw [ended] at polled
      have stepped := @Reading.step_answer _ ⟨⟨types, some ⟨false⟩⟩, answers⟩ _ _ _ polled
      rw [List.map_nil, List.map_nil, List.nil_append, List.append_nil, List.map_singleton,
        Execution.execute, stepped]
      rfl
  | cons fields rows ih =>
      obtain ⟨⟨counts, fits⟩, rest⟩ := List.forall_mem_cons.mp sized
      have read := @pollRow_rowBytes _ ⟨types, some ⟨false⟩⟩ few fields counts fits []
      have polled := pollNext_later types ⟨false⟩ (rowBytes types.length fields)
      rw [read] at polled
      have stepped := @Reading.step_answer _ ⟨⟨types, some ⟨false⟩⟩, answers⟩ _
        (rowAnswer types [] fields) _ polled
      rw [List.map_cons, List.cons_append, List.map_cons, Execution.execute, stepped]
      dsimp only
      rw [ih rest, List.map_cons, List.append_assoc answers, List.singleton_append]

/-- What is written is read back: the rows, and then the end. -/
def RoundTrips (types : List Ty) : Prop :=
  ∀ rows bytes, Produces types rows bytes →
    (serverChunks types.length rows).flatten = bytes ∧
      ∃ final answers, Execution.execute Reading.step (Reading.start types)
          ((serverChunks types.length rows).map given) = some final ∧
        final.answers = answers ++ [.ready none] ∧ List.Forall₂ (ReadsRow types) rows answers

theorem forall₂_readsRow {types : List Ty} {rows : List (List (Option Bytes))}
    (sized : ∀ fields ∈ rows, fields.length = types.length ∧ ∀ field ∈ fields, FitsI32 field) :
    List.Forall₂ (ReadsRow types) rows (rows.map (rowAnswer types [])) := by
  induction rows with
  | nil => exact .nil
  | cons fields rows ih =>
      obtain ⟨⟨_, fits⟩, rest⟩ := List.forall_mem_cons.mp sized
      exact .cons (readsRow_rowOf fits []) (ih rest)

theorem roundTrips {types : List Ty} (few : types.length ≤ 32767) : RoundTrips types := by
  intro rows bytes produced
  obtain ⟨sized, rfl⟩ := produces_bytes produced
  refine ⟨serverChunks_flatten _ _, ?_⟩
  cases rows with
  | nil =>
      have ended := pollRow_trailer (⟨types, none⟩ : BinaryCopyOutStream Ty) header
      have first := @pollNext_first _ types _ _ _ (readHeader_header trailer)
      rw [ended] at first
      have stepped := @Reading.step_answer _ (Reading.start types) (given (header ++ trailer)) _ _ first
      refine ⟨⟨⟨types, some ⟨false⟩⟩, [] ++ [.ready none]⟩, [], ?_, rfl, .nil⟩
      rw [serverChunks, List.map_nil, List.nil_append, withHeader, List.map_singleton,
        Execution.execute, stepped]
      rfl
  | cons fields rows =>
      obtain ⟨⟨counts, fits⟩, rest⟩ := List.forall_mem_cons.mp sized
      have read := @pollRow_rowBytes _ ⟨types, none⟩ few fields counts fits header
      have first := @pollNext_first _ types _ _ _ (readHeader_header (rowBytes types.length fields))
      rw [read] at first
      have stepped := @Reading.step_answer _ (Reading.start types)
        (given (header ++ rowBytes types.length fields)) (rowAnswer types header fields) _ first
      have later := execute_rows few rest [rowAnswer types header fields]
      refine ⟨⟨⟨types, some ⟨false⟩⟩, [rowAnswer types header fields] ++
          rows.map (rowAnswer types []) ++ [.ready none]⟩,
        rowAnswer types header fields :: rows.map (rowAnswer types []), ?_, rfl,
        .cons (readsRow_rowOf fits header) (forall₂_readsRow rest)⟩
      rw [serverChunks, List.map_cons, List.cons_append, withHeader, List.map_cons, Execution.execute,
        stepped]
      exact later

/-- What has been written is read back, and whatever else is received, no poll
panics exactly as long as no chunk of a stream with OIDs counts 32767 fields. -/
theorem roundTrips_reading_iff (types : List Ty) (few : types.length ≤ 32767) :
    RoundTrips types ∧
      ∀ inputs, (∃ final, Execution.execute Reading.step (Reading.start types) inputs = some final ∧
          ∀ answer ∈ final.answers, Answers types answer) ↔
        Execution.Along Reading.step Reading.Countable (Reading.start types) inputs :=
  ⟨roundTrips few, reading_iff few⟩

end

/-- A row with a NULL and an empty field, and a chunk that is no row. -/
theorem roundTrips_reading_iff_two :
    RoundTrips ([25, 25] : List UInt32) ∧
      ∃ final, Execution.execute Reading.step (Reading.start ([25, 25] : List UInt32))
        [given [1, 2]] = some final := by
  have both := roundTrips_reading_iff ([25, 25] : List UInt32) (by decide)
  have countable : Execution.Along Reading.step Reading.Countable
      (Reading.start ([25, 25] : List UInt32)) [given [1, 2]] := by
    refine ⟨fun chunk same => ?_, fun _ _ => trivial⟩
    cases same
    intro ⟨_, rest, opens, _⟩
    exact absurd opens.enough.1 (by decide)
  obtain ⟨final, run, _⟩ := (both.2 _).mpr countable
  exact ⟨both.1, final, run⟩

/-- A header with OIDs, and a row of 32767 fields. -/
def oidsChunk : Bytes := magic ++ be32 65536 ++ be32 0 ++ [127, 255]

/-- Adding the OID to the count leaves `i16`. -/
theorem not_roundTrips_reading :
    ¬∀ types : List UInt32, types.length ≤ 32767 →
      RoundTrips types ∧
        ∀ inputs, ∃ final,
          Execution.execute Reading.step (Reading.start types) inputs = some final ∧
            ∀ answer ∈ final.answers, Answers types answer := by
  intro claimed
  obtain ⟨final, run, _⟩ := (claimed [] (by decide)).2 [given oidsChunk]
  have panics : Reading.step (Reading.start ([] : List UInt32)) (given oidsChunk) = none := by rfl
  rw [Execution.execute, panics] at run
  cases run

end OpenGauss.Driver.BinaryCopy
