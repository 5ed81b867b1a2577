import OpenGauss.Derive.CodecLaws

/-! Arrays of values whose implementation keeps to the laws: what is written for the
elements is read back, and no bytes make reading panic. -/

set_option autoImplicit false

namespace OpenGauss.Derive.Codec

open Lib Protocol OpenGauss.Types
open Protocol.ArraySql (ArrayDimension ArrayValues Checked headWire multiply)

/-! ### Writing the elements -/

theorem avoids_nullableSize (base : Nat) (isNull : IsNull) :
    Builder.Avoids .panicked (nullableSize base isNull : Put Stop Int32) := by
  cases isNull with
  | yes => exact Builder.avoids_pure _
  | no =>
      refine Builder.avoids_bind Builder.avoids_length fun size => ?_
      dsimp only [i32FromUsize, fromUsize]
      split
      · exact Builder.avoids_throw (failed_ne _)
      · exact Builder.avoids_pure _

section

variable {member : Codec} {nullable : Bool} (lawful : member.Lawful nullable) {type_ : PgType}
  (sound : type_.Sound) (accepted : member.toSqlAccepts type_ = true)

include lawful sound accepted

theorem ok_writeElement {element : member.Value} {hasNulls flag : Bool} {buf after : Bytes}
    (ran : Builder.Ok (writeNullable do
      let isNull ← member.toSql type_ element
      return (isNull, hasNulls || isNull = .yes)) buf flag after) :
    ∃ written, after = buf ++ Protocol.nullable written ∧ FitsI32 written ∧
      member.fromSqlNullable type_ written = .ok element := by
  obtain ⟨_, _, first, ran⟩ := Builder.ok_bind.mp ran
  obtain ⟨rfl, rfl⟩ := ok_len.mp first
  obtain ⟨_, _, second, ran⟩ := Builder.ok_bind.mp ran
  obtain rfl := ok_putI32.mp second
  obtain ⟨both, _, third, ran⟩ := Builder.ok_bind.mp ran
  obtain ⟨isNull, _, call, last⟩ := Builder.ok_bind.mp third
  obtain ⟨rfl, rfl⟩ := Builder.ok_pure.mp last
  obtain ⟨written, writes, rfl, rfl⟩ := lawful.written sound accepted call
  obtain ⟨_, _, fourth, ran⟩ := Builder.ok_bind.mp ran
  obtain ⟨small, rfl, rfl⟩ := ok_nullableSize.mp fourth
  obtain ⟨_, _, fifth, last⟩ := Builder.ok_bind.mp ran
  obtain ⟨rfl, rfl⟩ := Builder.ok_pure.mp last
  obtain rfl := ok_writeI32.mp fifth
  have fits : FitsI32 written := by
    intro out same
    obtain rfl := Option.mem_def.mp same
    have bound := small rfl
    exact Nat.lt_of_le_of_lt (Nat.le_of_eq (Struct.length_hole _ out).symm) bound
  exact ⟨written, Struct.overwrite_count _ fits, fits,
    lawful.roundTrips type_ sound accepted element _ written writes⟩

/-- Behind one another stand values that are read as the elements. -/
theorem ok_writeElements {elements : List member.Value} {hasNulls flag : Bool} {buf after : Bytes}
    (ran : Builder.Ok (writeElements member type_ elements hasNulls) buf flag after) :
    ∃ values, after = buf ++ values.flatMap Protocol.nullable ∧ (∀ value ∈ values, FitsI32 value) ∧
      List.Forall₂ (fun value element => member.fromSqlNullable type_ value = .ok element)
        values elements := by
  induction elements generalizing hasNulls buf with
  | nil =>
      obtain ⟨-, rfl⟩ := Builder.ok_pure.mp ran
      exact ⟨[], (List.append_nil _).symm, nofun, .nil⟩
  | cons element elements ih =>
      obtain ⟨_, _, first, ran⟩ := Builder.ok_bind.mp ran
      obtain ⟨written, rfl, small, read⟩ := ok_writeElement lawful sound accepted first
      obtain ⟨values, rfl, fits, others⟩ := ih ran
      refine ⟨written :: values, by simp, ?_, .cons read others⟩
      exact List.forall_mem_cons.mpr ⟨small, fits⟩

theorem avoids_writeElements (elements : List member.Value) (hasNulls : Bool) :
    Builder.Avoids .panicked (writeElements member type_ elements hasNulls) := by
  induction elements generalizing hasNulls with
  | nil => exact Builder.avoids_pure _
  | cons element elements ih =>
      refine Builder.avoids_bind ?_ fun flag => ih flag
      refine Builder.avoids_bind Builder.avoids_length fun base => ?_
      refine Builder.avoids_bind (Builder.avoids_append _) fun _ => ?_
      refine Builder.avoids_bind ?_ fun both => ?_
      · refine Builder.avoids_bind (lawful.writes type_ sound accepted element) fun isNull => ?_
        exact Builder.avoids_pure _
      · refine Builder.avoids_bind (avoids_nullableSize base both.1) fun size => ?_
        exact Builder.avoids_bind (Builder.avoids_patch _ _) fun _ => Builder.avoids_pure _

theorem ok_arrayToSql {dimension : ArrayDimension} {elements : List member.Value}
    {buf after : Bytes} {done : Unit}
    (ran : Builder.Ok (arrayToSql member dimension type_ elements) buf done after) :
    ∃ flags values,
      after = buf ++ (headWire 1 flags type_.oid [dimension] ++ values.flatMap Protocol.nullable) ∧
        (∀ value ∈ values, FitsI32 value) ∧
        List.Forall₂ (fun value element => member.fromSqlNullable type_ value = .ok element)
          values elements := by
  obtain ⟨_, buf, first, ran⟩ := Builder.ok_bind.mp ran
  obtain ⟨rfl, rfl⟩ := ok_len.mp first
  obtain ⟨_, _, second, ran⟩ := Builder.ok_bind.mp ran
  obtain rfl := ok_putI32.mp second
  obtain ⟨_, _, third, ran⟩ := Builder.ok_bind.mp ran
  obtain ⟨rfl, rfl⟩ := ok_len.mp third
  obtain ⟨_, _, fourth, ran⟩ := Builder.ok_bind.mp ran
  obtain rfl := ok_putI32.mp fourth
  obtain ⟨_, _, fifth, ran⟩ := Builder.ok_bind.mp ran
  obtain rfl := ok_putU32.mp fifth
  obtain ⟨_, _, sixth, ran⟩ := Builder.ok_bind.mp ran
  obtain ⟨rfl, rfl⟩ := ArraySql.ok_writeDimensions.mp (Builder.ok_mapError.mp sixth)
  obtain ⟨_, _, seventh, ran⟩ := Builder.ok_bind.mp ran
  obtain ⟨-, rfl, rfl⟩ := ok_i32FromUsize.mp seventh
  obtain ⟨_, _, eighth, ran⟩ := Builder.ok_bind.mp ran
  obtain rfl := ok_writeI32.mp eighth
  obtain ⟨hasNulls, _, elementsRan, last⟩ := Builder.ok_bind.mp ran
  obtain ⟨values, rfl, fits, reads⟩ := ok_writeElements lawful sound accepted elementsRan
  obtain rfl := ok_writeI32.mp last
  refine ⟨if hasNulls then 1 else 0, values, ?_, fits, reads⟩
  have counted := ArraySql.overwrite_count buf 1 0 type_.oid [dimension]
  have flagged := ArraySql.overwrite_flags buf 1 (if hasNulls then 1 else 0) type_.oid [dimension]
    (values.flatMap Protocol.nullable)
  rw [← counted] at flagged
  exact flagged

end

/-! ### Reading the head -/

theorem arrayValues_head {count elements : Int32} (flags : Int32) (elementType : UInt32)
    {dimensions : List ArrayDimension} (counted : count.toInt = dimensions.length)
    (multiplied : multiply 1 dimensions = .ok elements) (rest : Bytes) :
    (arrayValues (headWire count flags elementType dimensions ++ rest)).run =
      if 1 < dimensions.length then some (.error (.text "array contains too many dimensions"))
      else some (.ok ⟨if count = 0 then 0 else elements, rest⟩) := by
  have parsed := ArraySql.parseArray_head flags elementType counted multiplied rest
  have read : ArraySql.arrayFromSql (headWire count flags elementType dimensions ++ rest) =
      .ok (ArraySql.headArray count flags elementType dimensions elements rest) := by
    rw [ArraySql.arrayFromSql, parsed]
    rfl
  rw [arrayValues, read, ArraySql.checked_ok, ArraySql.headArray_dimensions counted rest,
    ArraySql.checked_lift, ArraySql.drainDimensions_wire, ArraySql.checked_ok]
  split
  · rfl
  · rw [ArraySql.headArray_values counted rest]
    rfl

/-- Whatever the bytes are, there is no panic, and no negative number of values is to come. -/
theorem arrayValues_total (raw : Bytes) :
    (∃ error, (arrayValues raw).run = some (.error error)) ∨
      ∃ values, (arrayValues raw).run = some (.ok values) ∧ 0 ≤ values.remaining.toInt := by
  cases parsed : ArraySql.parseArray raw with
  | error error =>
      have failed : ArraySql.arrayFromSql raw = .error error := by
        rw [ArraySql.arrayFromSql, parsed]
        rfl
      left
      refine ⟨error, ?_⟩
      rw [arrayValues, failed]
      rfl
  | ok found =>
      obtain ⟨array, rest⟩ := found
      obtain ⟨count, flags, elementType, dimensions, elements, rfl, counted, multiplied, rfl⟩ :=
        ArraySql.parseArray_ok parsed
      obtain ⟨many, natural⟩ := ArraySql.headArray_announced counted multiplied
      rw [arrayValues_head flags elementType counted multiplied rest]
      split
      · exact .inl ⟨_, rfl⟩
      · refine .inr ⟨_, rfl, ?_⟩
        dsimp only
        rw [many]
        exact natural

theorem arrayValues_avoids (raw : Bytes) : checked (arrayValues raw) ≠ .error .panicked := by
  rw [checked]
  obtain ⟨error, ran⟩ | ⟨values, ran, -⟩ := arrayValues_total raw <;> rw [ran]
  · exact failed_avoids _
  · exact ok_avoids _

theorem arrayValues_natural {raw : Bytes} {values : ArrayValues}
    (read : checked (arrayValues raw) = .ok values) : 0 ≤ values.remaining.toInt := by
  obtain ⟨error, ran⟩ | ⟨found, ran, natural⟩ := arrayValues_total raw <;>
    rw [checked, ran] at read <;> cases read
  exact natural

/-- The one dimension of a slice. -/
theorem arrayValues_slice {size : Nat} (small : size < 2 ^ 31) (flags lowerBound : Int32)
    (elementType : UInt32) (rest : Bytes) :
    checked (arrayValues (headWire 1 flags elementType [⟨Int32.ofNat size, lowerBound⟩] ++ rest)) =
      .ok ⟨Int32.ofNat size, rest⟩ := by
  have length : (Int32.ofNat size).toInt = size := Int32.toInt_ofNat_of_lt small
  have one : (1 : Int32).toInt = 1 := rfl
  have multiplied : multiply 1 [⟨Int32.ofNat size, lowerBound⟩] = .ok (Int32.ofNat size) := by
    refine (ArraySql.multiply_ok (by decide)).mpr ⟨by simp [length], fun count => ?_, ?_⟩
    · cases count with
      | zero => simp [ArraySql.lengthsProduct, one]
      | succ count =>
          simp only [List.take_succ_cons, List.take_nil, ArraySql.lengthsProduct, one, length]
          omega
    · simp [ArraySql.lengthsProduct, one]
  have read := arrayValues_head flags elementType (show (1 : Int32).toInt = _ from rfl) multiplied rest
  rw [checked, read]
  rfl

/-! ### Reading the values -/

section

variable {Value : Type} {read : Option Bytes → Except Stop Value}

theorem collect_next {values rest : ArrayValues} {value : Option Bytes}
    (step : values.next.run = some (.ok (some (value, rest)))) :
    collect read values = (do
      let item ← read value
      return item :: (← collect read rest)) := by
  rw [collect, step]

theorem collect_last {values : ArrayValues} (step : values.next.run = some (.ok none)) :
    collect read values = .ok [] := by
  rw [collect, step]

theorem collect_error {values : ArrayValues} {error : BoxError}
    (step : values.next.run = some (.error error)) :
    collect read values = .error (.failed error) := by
  rw [collect, step]

theorem next_nothing : (ArrayValues.mk 0 []).next.run = some (.ok none) := rfl

theorem remaining_zero {remaining : Int32} (none : remaining.toInt = (0 : Nat)) : remaining = 0 :=
  Int32.toInt_inj.mp (by rw [none, Int32.toInt_zero]; rfl)

theorem collect_written {values : List (Option Bytes)} {items : List Value} {remaining : Int32}
    (reads : List.Forall₂ (fun value item => read value = .ok item) values items)
    (fits : ∀ value ∈ values, FitsI32 value) (counted : remaining.toInt = values.length) :
    collect read ⟨remaining, values.flatMap nullable⟩ = .ok items := by
  induction reads generalizing remaining with
  | nil =>
      obtain rfl := remaining_zero counted
      exact collect_last next_nothing
  | @cons value item values items first others ih =>
      rw [List.length_cons] at counted
      obtain ⟨own, rest⟩ := List.forall_mem_cons.mp fits
      obtain ⟨less, smaller, next⟩ := ArrayValues.next_wire (show 0 < remaining.toInt by omega) own
        (values.flatMap nullable)
      rw [List.flatMap_cons, collect_next next, first]
      have tail : collect read ⟨less, values.flatMap nullable⟩ = .ok items := ih rest (by omega)
      simp [tail, bind, Except.bind, pure, Except.pure]

theorem collect_avoids (fine : ∀ raw, read raw ≠ .error .panicked) (values : ArrayValues)
    (natural : 0 ≤ values.remaining.toInt) : collect read values ≠ .error .panicked := by
  generalize size : values.buf.length = length
  induction length using Nat.strongRecOn generalizing values with
  | ind length ih =>
      obtain ⟨-, -, step⟩ | ⟨error, step⟩ | ⟨value, rest, step, -, still, taken⟩ :=
        ArrayValues.next_cases natural
      · rw [collect_last step]
        exact ok_avoids _
      · rw [collect_error step]
        exact failed_avoids _
      · rw [collect_next step]
        refine bind_avoids (fine value) fun item _ => ?_
        refine bind_avoids (ih rest.buf.length (by omega) rest still rfl) fun items _ => ?_
        exact ok_avoids _

theorem checked_next {values rest : ArrayValues} {value : Option Bytes}
    (step : values.next.run = some (.ok (some (value, rest)))) :
    checked values.next = .ok (some (value, rest)) := by
  rw [checked, step]

theorem tryArrayInit_next {expected left : Nat} {values rest : ArrayValues} {value : Option Bytes}
    (step : values.next.run = some (.ok (some (value, rest)))) :
    tryArrayInit read expected (left + 1) values = (do
      let item ← read value
      let both ← tryArrayInit read expected left rest
      return (⟨item :: both.1.1, congrArg Nat.succ both.1.2⟩, both.2)) := by
  rw [tryArrayInit, checked_next step]
  rfl

theorem tryArrayInit_written {expected left : Nat} {values : List (Option Bytes)}
    {items : Sized Value left} {remaining : Int32}
    (reads : List.Forall₂ (fun value item => read value = .ok item) values items.1)
    (fits : ∀ value ∈ values, FitsI32 value) (counted : remaining.toInt = values.length) :
    tryArrayInit read expected left ⟨remaining, values.flatMap nullable⟩ = .ok (items, ⟨0, []⟩) := by
  induction left generalizing values remaining with
  | zero =>
      obtain ⟨items, size⟩ := items
      obtain rfl := List.eq_nil_of_length_eq_zero size
      cases reads
      obtain rfl := remaining_zero counted
      rfl
  | succ left ih =>
      obtain ⟨items, size⟩ := items
      obtain ⟨item, items, rfl⟩ := List.exists_cons_of_length_eq_add_one size
      cases reads with
      | @cons value _ values _ first others =>
          rw [List.length_cons] at counted
          obtain ⟨own, rest⟩ := List.forall_mem_cons.mp fits
          obtain ⟨less, smaller, next⟩ :=
            ArrayValues.next_wire (show 0 < remaining.toInt by omega) own (values.flatMap nullable)
          have tail : tryArrayInit read expected left ⟨less, values.flatMap nullable⟩ =
              .ok (⟨items, Nat.succ.inj size⟩, ⟨0, []⟩) := ih others rest (by omega)
          rw [List.flatMap_cons, tryArrayInit_next next]
          simp [first, tail, bind, Except.bind, pure, Except.pure]

theorem tryArrayInit_avoids (fine : ∀ raw, read raw ≠ .error .panicked) (expected left : Nat)
    (values : ArrayValues) (natural : 0 ≤ values.remaining.toInt) :
    tryArrayInit read expected left values ≠ .error .panicked ∧
      ∀ items rest, tryArrayInit read expected left values = .ok (items, rest) →
        0 ≤ rest.remaining.toInt := by
  induction left generalizing values with
  | zero =>
      refine ⟨ok_avoids _, fun items rest same => ?_⟩
      cases same
      exact natural
  | succ left ih =>
      obtain ⟨-, -, step⟩ | ⟨error, step⟩ | ⟨value, rest, step, -, still, -⟩ :=
        ArrayValues.next_cases natural
      · rw [tryArrayInit, checked, step]
        exact ⟨failed_avoids _, fun _ _ same => by cases same⟩
      · rw [tryArrayInit, checked, step]
        exact ⟨failed_avoids _, fun _ _ same => by cases same⟩
      · rw [tryArrayInit_next step]
        obtain ⟨others, kept⟩ := ih rest still
        constructor
        · refine bind_avoids (fine value) fun item _ => ?_
          exact bind_avoids others fun both _ => ok_avoids _
        · intro items last same
          cases own : read value with
          | error error =>
              simp [own, bind, Except.bind] at same
          | ok item =>
              cases ran : tryArrayInit read expected left rest with
              | error error => simp [own, ran, bind, Except.bind] at same
              | ok both =>
                  simp only [own, ran, bind, Except.bind, pure, Except.pure, Except.ok.injEq,
                    Prod.mk.injEq] at same
                  obtain ⟨-, rfl⟩ := same
                  exact kept both.1 both.2 ran

theorem checked_next_avoids {values : ArrayValues} (natural : 0 ≤ values.remaining.toInt) :
    checked values.next ≠ .error .panicked := by
  rw [checked]
  obtain ⟨-, -, step⟩ | ⟨error, step⟩ | ⟨value, rest, step, -, -, -⟩ :=
    ArrayValues.next_cases natural <;> rw [step]
  · exact ok_avoids _
  · exact failed_avoids _
  · exact ok_avoids _

end

/-! ### The implementations -/

section

variable {member : Codec} {nullable : Bool}

theorem elementAccepts_iff {accepts : PgType → Bool} {type_ : PgType} :
    elementAccepts accepts type_ = true ↔
      ∃ memberType, type_.kind = .array memberType ∧ accepts memberType = true := by
  cases kind : type_.kind <;> simp [elementAccepts, kind]

theorem bare_array {type_ memberType : PgType} (kind : type_.kind = .array memberType) :
    type_.bare = type_ := by
  simp [PgType.bare, kind]

/-- What `&[T]` writes stands under its one dimension. -/
theorem ok_sliceToSql (lawful : member.Lawful nullable) {type_ memberType : PgType}
    (sound : type_.Sound) (kind : type_.kind = .array memberType)
    (accepted : member.toSqlAccepts memberType = true) {elements : List member.Value}
    {buf after : Bytes} {isNull : IsNull}
    (ran : Builder.Ok (sliceToSql member type_ elements) buf isNull after) :
    isNull = .no ∧ elements.length < 2 ^ 31 ∧ ∃ flags lowerBound values,
      after = buf ++ (headWire 1 flags memberType.oid [⟨Int32.ofNat elements.length, lowerBound⟩] ++
        values.flatMap Protocol.nullable) ∧
      (∀ value ∈ values, FitsI32 value) ∧
      List.Forall₂ (fun value element => member.fromSqlNullable memberType value = .ok element)
        values elements := by
  have below : memberType.Sound := sound.part (by simp [kind, Kind.parts])
  simp only [sliceToSql, kind] at ran
  obtain ⟨size, _, first, ran⟩ := Builder.ok_bind.mp ran
  obtain ⟨_, _, second, last⟩ := Builder.ok_bind.mp ran
  obtain ⟨rfl, rfl⟩ := Builder.ok_pure.mp last
  rw [downcast] at first
  split at first
  · cases first
  · obtain ⟨rfl, rfl⟩ := Builder.ok_pure.mp first
    obtain ⟨flags, values, rfl, fits, reads⟩ := ok_arrayToSql lawful below accepted second
    exact ⟨rfl, by omega, flags, _, values, rfl, fits, reads⟩

theorem avoids_sliceToSql (lawful : member.Lawful nullable) {type_ memberType : PgType}
    (sound : type_.Sound) (kind : type_.kind = .array memberType)
    (accepted : member.toSqlAccepts memberType = true) (elements : List member.Value) :
    Builder.Avoids .panicked (sliceToSql member type_ elements) := by
  have below : memberType.Sound := sound.part (by simp [kind, Kind.parts])
  simp only [sliceToSql, kind]
  refine Builder.avoids_bind ?_ fun size => Builder.avoids_bind ?_ fun _ => Builder.avoids_pure _
  · rw [downcast]
    split
    · exact Builder.avoids_throw (failed_ne _)
    · exact Builder.avoids_pure _
  · refine Builder.avoids_bind Builder.avoids_length fun dimensionsIdx => ?_
    refine Builder.avoids_bind (Builder.avoids_append _) fun _ => ?_
    refine Builder.avoids_bind Builder.avoids_length fun flagsIdx => ?_
    refine Builder.avoids_bind (Builder.avoids_append _) fun _ => ?_
    refine Builder.avoids_bind (Builder.avoids_append _) fun _ => ?_
    refine Builder.avoids_bind ?_ fun numDimensions => ?_
    · exact fun buf => ok_avoids _
    · refine Builder.avoids_bind ?_ fun count => ?_
      · dsimp only [i32FromUsize, fromUsize]
        split
        · exact Builder.avoids_throw (failed_ne _)
        · exact Builder.avoids_pure _
      · refine Builder.avoids_bind (Builder.avoids_patch _ _) fun _ => ?_
        refine Builder.avoids_bind (avoids_writeElements lawful below accepted elements false)
          fun hasNulls => ?_
        exact Builder.avoids_patch _ _

theorem Lawful.vec (lawful : member.Lawful nullable) : (Codec.vec member).Lawful false where
  symmetric type_ accepted := by
    obtain ⟨memberType, kind, accepted⟩ := elementAccepts_iff.mp accepted
    exact elementAccepts_iff.mpr ⟨memberType, kind, lawful.symmetric memberType accepted⟩
  appends type_ sound accepted value buf isNull after ran := by
    obtain ⟨memberType, kind, accepted⟩ := elementAccepts_iff.mp accepted
    obtain ⟨rfl, -, flags, lowerBound, values, rfl, -, -⟩ :=
      ok_sliceToSql lawful sound kind accepted ran
    exact ⟨_, rfl, fun null => absurd null no_ne_yes⟩
  writes type_ sound accepted value := by
    obtain ⟨memberType, kind, accepted⟩ := elementAccepts_iff.mp accepted
    exact avoids_sliceToSql lawful sound kind accepted value
  reads type_ sound accepted layers raw := by
    obtain ⟨memberType, kind, accepted⟩ := elementAccepts_iff.mp accepted
    rw [PgType.bare_iterate (bare_array kind)]
    cases raw with
    | none => exact wasNull_avoids
    | some raw =>
        have below : memberType.Sound := sound.part (by simp [kind, Kind.parts])
        simp only [fromSqlNullable, Codec.vec, kind]
        refine bind_avoids (arrayValues_avoids raw) fun values read => ?_
        exact collect_avoids (lawful.reads_at below accepted) values (arrayValues_natural read)
  roundTrips type_ sound accepted value buf written ran := by
    obtain ⟨memberType, kind, accepted⟩ := elementAccepts_iff.mp accepted
    cases written with
    | none => exact absurd (ok_sliceToSql lawful sound kind accepted ran).1.symm no_ne_yes
    | some out =>
        obtain ⟨-, small, flags, lowerBound, values, same, fits, reads⟩ :=
          ok_sliceToSql lawful sound kind accepted ran
        obtain rfl := List.append_cancel_left same
        have counted : (Int32.ofNat value.length).toInt = values.length :=
          (Int32.toInt_ofNat_of_lt small).trans (congrArg Nat.cast reads.length_eq.symm)
        have head := arrayValues_slice small flags lowerBound memberType.oid
          (values.flatMap Protocol.nullable)
        simp only [fromSqlNullable, Codec.vec, kind, head]
        exact collect_written reads fits counted

theorem Lawful.array (lawful : member.Lawful nullable) (size : Nat) :
    (Codec.array member size).Lawful false where
  symmetric := lawful.vec.symmetric
  appends type_ sound accepted value := lawful.vec.appends type_ sound accepted value.1
  writes type_ sound accepted value := lawful.vec.writes type_ sound accepted value.1
  reads type_ sound accepted layers raw := by
    obtain ⟨memberType, kind, accepted⟩ := elementAccepts_iff.mp accepted
    rw [PgType.bare_iterate (bare_array kind)]
    cases raw with
    | none => exact wasNull_avoids
    | some raw =>
        have below : memberType.Sound := sound.part (by simp [kind, Kind.parts])
        simp only [fromSqlNullable, Codec.array, kind]
        refine bind_avoids (arrayValues_avoids raw) fun values read => ?_
        obtain ⟨fine, kept⟩ := tryArrayInit_avoids (lawful.reads_at below accepted) size size values
          (arrayValues_natural read)
        refine bind_avoids fine fun both taken => ?_
        refine bind_avoids (checked_next_avoids (kept both.1 both.2 taken)) fun more _ => ?_
        split
        · exact failed_avoids _
        · exact ok_avoids _
  roundTrips type_ sound accepted value buf written ran := by
    obtain ⟨memberType, kind, accepted⟩ := elementAccepts_iff.mp accepted
    cases written with
    | none => exact absurd (ok_sliceToSql lawful sound kind accepted ran).1.symm no_ne_yes
    | some out =>
        obtain ⟨-, small, flags, lowerBound, values, same, fits, reads⟩ :=
          ok_sliceToSql lawful sound kind accepted ran
        obtain rfl := List.append_cancel_left same
        have counted : (Int32.ofNat value.1.length).toInt = values.length :=
          (Int32.toInt_ofNat_of_lt small).trans (congrArg Nat.cast reads.length_eq.symm)
        have head := arrayValues_slice small flags lowerBound memberType.oid
          (values.flatMap Protocol.nullable)
        have init : tryArrayInit (member.fromSqlNullable memberType) size size
            ⟨Int32.ofNat value.1.length, values.flatMap Protocol.nullable⟩ = .ok (value, ⟨0, []⟩) :=
          tryArrayInit_written reads fits counted
        have nothing : checked (ArrayValues.mk 0 []).next = .ok none := rfl
        simp only [fromSqlNullable, Codec.array, kind, head]
        simp [init, nothing, bind, Except.bind, pure, Except.pure]

end

end OpenGauss.Derive.Codec
