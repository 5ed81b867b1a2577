import OpenGauss.Derive.Composite

/-! The derived code on a composite type of the server: what it writes stands under the
server's own names, it reads that back, and it does not panic. -/

set_option autoImplicit false

namespace OpenGauss.Derive

open Lib Protocol OpenGauss.Types
open Protocol.ArraySql (Slice asUsize)

/-! ### Codecs of the fields -/

/-- The call appends these bytes, and none for a NULL. -/
def Writes (build : Put Stop IsNull) (buf : Bytes) : Option Bytes → Prop
  | none => Builder.Ok build buf .yes buf
  | some out => Builder.Ok build buf .no (buf ++ out)

namespace Field

/-- What the traits ask of the codec of a field, at one type. -/
structure Documented (field : Field) (type_ : PgType) : Prop where
  appends : ∀ value buf isNull after, Builder.Ok (field.toSql type_ value) buf isNull after →
    ∃ out, after = buf ++ out ∧ (isNull = .yes → out = [])
  writes : ∀ value, Builder.Avoids .panicked (field.toSql type_ value)
  reads : ∀ raw, field.fromSqlNullable type_ raw ≠ .error .panicked

def RoundTrips (field : Field) (type_ : PgType) : Prop :=
  ∀ value buf written, Writes (field.toSql type_ value) buf written →
    field.fromSqlNullable type_ written = .ok value

theorem Documented.ok_iff {field : Field} {type_ : PgType} (documented : field.Documented type_)
    {value : field.Value} {buf after : Bytes} {isNull : IsNull} :
    Builder.Ok (field.toSql type_ value) buf isNull after ↔
      ∃ written, Writes (field.toSql type_ value) buf written ∧
        isNull = (if written.isNone then .yes else .no) ∧ after = buf ++ written.getD [] := by
  constructor
  · intro ran
    obtain ⟨out, rfl, empty⟩ := documented.appends value buf isNull after ran
    cases isNull with
    | yes =>
        obtain rfl := empty rfl
        rw [List.append_nil] at ran ⊢
        exact ⟨none, ran, rfl, (List.append_nil buf).symm⟩
    | no => exact ⟨some out, ran, rfl, rfl⟩
  · intro found
    obtain ⟨written, ran, rfl, rfl⟩ := found
    cases written with
    | none =>
        have same : buf ++ (none : Option Bytes).getD [] = buf := List.append_nil buf
        rw [same]
        exact ran
    | some out => exact ran

end Field

namespace Struct

variable {self : Struct} {fields : List (PgField PgType)}

/-! ### Names -/

theorem name_of_arm {name : String} {position : Fin self.fields.length}
    (found : self.arm name = some position) : (self.fields.get position).name = name :=
  beq_iff_eq.mp (List.findFinIdx?_eq_some_iff.mp found).1

theorem acceptsArm_iff {fieldAccepts : Field → PgType → Bool} {field : PgField PgType} :
    self.acceptsArm fieldAccepts field = true ↔
      ∃ position, self.arm field.name = some position ∧
        fieldAccepts (self.fields.get position) field.type_ = true := by
  rw [acceptsArm]
  cases found : self.arm field.name with
  | none => exact ⟨fun same => (by cases same), fun known => (nomatch known.choose_spec.1)⟩
  | some position =>
      constructor
      · exact fun accepted => ⟨position, rfl, accepted⟩
      · intro known
        obtain ⟨other, same, accepted⟩ := known
        cases same
        exact accepted

theorem accepts_known {fieldAccepts : Field → PgType → Bool} {type_ : PgType}
    (composite : type_.kind = .composite fields)
    (accepted : self.accepts fieldAccepts type_ = true) :
    fields.length = self.fields.length ∧
      ∀ field ∈ fields, ∃ position, self.arm field.name = some position ∧
        fieldAccepts (self.fields.get position) field.type_ = true := by
  rw [accepts, composite] at accepted
  split at accepted
  · cases accepted
  · dsimp only at accepted
    split at accepted
    · cases accepted
    · next count =>
        refine ⟨Decidable.not_not.mp count, fun field member => ?_⟩
        exact acceptsArm_iff.mp (List.all_eq_true.mp accepted field member)

/-- The names of the struct are those of the composite type, each once. -/
structure Matches (struct : Struct) (fields : List (PgField PgType)) : Prop where
  perm : (struct.fields.map Field.name).Perm (fields.map PgField.name)
  distinct : (struct.fields.map Field.name).Nodup

/-- As many fields, none twice, and each of them known: then none is missing. -/
theorem matches_of_accepts {fieldAccepts : Field → PgType → Bool} {type_ : PgType}
    (composite : type_.kind = .composite fields) (distinct : (fields.map PgField.name).Nodup)
    (accepted : self.accepts fieldAccepts type_ = true) : self.Matches fields := by
  obtain ⟨count, known⟩ := accepts_known composite accepted
  have subset : fields.map PgField.name ⊆ self.fields.map Field.name := by
    intro name member
    obtain ⟨field, within, rfl⟩ := List.mem_map.mp member
    obtain ⟨position, found, _⟩ := known field within
    exact List.mem_map.mpr ⟨_, List.get_mem self.fields position, name_of_arm found⟩
  have counts : (self.fields.map Field.name).length ≤ (fields.map PgField.name).length := by
    rw [List.length_map, List.length_map]
    exact Nat.le_of_eq count.symm
  have perm := (List.subperm_of_subset distinct subset).perm_of_length_le counts
  exact ⟨perm.symm, perm.nodup_iff.mp distinct⟩

theorem Matches.arm_eq (matching : self.Matches fields) {name : String}
    {position : Fin self.fields.length} (named : (self.fields.get position).name = name) :
    self.arm name = some position := by
  subst named
  refine List.findFinIdx?_eq_some_iff.mpr ⟨beq_self_eq_true _, fun earlier before same => ?_⟩
  have size := @List.length_map _ _ self.fields Field.name
  have equal : (self.fields.map Field.name).get (earlier.cast size.symm) =
      (self.fields.map Field.name).get (position.cast size.symm) := by
    rw [List.get_eq_getElem, List.get_eq_getElem, List.getElem_map, List.getElem_map]
    exact beq_iff_eq.mp same
  have positions := congrArg Fin.val (matching.distinct.get_inj_iff.mp equal)
  exact absurd positions (Nat.ne_of_lt before)

theorem Matches.exists_arm (matching : self.Matches fields) {field : PgField PgType}
    (member : field ∈ fields) : ∃ position, self.arm field.name = some position := by
  have named := matching.perm.mem_iff.mpr (List.mem_map.mpr ⟨field, member, rfl⟩)
  obtain ⟨own, within, same⟩ := List.mem_map.mp named
  obtain ⟨position, rfl⟩ := List.get_of_mem within
  exact ⟨position, matching.arm_eq same⟩

theorem Matches.named (matching : self.Matches fields) (position : Fin self.fields.length) :
    (self.fields.get position).name ∈ fields.map PgField.name :=
  matching.perm.mem_iff.mp (List.mem_map.mpr ⟨_, List.get_mem self.fields position, rfl⟩)

/-! ### Writing -/

section

variable {value : self.Values}

/-- Under each field of the composite type stands the value of the struct's field of that
name, as its codec writes it for the type of the field. -/
inductive WritesFields (self : Struct) (value : self.Values) :
    Bytes → List (PgField PgType) → Bytes → Prop where
  | nil {buf : Bytes} : WritesFields self value buf [] buf
  | cons {buf after : Bytes} {field : PgField PgType} {fields : List (PgField PgType)}
      {written : Option Bytes} {position : Fin self.fields.length}
      (named : (self.fields.get position).name = field.name)
      (writes : Writes ((self.fields.get position).toSql field.type_ (value position))
        (buf ++ be32 field.type_.oid.toNat ++ be32 0) written)
      (fits : FitsI32 written)
      (rest : WritesFields self value
        (buf ++ be32 field.type_.oid.toNat ++ nullable written) fields after) :
      WritesFields self value buf (field :: fields) after

/-- The codecs of the fields that stand under these names. -/
def DocumentedAt (struct : Struct) (fields : List (PgField PgType)) : Prop :=
  ∀ field ∈ fields, ∀ position, (struct.fields.get position).name = field.name →
    (struct.fields.get position).Documented field.type_

def RoundTripsAt (struct : Struct) (fields : List (PgField PgType)) : Prop :=
  ∀ field ∈ fields, ∀ position, (struct.fields.get position).name = field.name →
    (struct.fields.get position).RoundTrips field.type_

theorem ok_valueCount {base : Nat} {isNull : IsNull} {count : Int32} {buf after : Bytes} :
    Builder.Ok (valueCount base isNull) buf count after ↔
      (isNull = .no → buf.length - base - 4 < 2 ^ 31) ∧
        count = (if isNull = .no then Int32.ofNat (buf.length - base - 4) else -1) ∧
        after = buf := by
  cases isNull with
  | yes =>
      rw [valueCount, Builder.ok_pure]
      simp
  | no =>
      rw [valueCount, Builder.ok_bind]
      simp only [ok_len, if_true, forall_const]
      constructor
      · intro ran
        obtain ⟨length, between, ⟨rfl, rfl⟩, ran⟩ := ran
        by_cases large : 2147483647 < between.length - base - 4
        · rw [if_pos large] at ran
          cases ran
        · rw [if_neg large] at ran
          obtain ⟨rfl, rfl⟩ := Builder.ok_pure.mp ran
          exact ⟨by omega, rfl, rfl⟩
      · intro fits
        obtain ⟨small, rfl, rfl⟩ := fits
        refine ⟨_, _, ⟨rfl, rfl⟩, ?_⟩
        rw [if_neg (by omega)]
        exact Builder.ok_pure.mpr ⟨rfl, rfl⟩

theorem avoids_valueCount (base : Nat) (isNull : IsNull) :
    Builder.Avoids .panicked (valueCount base isNull) := by
  cases isNull with
  | yes => exact Builder.avoids_pure _
  | no =>
      refine Builder.avoids_bind Builder.avoids_length fun len => ?_
      dsimp only
      split
      · exact Builder.avoids_throw nofun
      · exact Builder.avoids_pure _

theorem writeArm_eq {field : PgField PgType} {position : Fin self.fields.length}
    (found : self.arm field.name = some position) :
    self.writeArm value field = (self.fields.get position).toSql field.type_ (value position) := by
  rw [writeArm, found]

theorem length_hole (front out : Bytes) :
    (front ++ be32 0 ++ out).length - front.length - 4 = out.length := by
  simp only [List.length_append, be32_length]
  omega

/-- The length that is patched in before what a codec has appended. -/
theorem overwrite_count (front : Bytes) {written : Option Bytes} (fits : FitsI32 written) :
    Builder.overwrite (front ++ be32 0 ++ written.getD []) front.length
        (be32 (if (if written.isNone then IsNull.yes else .no) = .no then
          Int32.ofNat ((front ++ be32 0 ++ written.getD []).length - front.length - 4)
          else -1).toUInt32.toNat) = front ++ nullable written := by
  rw [overwrite_be32, List.append_assoc]
  cases written with
  | none => exact congrArg _ (List.append_nil _)
  | some out =>
      have same : (some out).getD [] = out := rfl
      rw [same, length_hole, Option.isNone_some, if_neg Bool.false_ne_true, if_pos rfl,
        toNat_ofNat_of_lt (fits out rfl)]
      rfl

theorem ok_writeField {field : PgField PgType} {position : Fin self.fields.length}
    (found : self.arm field.name = some position)
    (documented : (self.fields.get position).Documented field.type_) {buf after : Bytes}
    {done : Unit} :
    Builder.Ok (self.writeField value field) buf done after ↔
      ∃ written, Writes ((self.fields.get position).toSql field.type_ (value position))
          (buf ++ be32 field.type_.oid.toNat ++ be32 0) written ∧
        FitsI32 written ∧
        after = buf ++ be32 field.type_.oid.toNat ++ nullable written := by
  rw [writeField]
  constructor
  · intro ran
    obtain ⟨_, _, first, ran⟩ := Builder.ok_bind.mp ran
    obtain rfl := ok_putU32.mp first
    obtain ⟨_, _, second, ran⟩ := Builder.ok_bind.mp ran
    obtain ⟨rfl, rfl⟩ := ok_len.mp second
    obtain ⟨_, _, third, ran⟩ := Builder.ok_bind.mp ran
    obtain rfl := ok_putSlice.mp third
    obtain ⟨isNull, _, fourth, ran⟩ := Builder.ok_bind.mp ran
    rw [writeArm_eq found] at fourth
    obtain ⟨written, writes, rfl, rfl⟩ := documented.ok_iff.mp fourth
    obtain ⟨_, _, fifth, last⟩ := Builder.ok_bind.mp ran
    obtain ⟨small, rfl, rfl⟩ := ok_valueCount.mp fifth
    obtain rfl := ok_writeI32.mp last
    have fits : FitsI32 written := by
      intro out same
      obtain rfl := Option.mem_def.mp same
      have bound := small rfl
      exact Nat.lt_of_le_of_lt (Nat.le_of_eq (length_hole _ out).symm) bound
    exact ⟨written, writes, fits, overwrite_count _ fits⟩
  · intro found'
    obtain ⟨written, writes, fits, rfl⟩ := found'
    refine Builder.ok_bind.mpr ⟨(), _, ok_putU32.mpr rfl, ?_⟩
    refine Builder.ok_bind.mpr ⟨_, _, ok_len.mpr ⟨rfl, rfl⟩, ?_⟩
    refine Builder.ok_bind.mpr ⟨(), _, ok_putSlice.mpr rfl, ?_⟩
    have called := documented.ok_iff.mpr ⟨written, writes, rfl, rfl⟩
    rw [← writeArm_eq found] at called
    refine Builder.ok_bind.mpr ⟨_, _, called, ?_⟩
    refine Builder.ok_bind.mpr ⟨_, _, ok_valueCount.mpr ⟨?_, rfl, rfl⟩, ?_⟩
    · intro value
      cases written with
      | none => cases value
      | some out => exact Nat.lt_of_le_of_lt (Nat.le_of_eq (length_hole _ out)) (fits out rfl)
    · exact ok_writeI32.mpr (overwrite_count _ fits).symm

theorem ok_writeFields (matching : self.Matches fields) (documented : self.DocumentedAt fields)
    {tail : List (PgField PgType)} (within : tail ⊆ fields) {buf after : Bytes} {done : Unit} :
    Builder.Ok (self.writeFields value tail) buf done after ↔
      self.WritesFields value buf tail after := by
  induction tail generalizing buf with
  | nil =>
      constructor
      · intro ran
        obtain ⟨-, rfl⟩ := Builder.ok_pure.mp ran
        exact .nil
      · intro wrote
        cases wrote
        exact Builder.ok_pure.mpr ⟨rfl, rfl⟩
  | cons field others ih =>
      obtain ⟨member, rest⟩ := List.cons_subset.mp within
      rw [writeFields, Builder.ok_bind]
      constructor
      · intro ran
        obtain ⟨_, between, first, ran⟩ := ran
        obtain ⟨position, found⟩ := matching.exists_arm member
        have named := name_of_arm found
        obtain ⟨written, writes, fits, rfl⟩ :=
          (ok_writeField found (documented field member position named)).mp first
        exact .cons named writes fits ((ih rest).mp ran)
      · intro wrote
        cases wrote with
        | cons named writes fits more =>
            refine ⟨(), _, ?_, (ih rest).mpr more⟩
            exact (ok_writeField (matching.arm_eq named)
              (documented field member _ named)).mpr ⟨_, writes, fits, rfl⟩

theorem avoids_writeFields (matching : self.Matches fields) (documented : self.DocumentedAt fields)
    {tail : List (PgField PgType)} (within : tail ⊆ fields) :
    Builder.Avoids .panicked (self.writeFields value tail) := by
  induction tail with
  | nil => exact Builder.avoids_pure _
  | cons field others ih =>
      obtain ⟨member, rest⟩ := List.cons_subset.mp within
      obtain ⟨position, found⟩ := matching.exists_arm member
      have codec := documented field member position (name_of_arm found)
      have call : Builder.Avoids .panicked (self.writeArm value field) := by
        rw [writeArm_eq found]
        exact codec.writes (value position)
      refine Builder.avoids_bind ?_ fun _ => ih rest
      refine Builder.avoids_bind (Builder.avoids_append _) fun _ => ?_
      refine Builder.avoids_bind Builder.avoids_length fun base => ?_
      refine Builder.avoids_bind (Builder.avoids_append _) fun _ => ?_
      refine Builder.avoids_bind call fun isNull => ?_
      exact Builder.avoids_bind (avoids_valueCount base isNull) fun _ => Builder.avoids_patch _ _

/-- `to_sql` writes the count and the fields. -/
theorem ok_toSql (matching : self.Matches fields) (documented : self.DocumentedAt fields)
    {type_ : PgType} (composite : type_.kind = .composite fields) {buf after : Bytes}
    {isNull : IsNull} :
    Builder.Ok (self.toSql value type_) buf isNull after ↔
      isNull = .no ∧
        self.WritesFields value (buf ++ i32Wire (Int32.ofNat fields.length)) fields after := by
  rw [toSql, composite]
  dsimp only
  rw [Builder.ok_bind]
  constructor
  · intro ran
    obtain ⟨_, _, first, ran⟩ := ran
    obtain rfl := ok_putI32.mp first
    obtain ⟨_, _, second, last⟩ := Builder.ok_bind.mp ran
    obtain ⟨rfl, rfl⟩ := Builder.ok_pure.mp last
    exact ⟨rfl, (ok_writeFields matching documented (List.Subset.refl fields)).mp second⟩
  · intro wrote
    obtain ⟨rfl, wrote⟩ := wrote
    refine ⟨(), _, ok_putI32.mpr rfl, Builder.ok_bind.mpr ⟨(), after, ?_, Builder.ok_pure.mpr ⟨rfl, rfl⟩⟩⟩
    exact (ok_writeFields matching documented (List.Subset.refl fields)).mpr wrote

theorem avoids_toSql (matching : self.Matches fields) (documented : self.DocumentedAt fields)
    {type_ : PgType} (composite : type_.kind = .composite fields) :
    Builder.Avoids .panicked (self.toSql value type_) := by
  rw [toSql, composite]
  refine Builder.avoids_bind (Builder.avoids_append _) fun _ => ?_
  refine Builder.avoids_bind ?_ fun _ => Builder.avoids_pure _
  exact avoids_writeFields matching documented (List.Subset.refl fields)

end

/-! ### Reading -/

section

variable {First Second : Type} {first : Reader First} {next : First → Reader Second}
  {buf between rest : Bytes} {result : Second}

theorem reader_ran {value : First} (ran : first buf = .ok (value, between)) :
    (first >>= next) buf = next value between := by
  simp only [bind, StateT.bind, ran, Except.bind]

theorem reader_ok :
    (first >>= next) buf = .ok (result, rest) ↔
      ∃ value between, first buf = .ok (value, between) ∧ next value between = .ok (result, rest) := by
  cases ran : first buf with
  | error error =>
      simp only [bind, StateT.bind, ran, Except.bind]
      exact ⟨fun same => (by cases same), fun found => (nomatch found.choose_spec.choose_spec.1)⟩
  | ok both =>
      rw [reader_ran ran]
      constructor
      · exact fun more => ⟨both.1, both.2, rfl, more⟩
      · intro found
        obtain ⟨value, between, same, more⟩ := found
        cases same
        exact more

/-- An error that is no panic is none for another result either. -/
theorem error_avoids {error : Stop} (fine : (.error error : Except Stop First) ≠ .error .panicked) :
    (.error error : Except Stop Second) ≠ .error .panicked :=
  fun failed => fine (congrArg Except.error (Except.error.inj failed))

theorem map_avoids {outcome : Except Stop First} (f : First → Second)
    (fine : outcome ≠ .error .panicked) : outcome.map f ≠ .error .panicked := by
  cases outcome with
  | error error => exact error_avoids fine
  | ok value => exact fun failed => nomatch failed

theorem lift_avoids {outcome : Except Stop First} (fine : outcome ≠ .error .panicked) (buf : Bytes) :
    (liftM outcome : Reader First) buf ≠ .error .panicked := by
  cases outcome with
  | error error => exact error_avoids fine
  | ok value => exact fun failed => nomatch failed

/-- A panic comes from the one or from the other. -/
theorem reader_avoids (fine : first buf ≠ .error .panicked)
    (more : ∀ value between, first buf = .ok (value, between) →
      next value between ≠ .error .panicked) : (first >>= next) buf ≠ .error .panicked := by
  cases ran : first buf with
  | error error =>
      simp only [bind, StateT.bind, ran, Except.bind]
      rw [ran] at fine
      exact error_avoids fine
  | ok both =>
      rw [reader_ran ran]
      exact more both.1 both.2 ran

end

theorem failing_ok {Value : Type} {read : Slice Value} {buf rest : Bytes} {value : Value}
    (ran : read buf = .ok (value, rest)) : failing read buf = .ok (value, rest) := by
  rw [failing, ran]
  rfl

theorem failing_avoids {Value : Type} (read : Slice Value) (buf : Bytes) :
    failing read buf ≠ .error .panicked := by
  rw [failing]
  cases read buf with
  | error error => exact fun failed => nomatch Except.error.inj failed
  | ok both => exact fun failed => nomatch failed

theorem readBeI32_wire (value : Int32) (rest : Bytes) :
    readBeI32 (i32Wire value ++ rest) = .ok (value, rest) := by
  have split : splitAtChecked "invalid buffer size" 4 (i32Wire value ++ rest) =
      .ok (i32Wire value, rest) := splitAtChecked_append "invalid buffer size" (i32Wire value) rest
  rw [readBeI32, ArraySql.bind_ran split, i32Wire, beNat_be32 _ value.toUInt32.toNat_lt,
    UInt32.ofNat_toNat]
  rfl

theorem readRaw_nullable {written : Option Bytes} (fits : FitsI32 written) (rest : Bytes) :
    readRaw (nullable written ++ rest) = .ok (written, rest) := by
  cases written with
  | none =>
      have length := readBeI32_wire (-1) rest
      have negative : (-1 : Int32) < 0 := by decide
      rw [readRaw]
      exact (ArraySql.bind_ran length).trans (by rw [if_pos negative]; rfl)
  | some out =>
      obtain ⟨natural, size⟩ := ofNat_nonnegative (fits out rfl)
      have shape : nullable (some out) ++ rest = i32Wire (Int32.ofNat out.length) ++ (out ++ rest) := by
        rw [i32Wire_ofNat (fits out rfl)]
        exact List.append_assoc ..
      rw [shape, readRaw, ArraySql.bind_ran (readBeI32_wire _ _), if_neg natural, size,
        ArraySql.bind_ran (splitAtChecked_append "invalid buffer size" out rest)]
      rfl

theorem readValue_written {field : Field} {type_ : PgType} {written : Option Bytes}
    {value : field.Value} (read : field.fromSqlNullable type_ written = .ok value)
    (fits : FitsI32 written) (rest : Bytes) :
    readValue field type_ (nullable written ++ rest) = .ok (value, rest) := by
  rw [readValue, reader_ran (failing_ok (readRaw_nullable fits rest)), read]
  rfl

theorem readValue_avoids {field : Field} {type_ : PgType} (documented : field.Documented type_)
    (buf : Bytes) : readValue field type_ buf ≠ .error .panicked := by
  exact reader_avoids (failing_avoids _ _) fun raw between _ =>
    lift_avoids (documented.reads raw) between

theorem readArm_eq {tempVars : self.TempVars} {field : PgField PgType}
    {position : Fin self.fields.length} (found : self.arm field.name = some position) :
    self.readArm tempVars field = (do
      let value ← readValue (self.fields.get position) field.type_
      return Function.update tempVars position (some value)) := by
  rw [readArm, found]

/-- The variables are filled with the values that stand under their names. -/
theorem readFields_written (matching : self.Matches fields) (roundTrips : self.RoundTripsAt fields)
    {value : self.Values} {tail : List (PgField PgType)} (within : tail ⊆ fields)
    {buf after : Bytes} (wrote : self.WritesFields value buf tail after) :
    ∃ out, after = buf ++ out ∧ ∀ tempVars rest, ∃ filled,
      self.readFields tail tempVars (out ++ rest) = .ok (filled, rest) ∧
        ∀ position, filled position =
          if (self.fields.get position).name ∈ tail.map PgField.name then some (value position)
          else tempVars position := by
  induction wrote with
  | @nil buf =>
      refine ⟨[], (List.append_nil buf).symm, fun tempVars rest => ⟨tempVars, rfl, fun position => ?_⟩⟩
      exact (if_neg List.not_mem_nil).symm
  | @cons buf after field others written position named writes fits _ ih =>
      obtain ⟨member, more⟩ := List.cons_subset.mp within
      obtain ⟨out, rfl, reads⟩ := ih more
      refine ⟨be32 field.type_.oid.toNat ++ nullable written ++ out, by simp only [List.append_assoc],
        fun tempVars rest => ?_⟩
      obtain ⟨filled, read, fills⟩ :=
        reads (Function.update tempVars position (some (value position))) rest
      refine ⟨filled, ?_, fun other => ?_⟩
      · have oid := readBeI32_wire field.type_.oid.toInt32 (nullable written ++ (out ++ rest))
        have shape : be32 field.type_.oid.toNat ++ nullable written ++ out ++ rest =
            i32Wire field.type_.oid.toInt32 ++ (nullable written ++ (out ++ rest)) := by
          simp only [List.append_assoc]
          rfl
        have known : ¬field.type_.oid.toInt32.toUInt32 ≠ field.type_.oid := fun differ => differ rfl
        have decoded := roundTrips field member position named _ _ _ writes
        rw [shape, readFields, reader_ran (failing_ok oid), if_neg known,
          readArm_eq (matching.arm_eq named)]
        refine (reader_ran ?_).trans read
        exact (reader_ran (readValue_written decoded fits (out ++ rest))).trans rfl
      · rw [fills other, List.map_cons]
        by_cases later : (self.fields.get other).name ∈ others.map PgField.name
        · rw [if_pos later, if_pos (List.mem_cons_of_mem _ later)]
        · rw [if_neg later]
          by_cases same : (self.fields.get other).name = field.name
          · have equal := (matching.arm_eq same).symm.trans (matching.arm_eq named)
            cases equal
            rw [Function.update_self, if_pos (by rw [same]; exact List.mem_cons_self)]
          · have different : other ≠ position := fun equal => same (by rw [equal]; exact named)
            rw [Function.update_of_ne different]
            exact (if_neg fun found => (List.mem_cons.mp found).elim same later).symm

/-- Every variable whose name has been seen is filled. -/
theorem readFields_fills {tail : List (PgField PgType)} {tempVars filled : self.TempVars}
    (matching : self.Matches fields) (within : tail ⊆ fields)
    {buf rest : Bytes} (read : self.readFields tail tempVars buf = .ok (filled, rest))
    {position : Fin self.fields.length}
    (seen : (tempVars position).isSome ∨
      (self.fields.get position).name ∈ tail.map PgField.name) :
    (filled position).isSome := by
  induction tail generalizing tempVars buf with
  | nil =>
      obtain ⟨rfl, -⟩ := Prod.mk.inj (Except.ok.inj read)
      exact seen.resolve_right List.not_mem_nil
  | cons field others ih =>
      obtain ⟨member, more⟩ := List.cons_subset.mp within
      obtain ⟨own, found⟩ := matching.exists_arm member
      obtain ⟨oid, between, _, read⟩ := reader_ok.mp read
      by_cases other : oid.toUInt32 ≠ field.type_.oid
      · rw [if_pos other] at read
        cases read
      · rw [if_neg other, readArm_eq found] at read
        obtain ⟨tempVars', next, first, read⟩ := reader_ok.mp read
        obtain ⟨value, tail, _, last⟩ := reader_ok.mp first
        obtain ⟨rfl, rfl⟩ := Prod.mk.inj (Except.ok.inj last)
        refine ih more read ?_
        by_cases same : position = own
        · subst same
          left
          rw [Function.update_self]
          rfl
        · rw [Function.update_of_ne same]
          refine seen.imp_right fun named => (List.mem_cons.mp named).resolve_left fun equal => ?_
          exact same (Option.some.inj ((matching.arm_eq equal).symm.trans found))

theorem readFields_avoids (matching : self.Matches fields) (documented : self.DocumentedAt fields)
    {tail : List (PgField PgType)} (within : tail ⊆ fields) (tempVars : self.TempVars)
    (buf : Bytes) : self.readFields tail tempVars buf ≠ .error .panicked := by
  induction tail generalizing tempVars buf with
  | nil => exact fun failed => nomatch failed
  | cons field others ih =>
      obtain ⟨member, more⟩ := List.cons_subset.mp within
      obtain ⟨position, found⟩ := matching.exists_arm member
      have codec := documented field member position (name_of_arm found)
      refine reader_avoids (failing_avoids _ _) fun oid between _ => ?_
      by_cases other : oid.toUInt32 ≠ field.type_.oid
      · rw [if_pos other]
        exact fun failed => nomatch Except.error.inj failed
      · rw [if_neg other, readArm_eq found]
        refine reader_avoids ?_ fun filled next _ => ih more filled next
        exact reader_avoids (readValue_avoids codec between) fun _ _ _ failed => nomatch failed

theorem unwrap_filled {tempVars : self.TempVars}
    (filled : ∀ position, (tempVars position).isSome) :
    self.unwrap tempVars = .ok fun position => (tempVars position).get (filled position) :=
  dif_pos filled

theorem fromSql_written (matching : self.Matches fields) (roundTrips : self.RoundTripsAt fields)
    (counted : fields.length < 2 ^ 31) {type_ : PgType}
    (composite : type_.kind = .composite fields) {value : self.Values} {buf out : Bytes}
    (wrote : self.WritesFields value (buf ++ i32Wire (Int32.ofNat fields.length)) fields
      (buf ++ out)) : self.fromSql type_ out = .ok value := by
  obtain ⟨content, whole, reads⟩ :=
    readFields_written matching roundTrips (List.Subset.refl fields) wrote
  rw [List.append_assoc] at whole
  obtain rfl := List.append_cancel_left whole
  obtain ⟨filled, read, fills⟩ := reads (fun _ => none) []
  rw [List.append_nil] at read
  have known (position : Fin self.fields.length) : filled position = some (value position) := by
    rw [fills position, if_pos (matching.named position)]
  have unwrapped : self.unwrap filled = .ok value := by
    rw [unwrap_filled fun position => by rw [known position]; rfl]
    exact congrArg Except.ok (funext fun position => Option.get_of_eq_some _ (known position))
  have count := readBeI32_wire (Int32.ofNat fields.length) content
  have announced : ¬asUsize (Int32.ofNat fields.length) ≠ fields.length :=
    fun differ => differ (ofNat_nonnegative counted).2
  have whole : self.readComposite fields (i32Wire (Int32.ofNat fields.length) ++ content) =
      .ok (value, []) := by
    rw [readComposite, reader_ran (failing_ok count), if_neg announced, reader_ran read, unwrapped]
    rfl
  rw [fromSql, composite]
  dsimp only
  rw [whole]
  rfl

theorem fromSql_avoids (matching : self.Matches fields) (documented : self.DocumentedAt fields)
    {type_ : PgType} (composite : type_.kind = .composite fields) (raw : Bytes) :
    self.fromSql type_ raw ≠ .error .panicked := by
  have fine : self.readComposite fields raw ≠ .error .panicked := by
    refine reader_avoids (failing_avoids _ _) fun numFields between _ => ?_
    by_cases other : asUsize numFields ≠ fields.length
    · rw [if_pos other]
      exact fun failed => nomatch Except.error.inj failed
    · rw [if_neg other]
      have within := List.Subset.refl fields
      refine reader_avoids (readFields_avoids matching documented within _ _)
        fun filled rest read => ?_
      have all (position : Fin self.fields.length) : (filled position).isSome :=
        readFields_fills matching within read (.inr (matching.named position))
      rw [unwrap_filled all]
      exact fun failed => nomatch failed
  rw [fromSql, composite]
  exact map_avoids Prod.fst fine

/-- On a composite type that it accepts, the derived code writes the fields under the names
of the server, reads them back and does not panic. -/
theorem composite_derived (self : Struct) (type_ : PgType) (fields : List (PgField PgType))
    (composite : type_.kind = .composite fields) (distinct : (fields.map PgField.name).Nodup)
    (documented : self.DocumentedAt fields) :
    (self.toSqlAccepts type_ = true →
      (self.fields.map Field.name).Perm (fields.map PgField.name) ∧
      ∀ value, Builder.Avoids .panicked (self.toSql value type_) ∧
        (∀ buf isNull after, Builder.Ok (self.toSql value type_) buf isNull after ↔
          isNull = .no ∧ self.WritesFields value
            (buf ++ i32Wire (Int32.ofNat fields.length)) fields after) ∧
        (self.RoundTripsAt fields → fields.length < 2 ^ 31 → ∀ buf isNull out,
          Builder.Ok (self.toSql value type_) buf isNull (buf ++ out) →
            self.fromSql type_ out = .ok value)) ∧
    (self.fromSqlAccepts type_ = true → ∀ raw, self.fromSql type_ raw ≠ .error .panicked) := by
  refine ⟨fun accepted => ?_, fun accepted raw => ?_⟩
  · have matching := matches_of_accepts composite distinct accepted
    refine ⟨matching.perm, fun value => ⟨avoids_toSql matching documented composite,
      fun buf isNull after => ok_toSql matching documented composite, ?_⟩⟩
    intro roundTrips counted buf isNull out ran
    have wrote := ((ok_toSql matching documented composite).mp ran).2
    exact fromSql_written matching roundTrips counted composite wrote
  · exact fromSql_avoids (matches_of_accepts composite distinct accepted) documented composite raw

end Struct

/-! ### A struct of an `i32` and an `Option<i32>` -/

def int4Type : PgType := .new "int4" 23 .simple "pg_catalog"

/-- `int4_from_sql`. -/
def int4FromSql : Slice Int32 := do
  let v ← ArraySql.readI32
  drained "invalid integer size"
  return v

def i32FromSql (raw : Bytes) : Except Stop Int32 :=
  ((int4FromSql raw).mapError .failed).map Prod.fst

def i32ToSql (value : Int32) : Put Stop IsNull := do
  putI32 value
  return .no

def i32Field (name : String) : Field where
  name
  Value := Int32
  toSqlAccepts type_ := type_.oid == 23
  toSql _ := i32ToSql
  fromSqlAccepts type_ := type_.oid == 23
  fromSqlNullable _ raw :=
    match raw with
    | some raw => i32FromSql raw
    | none => .error (.failed (.text "a Postgres value was `NULL`"))

def optionField (name : String) : Field where
  name
  Value := Option Int32
  toSqlAccepts type_ := type_.oid == 23
  toSql _ value :=
    match value with
    | some value => i32ToSql value
    | none => return .yes
  fromSqlAccepts type_ := type_.oid == 23
  fromSqlNullable _ raw :=
    match raw with
    | some raw => (i32FromSql raw).map some
    | none => .ok none

theorem ok_i32ToSql {value : Int32} {buf after : Bytes} {isNull : IsNull} :
    Builder.Ok (i32ToSql value) buf isNull after ↔ isNull = .no ∧ after = buf ++ i32Wire value := by
  rw [i32ToSql, Builder.ok_bind]
  constructor
  · intro ran
    obtain ⟨_, _, first, last⟩ := ran
    obtain ⟨rfl, rfl⟩ := Builder.ok_pure.mp last
    exact ⟨rfl, ok_putI32.mp first⟩
  · intro wrote
    obtain ⟨rfl, rfl⟩ := wrote
    exact ⟨(), _, ok_putI32.mpr rfl, Builder.ok_pure.mpr ⟨rfl, rfl⟩⟩

theorem i32FromSql_wire (value : Int32) : i32FromSql (i32Wire value) = .ok value := by
  have read := ArraySql.readI32_wire value []
  rw [List.append_nil] at read
  rw [i32FromSql, int4FromSql, ArraySql.bind_ran read]
  rfl

theorem i32FromSql_avoids (raw : Bytes) : i32FromSql raw ≠ .error .panicked := by
  refine Struct.map_avoids Prod.fst ?_
  cases int4FromSql raw with
  | error error => exact fun failed => nomatch Except.error.inj failed
  | ok both => exact fun failed => nomatch failed

theorem avoids_i32ToSql (value : Int32) : Builder.Avoids .panicked (i32ToSql value) :=
  Builder.avoids_bind (Builder.avoids_append _) fun _ => Builder.avoids_pure _

/-- What `to_sql` of an `i32` has written. -/
theorem writes_i32ToSql {value : Int32} {buf : Bytes} {written : Option Bytes}
    (writes : Writes (i32ToSql value) buf written) : written = some (i32Wire value) := by
  cases written with
  | none => exact nomatch (ok_i32ToSql.mp writes).1
  | some out => rw [List.append_cancel_left (ok_i32ToSql.mp writes).2]

theorem i32Field_documented (name : String) (type_ : PgType) :
    (i32Field name).Documented type_ where
  appends value buf isNull after ran := by
    obtain ⟨rfl, rfl⟩ := ok_i32ToSql.mp ran
    exact ⟨_, rfl, nofun⟩
  writes := avoids_i32ToSql
  reads raw := by
    cases raw with
    | none => exact fun failed => nomatch Except.error.inj failed
    | some raw => exact i32FromSql_avoids raw

theorem i32Field_roundTrips (name : String) (type_ : PgType) :
    (i32Field name).RoundTrips type_ := by
  intro value buf written writes
  obtain rfl := writes_i32ToSql writes
  exact i32FromSql_wire value

theorem optionField_documented (name : String) (type_ : PgType) :
    (optionField name).Documented type_ where
  appends value buf isNull after ran := by
    cases value with
    | none =>
        obtain ⟨rfl, rfl⟩ := Builder.ok_pure.mp ran
        exact ⟨[], (List.append_nil _).symm, fun _ => rfl⟩
    | some value =>
        obtain ⟨rfl, rfl⟩ := ok_i32ToSql.mp ran
        exact ⟨_, rfl, nofun⟩
  writes value := by
    cases value with
    | none => exact Builder.avoids_pure _
    | some value => exact avoids_i32ToSql value
  reads raw := by
    cases raw with
    | none => exact fun failed => nomatch failed
    | some raw => exact Struct.map_avoids some (i32FromSql_avoids raw)

theorem optionField_roundTrips (name : String) (type_ : PgType) :
    (optionField name).RoundTrips type_ := by
  intro value buf written writes
  cases value with
  | none =>
      cases written with
      | none => rfl
      | some out => exact nomatch (Builder.ok_pure.mp writes).1
  | some value =>
      obtain rfl := writes_i32ToSql writes
      exact congrArg (Except.map some) (i32FromSql_wire value)

def itemStruct : Struct := ⟨"item", [i32Field "id", optionField "parent"]⟩

def itemFields : List (PgField PgType) := [⟨"parent", int4Type⟩, ⟨"id", int4Type⟩]

def itemType : PgType := .new "item" 16400 (.composite itemFields) "public"

def itemValue : itemStruct.Values
  | ⟨0, _⟩ => (5 : Int32)
  | ⟨1, _⟩ => (none : Option Int32)

def itemBytes : Bytes :=
  [0, 0, 0, 2, 0, 0, 0, 23, 255, 255, 255, 255, 0, 0, 0, 23, 0, 0, 0, 4, 0, 0, 0, 5]

/-- A codec of the struct, with what is known of the one of each field. -/
theorem item_at (holds : Field → PgType → Prop)
    (first : holds (i32Field "id") int4Type) (second : holds (optionField "parent") int4Type) :
    ∀ field ∈ itemFields, ∀ position, (itemStruct.fields.get position).name = field.name →
      holds (itemStruct.fields.get position) field.type_ := by
  have int4 : ∀ field ∈ itemFields, field.type_ = int4Type :=
    List.forall_mem_cons.mpr ⟨rfl, List.forall_mem_cons.mpr ⟨rfl, nofun⟩⟩
  intro field member position _
  rw [int4 field member]
  match position with
  | ⟨0, _⟩ => exact first
  | ⟨1, _⟩ => exact second

theorem composite_derived_item :
    (itemStruct.toSql itemValue itemType).execute [] = (.ok .no, itemBytes) ∧
      itemStruct.fromSql itemType itemBytes = .ok itemValue := by
  have written : Builder.Ok (itemStruct.toSql itemValue itemType) [] .no itemBytes := rfl
  have documented : itemStruct.DocumentedAt itemFields :=
    item_at Field.Documented (i32Field_documented _ _) (optionField_documented _ _)
  have roundTrips : itemStruct.RoundTripsAt itemFields :=
    item_at Field.RoundTrips (i32Field_roundTrips _ _) (optionField_roundTrips _ _)
  have derived := Struct.composite_derived itemStruct itemType itemFields rfl (by decide) documented
  have accepted : itemStruct.toSqlAccepts itemType = true := by decide +kernel
  obtain ⟨-, encodes⟩ := derived.1 accepted
  exact ⟨written, (encodes itemValue).2.2 roundTrips (by decide) [] .no itemBytes written⟩

end OpenGauss.Derive
