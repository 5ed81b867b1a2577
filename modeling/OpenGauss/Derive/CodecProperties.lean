import OpenGauss.Derive.CodecArrays

/-! The implementations that are derived and generic, made of one another in any way: on
every type of a server they write what they read, and no bytes of it make them panic. -/

set_option autoImplicit false

namespace OpenGauss.Derive

open Lib Protocol OpenGauss.Types

/-! ### Structs -/

namespace Struct

variable {self : Struct} {fields : List (PgField PgType)}

/-- What one trait accepts of every field, the other does. -/
theorem accepts_imp {first second : Field → PgType → Bool} {type_ : PgType}
    (imp : ∀ field ∈ self.fields, ∀ type_, first field type_ = true → second field type_ = true)
    (accepted : self.accepts first type_ = true) : self.accepts second type_ = true := by
  rw [accepts] at accepted ⊢
  split at accepted
  · cases accepted
  · next named =>
      rw [if_neg named]
      cases kind : type_.kind with
      | composite fields =>
          rw [kind] at accepted
          dsimp only at accepted ⊢
          split at accepted
          · cases accepted
          · next count =>
              rw [if_neg count]
              refine List.all_eq_true.mpr fun field member => ?_
              obtain ⟨position, found, known⟩ :=
                acceptsArm_iff.mp (List.all_eq_true.mp accepted field member)
              exact acceptsArm_iff.mpr
                ⟨position, found, imp _ (List.get_mem self.fields position) field.type_ known⟩
      | _ => simp [kind] at accepted

theorem exists_composite {accepts : Field → PgType → Bool} {type_ : PgType}
    (accepted : self.accepts accepts type_ = true) : ∃ fields, type_.kind = .composite fields := by
  rw [Struct.accepts] at accepted
  cases kind : type_.kind <;> simp [kind] at accepted
  exact ⟨_, rfl⟩

/-- An accepted field is accepted by the one that has its name. -/
theorem accepts_at (matching : self.Matches fields) {accepts : Field → PgType → Bool}
    {type_ : PgType} (composite : type_.kind = .composite fields)
    (accepted : self.accepts accepts type_ = true) {field : PgField PgType} (member : field ∈ fields)
    {position : Fin self.fields.length} (named : (self.fields.get position).name = field.name) :
    accepts (self.fields.get position) field.type_ = true := by
  obtain ⟨other, found, known⟩ := (accepts_known composite accepted).2 field member
  obtain rfl := Option.some.inj (found.symm.trans (matching.arm_eq named))
  exact known

/-- A panic while the fields are read is that of the codec of one of them. -/
theorem readFields_panicked (matching : self.Matches fields) {tail : List (PgField PgType)}
    (within : tail ⊆ fields) {tempVars : self.TempVars} {buf : Bytes}
    (panicked : self.readFields tail tempVars buf = .error .panicked) :
    ∃ field ∈ tail, ∃ position raw, (self.fields.get position).name = field.name ∧
      (self.fields.get position).fromSqlNullable field.type_ raw = .error .panicked := by
  induction tail generalizing tempVars buf with
  | nil => cases panicked
  | cons field others ih =>
      obtain ⟨member, more⟩ := List.cons_subset.mp within
      obtain ⟨position, found⟩ := matching.exists_arm member
      by_contra fine
      have own : ∀ raw, (self.fields.get position).fromSqlNullable field.type_ raw ≠
          .error .panicked := by
        intro raw failed
        exact fine ⟨field, List.mem_cons_self, position, raw, name_of_arm found, failed⟩
      refine reader_avoids (failing_avoids _ _) (fun oid between _ => ?_) panicked
      split
      · exact failed_avoids _
      · rw [readArm_eq found]
        refine reader_avoids (reader_avoids ?_ fun _ _ _ => ok_avoids _)
          fun filled next _ failed => ?_
        · exact reader_avoids (failing_avoids _ _) fun raw rest _ => lift_avoids (own raw) rest
        · obtain ⟨other, later, blamed⟩ := ih more failed
          exact fine ⟨other, List.mem_cons_of_mem _ later, blamed⟩

theorem fromSql_panicked (matching : self.Matches fields) {type_ : PgType}
    (composite : type_.kind = .composite fields) {raw : Bytes}
    (panicked : self.fromSql type_ raw = .error .panicked) :
    ∃ field ∈ fields, ∃ position raw, (self.fields.get position).name = field.name ∧
      (self.fields.get position).fromSqlNullable field.type_ raw = .error .panicked := by
  have within := List.Subset.refl fields
  by_contra fine
  have whole : self.readComposite fields raw ≠ .error .panicked := by
    refine reader_avoids (failing_avoids _ _) fun numFields between _ => ?_
    split
    · exact failed_avoids _
    · refine reader_avoids (fun failed => fine (readFields_panicked matching within failed))
        fun filled rest read => ?_
      have all (position : Fin self.fields.length) : (filled position).isSome :=
        readFields_fills matching within read (.inr (matching.named position))
      rw [unwrap_filled all]
      exact ok_avoids _
  rw [fromSql, composite] at panicked
  exact map_avoids Prod.fst whole panicked

end Struct

namespace Codec

section

variable {name : String} {entries : List (String × Codec)} {nullable : String × Codec → Bool}

theorem exists_entry (position : Fin (struct name entries).fields.length) :
    ∃ entry ∈ entries, (struct name entries).fields.get position = field entry := by
  obtain ⟨entry, member, same⟩ := List.mem_map.mp (List.get_mem (struct name entries).fields position)
  exact ⟨entry, member, same.symm⟩

theorem bare_composite {type_ : PgType} {fields : List (PgField PgType)}
    (kind : type_.kind = .composite fields) : type_.bare = type_ := by
  simp [PgType.bare, kind]

theorem fields_sound {type_ : PgType} {fields : List (PgField PgType)} (sound : type_.Sound)
    (kind : type_.kind = .composite fields) :
    (fields.map PgField.name).Nodup ∧ fields.length < 2 ^ 31 ∧
      ∀ field ∈ fields, field.type_.Sound := by
  have parts : ∀ field ∈ fields, field.type_ ∈ type_.kind.parts := by
    intro field member
    rw [kind]
    exact List.mem_map.mpr ⟨field, member, rfl⟩
  cases sound with
  | new below distinct counted =>
      exact ⟨distinct fields kind, counted fields kind,
        fun field member => below field.type_ (parts field member)⟩

/-- What the laws say of the field that stands under a name. -/
theorem documented_entry {entry : String × Codec} {null : Bool} (lawful : entry.2.Lawful null)
    {type_ : PgType} (sound : type_.Sound) (accepted : entry.2.toSqlAccepts type_ = true) :
    (field entry).Documented type_ ∧ (field entry).RoundTrips type_ := by
  refine ⟨⟨?_, ?_, ?_⟩, ?_⟩
  · intro value buf isNull after ran
    obtain ⟨out, same, empty⟩ := lawful.appends type_ sound accepted value buf isNull after ran
    exact ⟨out, same, fun null => (empty null).2⟩
  · exact lawful.writes type_ sound accepted
  · exact lawful.reads_at sound (lawful.symmetric type_ accepted)
  · exact lawful.roundTrips type_ sound accepted

variable (laws : ∀ entry ∈ entries, entry.2.Lawful (nullable entry))

include laws

theorem documented_struct {type_ : PgType} {fields : List (PgField PgType)} (sound : type_.Sound)
    (kind : type_.kind = .composite fields)
    (accepted : (struct name entries).toSqlAccepts type_ = true) :
    (struct name entries).Matches fields ∧ (struct name entries).DocumentedAt fields ∧
      (struct name entries).RoundTripsAt fields := by
  obtain ⟨distinct, -, below⟩ := fields_sound sound kind
  have matching := Struct.matches_of_accepts kind distinct accepted
  have each : ∀ pgField ∈ fields, ∀ position,
      ((struct name entries).fields.get position).name = pgField.name →
        ((struct name entries).fields.get position).Documented pgField.type_ ∧
          ((struct name entries).fields.get position).RoundTrips pgField.type_ := by
    intro pgField member position named
    have known := Struct.accepts_at matching kind accepted member named
    obtain ⟨entry, within, same⟩ := exists_entry position
    rw [same] at known ⊢
    exact documented_entry (laws entry within) (below pgField member) known
  exact ⟨matching, fun pgField member position named => (each pgField member position named).1,
    fun pgField member position named => (each pgField member position named).2⟩

theorem composite_lawful : (composite name entries).Lawful false where
  symmetric type_ accepted := by
    refine Struct.accepts_imp (fun pgField member type_ known => ?_) accepted
    obtain ⟨entry, within, rfl⟩ := List.mem_map.mp member
    exact (laws entry within).symmetric type_ known
  appends type_ sound accepted value buf isNull after ran := by
    obtain ⟨fields, kind⟩ := Struct.exists_composite accepted
    obtain ⟨matching, documented, roundTrips⟩ := documented_struct laws sound kind accepted
    obtain ⟨rfl, wrote⟩ := (Struct.ok_toSql matching documented kind).mp ran
    obtain ⟨out, rfl, -⟩ :=
      Struct.readFields_written matching roundTrips (List.Subset.refl fields) wrote
    exact ⟨_, List.append_assoc _ _ _, fun null => absurd null no_ne_yes⟩
  writes type_ sound accepted value := by
    obtain ⟨fields, kind⟩ := Struct.exists_composite accepted
    obtain ⟨matching, documented, -⟩ := documented_struct laws sound kind accepted
    exact Struct.avoids_toSql matching documented kind
  reads type_ sound accepted layers raw := by
    obtain ⟨fields, kind⟩ := Struct.exists_composite accepted
    rw [PgType.bare_iterate (bare_composite kind)]
    cases raw with
    | none => exact wasNull_avoids
    | some raw =>
        intro panicked
        obtain ⟨distinct, -, below⟩ := fields_sound sound kind
        have matching := Struct.matches_of_accepts kind distinct accepted
        obtain ⟨pgField, member, position, raw, named, blamed⟩ :=
          Struct.fromSql_panicked matching kind panicked
        have known := Struct.accepts_at matching kind accepted member named
        obtain ⟨entry, within, same⟩ := exists_entry position
        rw [same] at known blamed
        exact (laws entry within).reads_at (below pgField member) known raw blamed
  roundTrips type_ sound accepted value buf written ran := by
    obtain ⟨fields, kind⟩ := Struct.exists_composite accepted
    obtain ⟨matching, documented, roundTrips⟩ := documented_struct laws sound kind accepted
    cases written with
    | none => exact absurd ((Struct.ok_toSql matching documented kind).mp ran).1.symm no_ne_yes
    | some out =>
        have wrote := ((Struct.ok_toSql matching documented kind).mp ran).2
        obtain ⟨-, counted, -⟩ := fields_sound sound kind
        exact Struct.fromSql_written matching roundTrips counted kind wrote

end

/-! ### All that are made of one another -/

/-- The types of the standard library that have one server type each, or a few. -/
def builtins : List Codec := [bool, i8, i16, i32, u32, i64, f32, f64, str, bytea]

theorem builtins_lawful {codec : Codec} (known : codec ∈ builtins) : codec.Lawful false := by
  simp only [builtins, List.mem_cons, List.not_mem_nil, or_false] at known
  obtain rfl | rfl | rfl | rfl | rfl | rfl | rfl | rfl | rfl | rfl := known
  · exact bool_lawful
  · exact i8_lawful
  · exact i16_lawful
  · exact i32_lawful
  · exact u32_lawful
  · exact i64_lawful
  · exact f32_lawful
  · exact f64_lawful
  · exact str_lawful
  · exact bytea_lawful

/-- The implementations that are made of those, and of others that keep to the laws, with
whether a value can be written as a `NULL`: where `from_sql_null` is not handed on, none may
come from below. -/
inductive Generated : Codec → Bool → Prop where
  | given {codec : Codec} {nullable : Bool} (lawful : codec.Lawful nullable) :
      Generated codec nullable
  | builtin {codec : Codec} (known : codec ∈ builtins) : Generated codec false
  | option {inner : Codec} (of : Generated inner false) : Generated (option inner) true
  | boxed {inner : Codec} (of : Generated inner false) : Generated (boxed inner) false
  | vec {member : Codec} {nullable : Bool} (of : Generated member nullable) :
      Generated (vec member) false
  | array {member : Codec} {nullable : Bool} (of : Generated member nullable) (size : Nat) :
      Generated (array member size) false
  | transparent {inner : Codec} (of : Generated inner false) : Generated (transparent inner) false
  | domain {inner : Codec} (of : Generated inner false) (name : String) :
      Generated (domain name inner) false
  | enum (name : String) {variants : List String} (distinct : variants.Nodup)
      (allowMismatch : Bool) : Generated (enum name variants allowMismatch) false
  | composite (name : String) {entries : List (String × Codec)} {nullable : String × Codec → Bool}
      (of : ∀ entry ∈ entries, Generated entry.2 (nullable entry)) :
      Generated (composite name entries) false

theorem Generated.lawful {codec : Codec} {nullable : Bool} (generated : Generated codec nullable) :
    codec.Lawful nullable := by
  induction generated with
  | given lawful => exact lawful
  | builtin known => exact builtins_lawful known
  | option _ ih => exact ih.option
  | boxed _ ih => exact ih.boxed
  | vec _ ih => exact ih.vec
  | array _ size ih => exact ih.array size
  | transparent _ ih => exact ih.transparent
  | domain _ name ih => exact ih.domain name
  | enum name distinct allowMismatch => exact enum_lawful name distinct allowMismatch
  | composite name _ ih => exact composite_lawful ih

/-! ### The calls that look at the type first -/

theorem wrongType_ne (type_ : PgType) (stop : Stop) : Refusal.wrongType type_ ≠ .stopped stop := nofun

theorem mapError_stopped {Value : Type} {outcome : Except Stop Value} {refusal : Refusal}
    (failed : outcome.mapError Refusal.stopped = .error refusal) :
    ∃ stop, outcome = .error stop ∧ refusal = .stopped stop := by
  cases outcome with
  | ok value => cases failed
  | error stop => exact ⟨stop, rfl, (Except.error.inj failed).symm⟩

theorem toSqlChecked_avoids {codec : Codec} {nullable : Bool} (lawful : codec.Lawful nullable)
    {type_ : PgType} (sound : type_.Sound) (value : codec.Value) :
    Builder.Avoids (.stopped .panicked) (codec.toSqlChecked type_ value) := by
  rw [toSqlChecked]
  cases accepted : codec.toSqlAccepts type_ with
  | false => exact Builder.avoids_throw (wrongType_ne type_ .panicked)
  | true =>
      intro buf failed
      have failed : ((codec.toSql type_ value).execute buf).1.mapError Refusal.stopped =
          .error (.stopped .panicked) := failed
      obtain ⟨stop, stopped, same⟩ := mapError_stopped failed
      cases same
      exact lawful.writes type_ sound accepted value buf stopped

def orderCodec : Codec :=
  composite "order" [("id", i64), ("tags", vec (option str)),
    ("mood", enum "mood" ["sad", "ok"] false), ("price", domain "price" i32)]

def moodType : PgType := .new "mood" 16501 (.enum ["ok", "sad"]) "public"

def textType : PgType := .new "text" 25 .simple "pg_catalog"

def orderFields : List (PgField PgType) :=
  [⟨"mood", moodType⟩, ⟨"id", .new "int8" 20 .simple "pg_catalog"⟩,
    ⟨"tags", .new "_text" 1009 (.array textType) "pg_catalog"⟩,
    ⟨"price", .new "price" 16502 (.domain int4Type) "public"⟩]

def orderType : PgType := .new "order" 16500 (.composite orderFields) "public"

def orderValue : orderCodec.Value
  | ⟨0, _⟩ => (7 : Int64)
  | ⟨1, _⟩ => ([some ['a'], none] : List (Option (List Char)))
  | ⟨2, _⟩ => (1 : Fin 2)
  | ⟨3, _⟩ => (-1 : Int32)

def orderBytes : Bytes :=
  [0, 0, 0, 4, 0, 0, 64, 117, 0, 0, 0, 2, 111, 107, 0, 0, 0, 20, 0, 0, 0, 8, 0, 0, 0, 0, 0, 0, 0, 7,
    0, 0, 3, 241, 0, 0, 0, 29, 0, 0, 0, 1, 0, 0, 0, 1, 0, 0, 0, 25, 0, 0, 0, 2, 0, 0, 0, 1,
    0, 0, 0, 1, 97, 255, 255, 255, 255, 0, 0, 64, 118, 0, 0, 0, 4, 255, 255, 255, 255]

theorem orderCodec_generated : Generated orderCodec false := by
  refine @Generated.composite "order" _ (fun _ => false) fun entry member => ?_
  simp only [List.mem_cons, List.not_mem_nil, or_false] at member
  obtain rfl | rfl | rfl | rfl := member
  · exact .builtin (by simp [builtins])
  · exact .vec (.option (.builtin (by simp [builtins])))
  · exact .enum "mood" (by decide) false
  · exact .domain (.builtin (by simp [builtins])) "price"

/-- A type that is not made of others. -/
theorem sound_single {name schema : String} {oid : UInt32} {kind : Kind PgType}
    (single : kind.parts = []) (noFields : ∀ fields, kind ≠ .composite fields) :
    (PgType.new name oid kind schema).Sound := by
  refine .new ?_ (fun fields same => absurd same (noFields fields))
    (fun fields same => absurd same (noFields fields))
  rw [single]
  exact fun part member => absurd member List.not_mem_nil

/-- A type that is made of one other. -/
theorem sound_over {name schema : String} {oid : UInt32} {kind : Kind PgType} {base : PgType}
    (made : kind.parts = [base]) (noFields : ∀ fields, kind ≠ .composite fields)
    (sound : base.Sound) : (PgType.new name oid kind schema).Sound := by
  refine .new ?_ (fun fields same => absurd same (noFields fields))
    (fun fields same => absurd same (noFields fields))
  rw [made]
  exact List.forall_mem_singleton.mpr sound

theorem orderType_sound : orderType.Sound := by
  refine .new (fun part member => ?_) (fun fields same => ?_) (fun fields same => ?_)
  · simp only [Kind.parts, orderFields, List.map_cons, List.map_nil, List.mem_cons,
      List.not_mem_nil, or_false] at member
    obtain rfl | rfl | rfl | rfl := member
    · exact sound_single rfl (by simp)
    · exact sound_single rfl (by simp)
    · exact sound_over rfl (by simp) (sound_single rfl (by simp))
    · exact sound_over rfl (by simp) (sound_single rfl (by simp))
  · cases same
    decide
  · cases same
    decide

theorem orderCodec_writes :
    (orderCodec.toSqlChecked orderType orderValue).execute [] = (.ok .no, orderBytes) := by
  rfl

end Codec

end OpenGauss.Derive
