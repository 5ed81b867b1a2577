import OpenGauss.Derive.Codec
import OpenGauss.Derive.CompositeProperties
import Mathlib.Logic.Function.Iterate

/-! What an implementation of the two traits owes the code that is made of it, and that
the values of a type of their own, and what is only wrapped, keep to it. -/

set_option autoImplicit false

namespace OpenGauss.Types.PgType

theorem Sound.part {type_ part : PgType} (sound : type_.Sound) (member : part ∈ type_.kind.parts) :
    part.Sound := by
  cases sound with
  | new parts _ _ => exact parts part member

theorem bare_domain {type_ base : PgType} (kind : type_.kind = .domain base) : type_.bare = base := by
  simp [bare, kind]

/-- Where there is no domain, nothing is below. -/
theorem bare_iterate {type_ : PgType} (bare : type_.bare = type_) (layers : Nat) :
    PgType.bare^[layers] type_ = type_ :=
  Function.iterate_fixed bare layers

end OpenGauss.Types.PgType

namespace OpenGauss.Derive

open Lib Protocol OpenGauss.Types

theorem no_ne_yes : IsNull.no ≠ .yes := nofun

theorem failed_ne (error : BoxError) : Stop.failed error ≠ .panicked := nofun

theorem failed_avoids {Value : Type} (error : BoxError) :
    (.error (.failed error) : Except Stop Value) ≠ .error .panicked :=
  fun failed => failed_ne error (Except.error.inj failed)

theorem ok_avoids {Value : Type} (value : Value) : (.ok value : Except Stop Value) ≠ .error .panicked :=
  nofun

theorem bind_avoids {First Second : Type} {outcome : Except Stop First}
    {next : First → Except Stop Second} (fine : outcome ≠ .error .panicked)
    (more : ∀ value, outcome = .ok value → next value ≠ .error .panicked) :
    (outcome >>= next) ≠ .error .panicked := by
  cases outcome with
  | error error => exact Struct.error_avoids fine
  | ok value => exact more value rfl

namespace Codec

/-- What is written is appended, for a `NULL` nothing, and is read back; neither writing
for an accepted type nor reading panics, also where domains above the type are taken off. -/
structure Lawful (codec : Codec) (nullable : Bool) : Prop where
  symmetric : ∀ type_, codec.toSqlAccepts type_ = true → codec.fromSqlAccepts type_ = true
  appends : ∀ type_, type_.Sound → codec.toSqlAccepts type_ = true →
    ∀ value buf isNull after, Builder.Ok (codec.toSql type_ value) buf isNull after →
      ∃ out, after = buf ++ out ∧ (isNull = .yes → nullable = true ∧ out = [])
  writes : ∀ type_, type_.Sound → codec.toSqlAccepts type_ = true →
    ∀ value, Builder.Avoids .panicked (codec.toSql type_ value)
  reads : ∀ type_, type_.Sound → codec.fromSqlAccepts type_ = true →
    ∀ layers raw, codec.fromSqlNullable (PgType.bare^[layers] type_) raw ≠ .error .panicked
  roundTrips : ∀ type_, type_.Sound → codec.toSqlAccepts type_ = true →
    ∀ value buf written, Writes (codec.toSql type_ value) buf written →
      codec.fromSqlNullable type_ written = .ok value

namespace Lawful

variable {codec : Codec} {nullable : Bool} {type_ : PgType}

theorem reads_at (lawful : codec.Lawful nullable) (sound : type_.Sound)
    (accepted : codec.fromSqlAccepts type_ = true) (raw : Option Bytes) :
    codec.fromSqlNullable type_ raw ≠ .error .panicked :=
  lawful.reads type_ sound accepted 0 raw

/-- What a call has written, as the one that reads takes it. -/
theorem written (lawful : codec.Lawful nullable) (sound : type_.Sound)
    (accepted : codec.toSqlAccepts type_ = true) {value : codec.Value} {buf after : Bytes}
    {isNull : IsNull} (ran : Builder.Ok (codec.toSql type_ value) buf isNull after) :
    ∃ written, Writes (codec.toSql type_ value) buf written ∧
      isNull = (if written.isNone then .yes else .no) ∧ after = buf ++ written.getD [] := by
  obtain ⟨out, rfl, empty⟩ := lawful.appends type_ sound accepted value buf isNull after ran
  cases isNull with
  | yes =>
      obtain ⟨-, rfl⟩ := empty rfl
      rw [List.append_nil] at ran
      exact ⟨none, ran, rfl, rfl⟩
  | no => exact ⟨some out, ran, rfl, rfl⟩

/-- Without a `NULL` there are bytes. -/
theorem some_of_writes (lawful : codec.Lawful false) (sound : type_.Sound)
    (accepted : codec.toSqlAccepts type_ = true) {value : codec.Value} {buf : Bytes}
    {written : Option Bytes} (writes : Writes (codec.toSql type_ value) buf written) :
    ∃ out, written = some out := by
  cases written with
  | some out => exact ⟨out, rfl⟩
  | none =>
      obtain ⟨out, -, missing⟩ := lawful.appends type_ sound accepted value buf .yes buf writes
      cases (missing rfl).1

end Lawful

/-! ### Values of a type of their own -/

theorem wasNull_avoids {Value : Type} : (wasNull : Except Stop Value) ≠ .error .panicked :=
  failed_avoids _

/-- An implementation that appends an encoding, and does not look into the type much. -/
theorem Lawful.ofEncoding {codec : Codec} (encode : PgType → codec.Value → Bytes)
    (symmetric : ∀ type_, codec.toSqlAccepts type_ = true → codec.fromSqlAccepts type_ = true)
    (ok : ∀ type_ value buf isNull after, Builder.Ok (codec.toSql type_ value) buf isNull after ↔
      isNull = .no ∧ after = buf ++ encode type_ value)
    (writes : ∀ type_ value, Builder.Avoids .panicked (codec.toSql type_ value))
    (reads : ∀ type_ raw, codec.fromSqlNullable type_ raw ≠ .error .panicked)
    (decodes : ∀ type_ value, codec.fromSql type_ (encode type_ value) = .ok value) :
    codec.Lawful false where
  symmetric := symmetric
  appends type_ _ _ value buf isNull after ran := by
    obtain ⟨rfl, rfl⟩ := (ok type_ value buf isNull after).mp ran
    exact ⟨_, rfl, fun null => absurd null no_ne_yes⟩
  writes type_ _ _ := writes type_
  reads type_ _ _ layers := reads _
  roundTrips type_ _ _ value buf written ran := by
    cases written with
    | none => exact absurd ((ok type_ value buf .yes buf).mp ran).1.symm no_ne_yes
    | some out =>
        have same := ((ok type_ value buf .no (buf ++ out)).mp ran).2
        obtain rfl := List.append_cancel_left same
        exact decodes type_ value

theorem ok_putSlice_no {bytes buf after : Bytes} {isNull : IsNull} :
    Builder.Ok (do putSlice bytes; return .no : Put Stop IsNull) buf isNull after ↔
      isNull = .no ∧ after = buf ++ bytes := by
  simp only [Builder.ok_bind, ok_putSlice, Builder.ok_pure]
  constructor
  · intro ran
    obtain ⟨_, _, rfl, rfl, rfl⟩ := ran
    exact ⟨rfl, rfl⟩
  · intro same
    obtain ⟨rfl, rfl⟩ := same
    exact ⟨(), _, rfl, rfl, rfl⟩

theorem avoids_putSlice_no (bytes : Bytes) :
    Builder.Avoids .panicked (do putSlice bytes; return .no : Put Stop IsNull) :=
  Builder.avoids_bind (Builder.avoids_append bytes) fun _ => Builder.avoids_pure _

theorem simple_lawful {Value : Type} {written read : List UInt32} {put : Value → Put Stop Unit}
    {get : ArraySql.Slice Value} (subset : written ⊆ read) (encode : Value → Bytes)
    (puts : ∀ value, put value = putSlice (encode value))
    (gets : ∀ value, ∃ rest, get (encode value) = .ok (value, rest)) :
    (simple written read put get).Lawful false := by
  refine Lawful.ofEncoding (fun _ => encode) ?_ ?_ ?_ ?_ ?_
  · intro type_ accepted
    exact List.contains_iff_mem.mpr (subset (List.contains_iff_mem.mp accepted))
  · intro type_ value buf isNull after
    have puts : put value = putSlice (encode value) := puts value
    simp only [simple, puts]
    exact ok_putSlice_no
  · intro type_ value
    have puts : put value = putSlice (encode value) := puts value
    simp only [simple, puts]
    exact avoids_putSlice_no _
  · intro type_ raw
    cases raw with
    | none => exact wasNull_avoids
    | some raw =>
        refine Struct.map_avoids Prod.fst ?_
        cases get raw with
        | error error => exact failed_avoids _
        | ok both => exact ok_avoids _
  · intro type_ value
    obtain ⟨rest, found⟩ := gets value
    simp [simple, found, Except.mapError, Except.map]

theorem length_beWord (size number : Nat) : (beWord size number).length = size := by
  induction size generalizing number with
  | zero => rfl
  | succ size ih => simp [beWord, ih]

theorem beNat_beWord {size number : Nat} (small : number < 256 ^ size) :
    beNat (beWord size number) = number := by
  induction size generalizing number with
  | zero =>
      obtain rfl : number = 0 := by simpa using small
      rfl
  | succ size ih =>
      have high : number / 256 < 256 ^ size := by
        rw [Nat.pow_succ] at small
        omega
      rw [beWord, beNat_concat, ih high, UInt8.toNat_ofNat']
      omega

theorem wordFromSql_beWord {size number : Nat} (small : number < 256 ^ size) :
    wordFromSql size (beWord size number) = .ok (number, []) := by
  have all := length_beWord size number
  have read : ArraySql.readExact size (beWord size number) = .ok (beWord size number, []) := by
    rw [ArraySql.readExact, if_neg (by omega), List.take_of_length_le (by omega),
      List.drop_eq_nil_of_le (by omega)]
  have ran {message : String} : drained message [] = .ok ((), []) := drained_ok.mpr ⟨rfl, rfl⟩
  rw [wordFromSql, ArraySql.bind_ran read,
    ArraySql.bind_ran ran, beNat_beWord small]
  rfl

theorem word_lawful {Value : Type} {size : Nat} {written read : List UInt32}
    {number : Value → Nat} {ofNumber : Nat → Value} (subset : written ⊆ read)
    (small : ∀ value, number value < 256 ^ size)
    (back : ∀ value, ofNumber (number value) = value) :
    (word size written read number ofNumber).Lawful false := by
  refine simple_lawful subset (fun value => beWord size (number value)) (fun _ => rfl) ?_
  intro value
  refine ⟨[], ?_⟩
  have read := wordFromSql_beWord (small value)
  simp only [Functor.map, StateT.map, read]
  rw [← back value]
  simp [bind, Except.bind, pure, Except.pure, back]

theorem bool_lawful : bool.Lawful false := by
  refine simple_lawful (List.Subset.refl _) (fun value => [if value then 1 else 0])
    (fun _ => rfl) fun value => ⟨[], ?_⟩
  cases value <;> rfl

theorem i8_lawful : i8.Lawful false :=
  word_lawful (List.Subset.refl _) (fun value => value.toUInt8.toNat_lt) fun value => by simp

theorem i16_lawful : i16.Lawful false :=
  word_lawful (List.Subset.refl _) (fun value => value.toUInt16.toNat_lt) fun value => by simp

theorem i32_lawful : i32.Lawful false :=
  word_lawful (List.Subset.refl _) (fun value => value.toUInt32.toNat_lt) fun value => by simp

theorem u32_lawful : u32.Lawful false :=
  word_lawful (by simp) UInt32.toNat_lt fun _ => UInt32.ofNat_toNat

theorem i64_lawful : i64.Lawful false :=
  word_lawful (List.Subset.refl _) (fun value => value.toUInt64.toNat_lt) fun value => by simp

theorem f32_lawful : f32.Lawful false :=
  word_lawful (List.Subset.refl _) UInt32.toNat_lt fun _ => UInt32.ofNat_toNat

theorem f64_lawful : f64.Lawful false :=
  word_lawful (List.Subset.refl _) UInt64.toNat_lt fun _ => UInt64.ofNat_toNat

theorem bytea_lawful : bytea.Lawful false :=
  simple_lawful (List.Subset.refl _) id (fun _ => rfl) fun _ => ⟨[], rfl⟩

theorem fromUtf8_avoids (bytes : Bytes) : fromUtf8 bytes ≠ .error .panicked := by
  rw [fromUtf8]
  cases Utf8.decode? bytes with
  | none => exact failed_avoids _
  | some text => exact ok_avoids _

theorem fromUtf8_encode (text : List Char) : fromUtf8 (Utf8.encode text) = .ok text := by
  simp [fromUtf8, Utf8.decode?_encode]

theorem str_lawful : str.Lawful false := by
  refine Lawful.ofEncoding
    (fun type_ value => (if isVersioned type_.name then [1] else []) ++ Utf8.encode value)
    (fun _ => id) ?_ ?_ ?_ ?_
  · intro type_ value buf isNull after
    cases versioned : isVersioned type_.name with
    | true =>
        simp only [str, versioned, if_true, Builder.ok_bind, ok_putU8]
        constructor
        · intro ran
          obtain ⟨_, _, rfl, rest⟩ := ran
          obtain ⟨rfl, rfl⟩ := ok_putSlice_no.mp (Builder.ok_bind.mpr rest)
          exact ⟨rfl, by simp⟩
        · intro same
          obtain ⟨rfl, rfl⟩ := same
          exact ⟨(), _, rfl, Builder.ok_bind.mp (ok_putSlice_no.mpr ⟨rfl, by simp⟩)⟩
    | false =>
        simp only [str, versioned]
        exact ok_putSlice_no
  · intro type_ value
    cases versioned : isVersioned type_.name with
    | true =>
        simp only [str, versioned, if_true]
        exact Builder.avoids_bind (Builder.avoids_append _) fun _ => avoids_putSlice_no _
    | false =>
        simp only [str, versioned]
        exact avoids_putSlice_no _
  · intro type_ raw
    cases raw with
    | none => exact wasNull_avoids
    | some raw =>
        simp only [fromSqlNullable, str]
        split
        · split
          · exact fromUtf8_avoids _
          · exact failed_avoids _
        · exact fromUtf8_avoids raw
  · intro type_ value
    have read := fromUtf8_encode value
    cases versioned : isVersioned type_.name <;> simpa [str, versioned] using read

/-! ### Wrappers -/

variable {inner : Codec}

theorem Lawful.option (lawful : inner.Lawful false) : (option inner).Lawful true where
  symmetric := lawful.symmetric
  appends type_ sound accepted value buf isNull after ran := by
    cases value with
    | none =>
        obtain ⟨rfl, rfl⟩ := Builder.ok_pure.mp ran
        exact ⟨[], (List.append_nil _).symm, fun _ => ⟨rfl, rfl⟩⟩
    | some value =>
        obtain ⟨out, rfl, empty⟩ := lawful.appends type_ sound accepted value buf isNull after ran
        exact ⟨out, rfl, fun null => by cases (empty null).1⟩
  writes type_ sound accepted value := by
    cases value with
    | none => exact Builder.avoids_pure _
    | some value => exact lawful.writes type_ sound accepted value
  reads type_ sound accepted layers raw := by
    cases raw with
    | none => exact ok_avoids _
    | some raw => exact Struct.map_avoids some (lawful.reads type_ sound accepted layers (some raw))
  roundTrips type_ sound accepted value buf written ran := by
    cases value with
    | none =>
        cases written with
        | none => rfl
        | some out => exact absurd (Builder.ok_pure.mp ran).1 no_ne_yes
    | some value =>
        obtain ⟨out, rfl⟩ := lawful.some_of_writes sound accepted ran
        have read := lawful.roundTrips type_ sound accepted value buf (some out) ran
        exact congrArg (Except.map some) read

/-- The same calls, for other types to read from; a `NULL` is read from none. -/
theorem Lawful.rewrapped (lawful : inner.Lawful false) {accepts : PgType → Bool}
    (enough : ∀ type_, inner.toSqlAccepts type_ = true → accepts type_ = true)
    (known : ∀ type_, accepts type_ = true → inner.fromSqlAccepts type_ = true) :
    Codec.Lawful { inner with fromSqlAccepts := accepts, fromSqlNull := fun _ => wasNull } false where
  symmetric := enough
  appends := lawful.appends
  writes := lawful.writes
  reads type_ sound accepted layers raw := by
    cases raw with
    | none => exact wasNull_avoids
    | some raw => exact lawful.reads type_ sound (known type_ accepted) layers (some raw)
  roundTrips type_ sound accepted value buf written ran := by
    obtain ⟨out, rfl⟩ := lawful.some_of_writes sound accepted ran
    exact lawful.roundTrips type_ sound accepted value buf (some out) ran

theorem Lawful.boxed (lawful : inner.Lawful false) : (boxed inner).Lawful false :=
  lawful.rewrapped lawful.symmetric fun _ => id

theorem Lawful.transparent (lawful : inner.Lawful false) : (transparent inner).Lawful false :=
  lawful.rewrapped (fun _ => id) lawful.symmetric

/-! ### Domains and enums -/

theorem domainAccepts_iff {name : String} {type_ : PgType} :
    domainAccepts name inner type_ = true ↔
      type_.name = name ∧ ∃ base, type_.kind = .domain base ∧ inner.toSqlAccepts base = true := by
  by_cases named : type_.name = name
  · cases kind : type_.kind <;> simp [domainAccepts, named, kind]
  · simp [domainAccepts, named]

theorem Lawful.domain (lawful : inner.Lawful false) (name : String) :
    (domain name inner).Lawful false where
  symmetric type_ accepted := by
    have named : domainAccepts name inner type_ = true := accepted
    simp [Codec.domain, named]
  appends type_ sound accepted value buf isNull after ran := by
    obtain ⟨-, base, kind, accepted⟩ := domainAccepts_iff.mp accepted
    simp only [Codec.domain, kind] at ran
    have below : base.Sound := sound.part (by simp [kind, Kind.parts])
    exact lawful.appends base below accepted value buf isNull after ran
  writes type_ sound accepted value := by
    obtain ⟨-, base, kind, accepted⟩ := domainAccepts_iff.mp accepted
    simp only [Codec.domain, kind]
    exact lawful.writes base (sound.part (by simp [kind, Kind.parts])) accepted value
  reads type_ sound accepted layers raw := by
    cases raw with
    | none => exact wasNull_avoids
    | some raw =>
        have taken : (Codec.domain name inner).fromSqlNullable (PgType.bare^[layers] type_) (some raw) =
            inner.fromSqlNullable (PgType.bare^[layers + 1] type_) (some raw) := by
          rw [Function.iterate_succ_apply']
          rfl
        rw [taken]
        cases own : inner.fromSqlAccepts type_ with
        | true => exact lawful.reads type_ sound own (layers + 1) (some raw)
        | false =>
            have named : domainAccepts name inner type_ = true := by
              simpa [Codec.domain, own] using accepted
            obtain ⟨-, base, kind, below⟩ := domainAccepts_iff.mp named
            rw [Function.iterate_succ_apply, PgType.bare_domain kind]
            have sound := sound.part (show base ∈ type_.kind.parts by simp [kind, Kind.parts])
            exact lawful.reads base sound (lawful.symmetric base below) layers (some raw)
  roundTrips type_ sound accepted value buf written ran := by
    obtain ⟨-, base, kind, accepted⟩ := domainAccepts_iff.mp accepted
    simp only [Codec.domain, kind] at ran
    have below : base.Sound := sound.part (by simp [kind, Kind.parts])
    obtain ⟨out, rfl⟩ := lawful.some_of_writes below accepted ran
    have read := lawful.roundTrips base below accepted value buf (some out) ran
    rw [← PgType.bare_domain kind] at read
    exact read

/-- A name is that of one variant only. -/
theorem findFinIdx?_get {variants : List String} (distinct : variants.Nodup)
    (variant : Fin variants.length) :
    variants.findFinIdx? (fun name => name.toList == (variants.get variant).toList) =
      some variant := by
  refine List.findFinIdx?_eq_some_iff.mpr ⟨by simp, fun earlier before same => ?_⟩
  have names : variants.get earlier = variants.get variant :=
    String.toList_inj.mp (beq_iff_eq.mp same)
  exact absurd (congrArg Fin.val (distinct.get_inj_iff.mp names)) (Nat.ne_of_lt before)

theorem enum_lawful (name : String) {variants : List String} (distinct : variants.Nodup)
    (allowMismatch : Bool) : (enum name variants allowMismatch).Lawful false := by
  refine Lawful.ofEncoding (fun _ value => Utf8.encode (variants.get value).toList)
    (fun _ => id) (fun _ _ _ _ _ => ok_putSlice_no) (fun _ _ => avoids_putSlice_no _) ?_ ?_
  · intro type_ raw
    cases raw with
    | none => exact wasNull_avoids
    | some raw =>
        refine bind_avoids (fromUtf8_avoids raw) fun text _ => ?_
        split
        · exact ok_avoids _
        · exact failed_avoids _
  · intro type_ value
    have read := fromUtf8_encode (variants.get value).toList
    simp only [Codec.enum, read, bind, Except.bind]
    rw [findFinIdx?_get distinct value]
    rfl

end Codec

end OpenGauss.Derive
