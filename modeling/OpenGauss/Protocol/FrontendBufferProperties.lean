import OpenGauss.Protocol.FrontendBuffer
import OpenGauss.Protocol.PutProperties

/-! The frontend builders append whole messages: one specification for each of
the nested writers, from these the fields of every message, and its decoding. -/

set_option autoImplicit false

namespace OpenGauss.Protocol.FrontendBuffer

open Lib

section Loops

variable {ε Captured Item : Type} {buf after : Bytes} {done : Unit}

theorem ok_writeItems {items : List Item} {serializer : Captured → Item → Put ε Captured}
    {captured final : Captured} {count : Nat} :
    Builder.Ok (writeItems items serializer captured) buf (final, count) after ↔
      Builder.Ok (items.foldlM serializer captured) buf final after ∧ count = items.length := by
  have loop (start : Nat) : Builder.Ok (items.foldlM (fun made item =>
        return (← serializer made.1 item, made.2 + 1)) (captured, start)) buf (final, count) after ↔
      Builder.Ok (items.foldlM serializer captured) buf final after ∧ count = start + items.length := by
    induction items generalizing captured buf start with
    | nil =>
      simp only [List.foldlM_nil, Builder.ok_pure, Prod.mk.injEq, List.length_nil, Nat.add_zero]
      constructor
      · exact fun ⟨⟨same, counted⟩, left⟩ => ⟨⟨same, left⟩, counted⟩
      · exact fun ⟨⟨same, left⟩, counted⟩ => ⟨⟨same, counted⟩, left⟩
    | cons item items ih =>
      simp only [List.foldlM_cons, Builder.ok_bind, Builder.ok_pure, List.length_cons]
      constructor
      · rintro ⟨_, _, ⟨next, between, ran, rfl, rfl⟩, rest⟩
        obtain ⟨later, counted⟩ := (ih (start + 1)).mp rest
        exact ⟨⟨next, _, ran, later⟩, by omega⟩
      · rintro ⟨⟨next, between, ran, rest⟩, rfl⟩
        exact ⟨_, _, ⟨next, between, ran, rfl, rfl⟩, (ih (start + 1)).mpr ⟨rest, by omega⟩⟩
  have whole := loop 0
  rw [Nat.zero_add] at whole
  exact whole

/-- A loop over items of which each appends the same bytes everywhere. -/
theorem ok_foldlM_plain {items : List Item} {put : Item → Put ε Unit} {wire : Item → Bytes}
    (ok_put : ∀ item buf after, Builder.Ok (put item) buf () after ↔ after = buf ++ wire item) :
    Builder.Ok (items.foldlM (plain put) ()) buf done after ↔ after = buf ++ items.flatMap wire := by
  induction items generalizing buf with
  | nil => simp [Builder.ok_pure]
  | cons item items ih =>
    simp only [List.foldlM_cons, Builder.ok_bind, plain, List.flatMap_cons]
    constructor
    · rintro ⟨_, between, first, rest⟩
      rw [(ok_put _ _ _).mp first] at rest
      rw [ih.mp rest, List.append_assoc]
    · rintro rfl
      exact ⟨(), _, (ok_put _ _ _).mpr rfl, ih.mpr (List.append_assoc _ _ _).symm⟩

end Loops

section Writers

variable {ε : Type} [FromIoError ε] {buf after : Bytes} {done : Unit}

theorem ok_writeCstr {s : Bytes} :
    Builder.Ok (writeCstr s : Put ε Unit) buf done after ↔ 0 ∉ s ∧ after = buf ++ (s ++ [0]) := by
  rw [writeCstr]
  split
  · rename_i embedded
    have inside : 0 ∈ s := by simpa using embedded
    constructor
    · intro impossible
      cases impossible
    · exact fun ⟨outside, _⟩ => absurd inside outside
  · rename_i plain
    have outside : 0 ∉ s := by simpa using plain
    simp only [Builder.ok_bind, ok_putSlice, ok_putU8]
    constructor
    · rintro ⟨_, _, rfl, rfl⟩
      exact ⟨outside, List.append_assoc _ _ _⟩
    · rintro ⟨-, rfl⟩
      exact ⟨(), _, rfl, (List.append_assoc _ _ _).symm⟩

theorem extends_writeCstr (s : Bytes) : Builder.Extends (writeCstr s : Put ε Unit) := by
  rw [writeCstr]
  split
  · exact fun buf => List.prefix_refl buf
  · exact Builder.extends_bind (Builder.extends_append _) fun _ => Builder.extends_append _

theorem extends_i32FromUsize (x : Nat) : Builder.Extends (i32FromUsize x : Put ε Int32) :=
  extends_fromUsize _ _ x

theorem extends_writeBody {f : Put ε Unit} (extending : Builder.Extends f) :
    Builder.Extends (writeBody f) := by
  refine Builder.extends_length fun base => ?_
  refine Builder.keeps_bind ((Builder.extends_append _).keeps base) fun _ => ?_
  refine Builder.keeps_bind (extending.keeps base) fun _ => ?_
  refine Builder.keeps_bind (Builder.extends_length_only.keeps base) fun length => ?_
  exact Builder.keeps_bind ((extends_i32FromUsize _).keeps base) fun _ => Builder.keeps_patch base _

/-- A body stands behind the length that counts its own four bytes. -/
theorem ok_writeBody {f : Put ε Unit} (extending : Builder.Extends f) :
    Builder.Ok (writeBody f) buf done after ↔
      ∃ out, Builder.Ok f (buf ++ be32 0) () (buf ++ be32 0 ++ out) ∧ out.length + 4 < 2 ^ 31 ∧
        after = buf ++ be32 (out.length + 4) ++ out := by
  have size (out : Bytes) : (buf ++ be32 0 ++ out).length - buf.length = out.length + 4 := by
    simp only [List.length_append, be32_length]
    omega
  rw [writeBody]
  simp only [Builder.ok_bind, ok_len, ok_putSlice, ok_i32FromUsize, ok_writeI32]
  constructor
  · rintro ⟨_, buf, ⟨rfl, rfl⟩, _, _, rfl, _, between, ran, _, _, ⟨rfl, rfl⟩, _, _, ⟨fits, rfl, rfl⟩, rfl⟩
    obtain ⟨out, rfl⟩ := ran.extends extending
    change Builder.Ok f (buf ++ be32 0) () (buf ++ be32 0 ++ out) at ran
    have written := size out
    change (buf ++ [0, 0, 0, 0] ++ out).length - buf.length = out.length + 4 at written
    rw [written] at fits ⊢
    refine ⟨out, ran, fits, ?_⟩
    rw [toNat_ofNat_of_lt fits]
    exact overwrite_be32 buf out _
  · rintro ⟨out, ran, fits, rfl⟩
    refine ⟨_, _, ⟨rfl, rfl⟩, (), _, rfl, (), _, ran, _, _, ⟨rfl, rfl⟩, _, _, ⟨?_, rfl, rfl⟩, ?_⟩
    · rw [size]; exact fits
    · rw [size, toNat_ofNat_of_lt fits, overwrite_be32]

variable {Captured Item : Type}

theorem extends_writeCounted {items : List Item} {serializer : Captured → Item → Put ε Captured}
    (extending : ∀ captured item, Builder.Extends (serializer captured item)) (captured : Captured) :
    Builder.Extends (writeCounted items serializer captured) := by
  have loop : Builder.Extends (writeItems items serializer captured) :=
    Builder.extends_foldlM _
      (fun (captured, count) item => Builder.extends_bind (extending captured item) fun _ =>
        Builder.extends_pure _) items _
  refine Builder.extends_length fun base => ?_
  refine Builder.keeps_bind ((Builder.extends_append _).keeps base) fun _ => ?_
  refine Builder.keeps_bind (loop.keeps base) fun (captured, count) => ?_
  exact Builder.keeps_bind ((extends_fromUsize _ _ count).keeps base) fun _ => Builder.keeps_patch base _

/-- The items stand behind their count. -/
theorem ok_writeCounted {items : List Item} {serializer : Captured → Item → Put ε Captured}
    {captured : Captured} (extending : ∀ captured item, Builder.Extends (serializer captured item)) :
    Builder.Ok (writeCounted items serializer captured) buf done after ↔
      ∃ final out, Builder.Ok (items.foldlM serializer captured) (buf ++ be16 0) final
          (buf ++ be16 0 ++ out) ∧ items.length < 2 ^ 16 ∧
        after = buf ++ be16 items.length ++ out := by
  have counted : items.length < 2 ^ 16 → (UInt16.ofNat items.length).toNat = items.length := by
    intro fits
    rw [UInt16.toNat_ofNat']
    omega
  have patched (out : Bytes) (value : Nat) :
      Builder.overwrite (buf ++ be16 0 ++ out) buf.length (be16 value) = buf ++ be16 value ++ out :=
    Builder.overwrite_append buf (be16 0) (be16 value) out rfl
  rw [writeCounted]
  simp only [Builder.ok_bind, ok_len, ok_putSlice, ok_u16FromUsize, ok_writeU16]
  constructor
  · rintro ⟨_, _, ⟨rfl, rfl⟩, _, _, rfl, ⟨final, count⟩, between, ran, _, _, ⟨fits, rfl, rfl⟩, rfl⟩
    obtain ⟨looped, rfl⟩ := ok_writeItems.mp ran
    obtain ⟨out, rfl⟩ := looped.extends (Builder.extends_foldlM _ extending items captured)
    exact ⟨final, out, looped, fits, by rw [counted fits]; exact patched out _⟩
  · rintro ⟨final, out, ran, fits, rfl⟩
    refine ⟨_, _, ⟨rfl, rfl⟩, (), _, rfl, (final, items.length), _, ok_writeItems.mpr ⟨ran, rfl⟩,
      _, _, ⟨fits, rfl, rfl⟩, ?_⟩
    rw [counted fits]
    exact (patched out _).symm

end Writers

/-! ### Values -/

section Values

variable {Captured Item : Type} {serializer : Serializer Captured Item IsNull BoxError} {captured : Captured}

theorem extends_values (appending : AppendOnly serializer) (items : List Item) :
    Builder.Extends (fromBox
      (writeCounted items (fun captured item => writeNullable (serializer captured item)) captured)) :=
  Builder.extends_mapError
    (extends_writeCounted (fun captured item => extends_writeNullable (appending.extending captured item)) _)

end Values

/-! ### Fields -/

/-- The kinds of field that a message body is made of. -/
inductive Field where
  | bytes (data : Bytes)
  | cstr (s : Bytes)
  | counted (items : List Bytes)
  | nullables (values : List (Option Bytes))
  | sized (data : Bytes)

def Field.wire : Field → Bytes
  | .bytes data => data
  | .cstr s => s ++ [0]
  | .counted items => be16 items.length ++ items.flatten
  | .nullables values => be16 values.length ++ values.flatMap nullable
  | .sized data => be32 data.length ++ data

/-- No string has a NUL inside, and every count and length fits its field. -/
def Field.Fits : Field → Prop
  | .bytes _ => True
  | .cstr s => 0 ∉ s
  | .counted items => items.length < 2 ^ 16
  | .nullables values => values.length < 2 ^ 16 ∧ ∀ value ∈ values, FitsI32 value
  | .sized data => data.length < 2 ^ 31

def body (fields : List Field) : Bytes := fields.flatMap Field.wire

/-- A message: its tag, the length of itself and the body, and the body. -/
def frame (tag : Option UInt8) (fields : List Field) : Bytes :=
  tag.toList ++ be32 ((body fields).length + 4) ++ body fields

/-- The body fits with its length into the length field. -/
def FrameFits (fields : List Field) : Prop :=
  (∀ field ∈ fields, field.Fits) ∧ (body fields).length + 4 < 2 ^ 31

section Fields

variable {ε : Type}

/-- The builder appends these fields if they fit, and fails otherwise. -/
structure Appends (build : Put ε Unit) (fields : List Field) : Prop where
  extending : Builder.Extends build
  ok : ∀ buf done after, Builder.Ok build buf done after ↔
    (∀ field ∈ fields, field.Fits) ∧ after = buf ++ body fields

theorem body_append (left right : List Field) : body (left ++ right) = body left ++ body right :=
  List.flatMap_append

theorem Appends.next {first second : Put ε Unit} {left right : List Field} (begins : Appends first left)
    (goesOn : Appends second right) : Appends (do first; second) (left ++ right) where
  extending := Builder.extends_bind begins.extending fun _ => goesOn.extending
  ok buf done after := by
    simp only [Builder.ok_bind, begins.ok, goesOn.ok, List.forall_mem_append, body_append]
    constructor
    · rintro ⟨_, _, ⟨leftFits, rfl⟩, rightFits, rfl⟩
      exact ⟨⟨leftFits, rightFits⟩, List.append_assoc _ _ _⟩
    · rintro ⟨⟨leftFits, rightFits⟩, rfl⟩
      exact ⟨(), _, ⟨leftFits, rfl⟩, rightFits, (List.append_assoc _ _ _).symm⟩

theorem appends_nil : Appends (pure () : Put ε Unit) [] where
  extending := Builder.extends_pure ()
  ok buf done after := by simp [Builder.ok_pure, body]

theorem appends_bytes (data : Bytes) : Appends (Builder.append data : Put ε Unit) [.bytes data] where
  extending := Builder.extends_append data
  ok buf done after := by simp [Builder.ok_append, body, Field.wire, Field.Fits]

variable [FromIoError ε]

theorem appends_cstr (s : Bytes) : Appends (writeCstr s : Put ε Unit) [.cstr s] where
  extending := extends_writeCstr s
  ok buf done after := by simp [ok_writeCstr, body, Field.wire, Field.Fits]

theorem appends_counted {Item : Type} (wire : Item → Bytes) (items : List Item) :
    Appends (writeCounted items (plain fun item => Builder.append (wire item)) () : Put ε Unit)
      [.counted (items.map wire)] where
  extending := extends_writeCounted (fun _ item => Builder.extends_append (wire item)) ()
  ok buf done after := by
    have loop (start left : Bytes) (final : Unit) : Builder.Ok (items.foldlM
        (plain fun item => (Builder.append (wire item) : Put ε Unit)) ()) start final left ↔
          left = start ++ items.flatMap wire :=
      ok_foldlM_plain fun item buf after => Builder.ok_append
    have extending (captured : Unit) (item : Item) : Builder.Extends
        (plain (fun item => (Builder.append (wire item) : Put ε Unit)) captured item) :=
      Builder.extends_append (wire item)
    rw [ok_writeCounted extending]
    have wired : body [.counted (items.map wire)] = be16 items.length ++ items.flatMap wire := by
      simp [body, Field.wire, List.flatMap_def]
    simp only [loop, List.append_cancel_left_eq, wired, Field.Fits, List.length_map,
      List.forall_mem_singleton]
    constructor
    · rintro ⟨_, _, rfl, fits, rfl⟩
      exact ⟨fits, List.append_assoc _ _ _⟩
    · rintro ⟨fits, rfl⟩
      exact ⟨(), _, rfl, fits, (List.append_assoc _ _ _).symm⟩

/-- The builder appends one message of these fields if it fits. -/
structure Frames (build : Put ε Unit) (tag : Option UInt8) (fields : List Field) : Prop where
  extending : Builder.Extends build
  ok : ∀ buf done after, Builder.Ok build buf done after ↔
    FrameFits fields ∧ after = buf ++ frame tag fields

theorem Appends.frames {f : Put ε Unit} {fields : List Field} (appends : Appends f fields) :
    Frames (writeBody f) none fields where
  extending := extends_writeBody appends.extending
  ok buf done after := by
    simp only [ok_writeBody appends.extending, appends.ok, List.append_cancel_left_eq, FrameFits, frame,
      Option.toList_none, List.nil_append]
    constructor
    · rintro ⟨_, ⟨fits, rfl⟩, small, rfl⟩
      exact ⟨⟨fits, small⟩, List.append_assoc _ _ _⟩
    · rintro ⟨⟨fits, small⟩, rfl⟩
      exact ⟨_, ⟨fits, rfl⟩, small, (List.append_assoc _ _ _).symm⟩

theorem Appends.tagged {f : Put ε Unit} {fields : List Field} (appends : Appends f fields) (tag : UInt8) :
    Frames (do putU8 tag; writeBody f) (some tag) fields where
  extending := Builder.extends_bind (Builder.extends_append _) fun _ => appends.frames.extending
  ok buf done after := by
    simp only [Builder.ok_bind, ok_putU8, appends.frames.ok, frame, Option.toList_none, Option.toList_some,
      List.nil_append]
    constructor
    · rintro ⟨_, _, rfl, fits, rfl⟩
      exact ⟨fits, by simp⟩
    · rintro ⟨fits, rfl⟩
      exact ⟨(), _, rfl, fits, by simp⟩

theorem Frames.fromIo {build : Put IoError Unit} {tag : Option UInt8} {fields : List Field}
    (frames : Frames build tag fields) : Frames (fromIoResult build) tag fields where
  extending := Builder.extends_mapError frames.extending
  ok buf done after := by rw [fromIoResult, Builder.ok_mapError, frames.ok]

end Fields

/-! ### Messages -/

def formatWire (format : Int16) : Bytes := be16 format.toUInt16.toNat

def oidWire (oid : UInt32) : Bytes := be32 oid.toNat

def parameterFields (parameter : Str × Str) : List Field :=
  [.cstr (asBytes parameter.1), .cstr (asBytes parameter.2)]

def Call.tag : Call → Option UInt8
  | .bind .. => some 66
  | .cancelRequest .. => none
  | .close .. => some 67
  | .copyData .. => some 100
  | .copyDone => some 99
  | .copyFail .. => some 102
  | .describe .. => some 68
  | .execute .. => some 69
  | .parse .. => some 80
  | .passwordMessage .. => some 112
  | .query .. => some 81
  | .saslInitialResponse .. => some 112
  | .saslResponse .. => some 112
  | .sslRequest => none
  | .startupMessage .. => none
  | .flush => some 72
  | .sync => some 83
  | .terminate => some 88

/-- The fields before the values of a `bind`. -/
def bindHead (portal statement : Str) (formats : List Int16) : List Field :=
  [.cstr (asBytes portal), .cstr (asBytes statement), .counted (formats.map formatWire)]

/-- The fields of a call's message; the values are those of a `bind`. -/
def Call.fields (call : Call) (values : List (Option Bytes)) : List Field :=
  match call with
  | .bind portal statement formats _ _ _ resultFormats =>
      bindHead portal statement formats ++ [.nullables values, .counted (resultFormats.map formatWire)]
  | .cancelRequest processId secretKey =>
      [.bytes (i32Wire 80877102), .bytes (i32Wire processId), .bytes (i32Wire secretKey)]
  | .close variant name => [.bytes [variant], .cstr (asBytes name)]
  | .copyData data => [.bytes data]
  | .copyDone => []
  | .copyFail message => [.cstr (asBytes message)]
  | .describe variant name => [.bytes [variant], .cstr (asBytes name)]
  | .execute portal maxRows => [.cstr (asBytes portal), .bytes (i32Wire maxRows)]
  | .parse name text paramTypes =>
      [.cstr (asBytes name), .cstr (asBytes text), .counted (paramTypes.map oidWire)]
  | .passwordMessage password => [.cstr password]
  | .query text => [.cstr (asBytes text)]
  | .saslInitialResponse mechanism data => [.cstr (asBytes mechanism), .sized data]
  | .saslResponse data => [.bytes data]
  | .sslRequest => [.bytes (i32Wire 80877103)]
  | .startupMessage parameters =>
      .bytes (i32Wire 0x00030033) :: (parameters.flatMap parameterFields ++ [.bytes [0]])
  | .flush => []
  | .sync => []
  | .terminate => []

/-- What the closures of a call write when the call begins at `buf`. -/
def Call.Values (call : Call) (buf : Bytes) (values : List (Option Bytes)) : Prop :=
  match call with
  | .bind portal statement formats items serializer captured _ =>
      ∃ final, Serialized serializer captured
        (buf ++ [66] ++ be32 0 ++ body (bindHead portal statement formats) ++ be16 0) items values final
  | _ => values = []

def Call.AppendOnly : Call → Prop
  | .bind _ _ _ _ serializer _ _ => Protocol.AppendOnly serializer
  | _ => True

theorem appends_sized (data : Bytes) :
    Appends (do let len ← i32FromUsize data.length; putI32 len; putSlice data : Put IoError Unit)
      [.sized data] where
  extending := Builder.extends_bind (extends_i32FromUsize _) fun _ =>
    Builder.extends_bind (Builder.extends_append _) fun _ => Builder.extends_append _
  ok buf done after := by
    simp only [Builder.ok_bind, ok_i32FromUsize, ok_putI32, ok_putSlice, body, List.flatMap_cons,
      List.flatMap_nil, List.append_nil, Field.wire, List.forall_mem_singleton, Field.Fits]
    constructor
    · rintro ⟨_, _, ⟨fits, rfl, rfl⟩, _, _, rfl, rfl⟩
      exact ⟨fits, by rw [toNat_ofNat_of_lt fits, List.append_assoc]⟩
    · rintro ⟨fits, rfl⟩
      exact ⟨_, _, ⟨fits, rfl, rfl⟩, (), _, rfl, by rw [toNat_ofNat_of_lt fits, List.append_assoc]⟩

theorem appends_parameters (parameters : List (Str × Str)) :
    Appends (parameters.foldlM (fun _ parameter => writeParameter parameter) ())
      (parameters.flatMap parameterFields) := by
  induction parameters with
  | nil => exact appends_nil
  | cons parameter parameters ih =>
    have first : Appends (writeParameter parameter) (parameterFields parameter) :=
      (appends_cstr _).next (appends_cstr _)
    exact first.next ih

theorem frames_copyData (data : Bytes) : Frames (copyData data) (some 100) [.bytes data] := by
  have wired : frame (some 100) [.bytes data] = [100] ++ be32 (data.length + 4) ++ data := by
    simp [frame, body, Field.wire]
  have size : FrameFits [.bytes data] ↔ data.length + 4 < 2 ^ 31 := by
    simp [FrameFits, Field.Fits, body, Field.wire]
  rw [copyData, CopyData.new]
  split
  · rename_i copy made
    split at made
    · rename_i fits
      obtain rfl := Except.ok.inj made
      have small : data.length + 4 < 2 ^ 31 := by omega
      constructor
      · exact Builder.extends_bind (Builder.extends_append _) fun _ =>
          Builder.extends_bind (Builder.extends_append _) fun _ => Builder.extends_append _
      · intro buf done after
        simp only [CopyData.write, Builder.ok_bind, ok_putU8, ok_putI32, ok_putSlice, wired, size,
          toNat_ofNat_of_lt small]
        constructor
        · rintro ⟨_, _, rfl, _, _, rfl, rfl⟩
          exact ⟨small, by simp⟩
        · rintro ⟨-, rfl⟩
          exact ⟨(), _, rfl, (), _, rfl, by simp⟩
    · cases made
  · rename_i error failed
    split at failed
    · cases failed
    · rename_i large
      constructor
      · exact fun buf => List.prefix_refl buf
      · intro buf done after
        constructor
        · intro impossible
          cases impossible
        · rintro ⟨fits, -⟩
          have small := size.mp fits
          omega

theorem appends_i32 (value : Int32) : Appends (putI32 value : Put IoError Unit) [.bytes (i32Wire value)] :=
  appends_bytes _

theorem appends_string (s : Str) : Appends (writeCstr (asBytes s) : Put IoError Unit) [.cstr (asBytes s)] :=
  appends_cstr _

/-- A call appends its message, of the values that its closures write. -/
structure Call.Sends (call : Call) : Prop where
  extending : Builder.Extends call.put
  ok : ∀ buf done after, Builder.Ok call.put buf done after ↔
    ∃ values, call.Values buf values ∧ FrameFits (call.fields values) ∧
      after = buf ++ frame call.tag (call.fields values)

theorem Frames.sends {call : Call} (frames : Frames call.put call.tag (call.fields []))
    (noValues : ∀ buf values, call.Values buf values ↔ values = []) : call.Sends where
  extending := frames.extending
  ok buf done after := by simp only [frames.ok, noValues, exists_eq_left]

/-- The values of a `bind`, behind their count. -/
theorem ok_countedValues {Captured Item : Type} {serializer : Serializer Captured Item IsNull BoxError}
    (appending : AppendOnly serializer) {items : List Item} {captured : Captured} {buf after : Bytes}
    {done : Unit} :
    Builder.Ok (fromBox
        (writeCounted items (fun captured item => writeNullable (serializer captured item)) captured))
        buf done after ↔
      ∃ values final, Serialized serializer captured (buf ++ be16 0) items values final ∧
        (Field.nullables values).Fits ∧ after = buf ++ (Field.nullables values).wire := by
  have extending (captured : Captured) (item : Item) :
      Builder.Extends (writeNullable (serializer captured item)) :=
    extends_writeNullable (appending.extending captured item)
  rw [fromBox, Builder.ok_mapError, ok_writeCounted extending]
  constructor
  · rintro ⟨final, out, ran, small, rfl⟩
    obtain ⟨values, written, fits, same⟩ := (ok_values appending).mp ran
    obtain rfl := List.append_cancel_left same
    refine ⟨values, final, written, ⟨by rw [written.length]; exact small, fits⟩, ?_⟩
    rw [Field.wire, written.length, List.append_assoc]
  · rintro ⟨values, final, written, ⟨small, fits⟩, rfl⟩
    have ran := (ok_values appending).mpr ⟨values, written, fits, rfl⟩
    refine ⟨final, _, ran, by rw [← written.length]; exact small, ?_⟩
    rw [Field.wire, written.length, List.append_assoc]

section Bind

variable {Captured Item : Type} (portal statement : Str) (formats : List Int16) (items : List Item)
  (serializer : Serializer Captured Item IsNull BoxError) (captured : Captured) (resultFormats : List Int16)

/-- The body of a `bind`, from its head on. -/
theorem ok_bindBody (appending : AppendOnly serializer) {buf after : Bytes} {done : Unit} :
    Builder.Ok (do
        writeCstr (asBytes portal)
        writeCstr (asBytes statement)
        writeCounted formats (plain putI16) ()
        fromBox (writeCounted items (fun captured value => writeNullable (serializer captured value)) captured)
        writeCounted resultFormats (plain putI16) () : Put BindError Unit) buf done after ↔
      ∃ values final, Serialized serializer captured
          (buf ++ body (bindHead portal statement formats) ++ be16 0) items values final ∧
        (∀ field ∈ bindHead portal statement formats ++
          [.nullables values, .counted (resultFormats.map formatWire)], field.Fits) ∧
        after = buf ++ body (bindHead portal statement formats ++
          [.nullables values, .counted (resultFormats.map formatWire)]) := by
  have head : Appends (do
      writeCstr (asBytes portal); writeCstr (asBytes statement); writeCounted formats (plain putI16) ()
        : Put BindError Unit) (bindHead portal statement formats) :=
    (appends_cstr _).next ((appends_cstr _).next (appends_counted formatWire formats))
  have results : Appends (writeCounted resultFormats (plain putI16) () : Put BindError Unit)
      [.counted (resultFormats.map formatWire)] := appends_counted formatWire resultFormats
  have regroup : (do
      writeCstr (asBytes portal)
      writeCstr (asBytes statement)
      writeCounted formats (plain putI16) ()
      fromBox (writeCounted items (fun captured value => writeNullable (serializer captured value)) captured)
      writeCounted resultFormats (plain putI16) () : Put BindError Unit) = (do
      (do writeCstr (asBytes portal); writeCstr (asBytes statement); writeCounted formats (plain putI16) ())
      fromBox (writeCounted items (fun captured value => writeNullable (serializer captured value)) captured)
      writeCounted resultFormats (plain putI16) ()) := by
    simp only [bind_assoc]
  rw [regroup]
  simp only [Builder.ok_bind, head.ok, results.ok, ok_countedValues appending]
  have split (values : List (Option Bytes)) : body (bindHead portal statement formats ++
      [.nullables values, .counted (resultFormats.map formatWire)]) =
        body (bindHead portal statement formats) ++ (Field.nullables values).wire ++
          body [.counted (resultFormats.map formatWire)] := by
    rw [body_append, List.append_assoc]
    rfl
  constructor
  · rintro ⟨_, _, ⟨headFits, rfl⟩, _, _, ⟨values, final, written, valuesFit, rfl⟩, resultsFit, rfl⟩
    refine ⟨values, final, written, ?_, by rw [split]; simp only [List.append_assoc]⟩
    exact List.forall_mem_append.mpr ⟨headFits, List.forall_mem_cons.mpr ⟨valuesFit, resultsFit⟩⟩
  · rintro ⟨values, final, written, fits, rfl⟩
    obtain ⟨headFits, rest⟩ := List.forall_mem_append.mp fits
    obtain ⟨valuesFit, resultsFit⟩ := List.forall_mem_cons.mp rest
    refine ⟨(), _, ⟨headFits, rfl⟩, (), _, ⟨values, final, written, valuesFit, rfl⟩, resultsFit, ?_⟩
    rw [split]
    simp only [List.append_assoc]

theorem extends_bindBody (appending : AppendOnly serializer) : Builder.Extends (do
    writeCstr (asBytes portal)
    writeCstr (asBytes statement)
    writeCounted formats (plain putI16) ()
    fromBox (writeCounted items (fun captured value => writeNullable (serializer captured value)) captured)
    writeCounted resultFormats (plain putI16) () : Put BindError Unit) := by
  refine Builder.extends_bind (extends_writeCstr _) fun _ => ?_
  refine Builder.extends_bind (extends_writeCstr _) fun _ => ?_
  refine Builder.extends_bind (appends_counted formatWire formats).extending fun _ => ?_
  refine Builder.extends_bind (extends_values appending items) fun _ => ?_
  exact (appends_counted formatWire resultFormats).extending

theorem bind_sends (appending : AppendOnly serializer) :
    (Call.bind portal statement formats items serializer captured resultFormats).Sends where
  extending := Builder.extends_bind (Builder.extends_append _) fun _ => extends_writeBody
    (extends_bindBody portal statement formats items serializer captured resultFormats appending)
  ok buf done after := by
    have extending := extends_bindBody portal statement formats items serializer captured resultFormats appending
    simp only [Call.put, FrontendBuffer.bind, Builder.ok_bind, ok_putU8]
    simp only [ok_writeBody extending, ok_bindBody _ _ _ _ _ _ _ appending]
    constructor
    · rintro ⟨_, _, rfl, out, ⟨values, final, written, fits, same⟩, small, rfl⟩
      obtain rfl := List.append_cancel_left same
      exact ⟨values, ⟨final, written⟩, ⟨fits, small⟩, by simp [frame, Call.tag, Call.fields]⟩
    · rintro ⟨values, ⟨final, written⟩, ⟨fits, small⟩, rfl⟩
      refine ⟨(), _, rfl, _, ⟨values, final, written, fits, rfl⟩, small, ?_⟩
      simp [frame, Call.tag, Call.fields]

end Bind

theorem call_sends (call : Call) (appending : call.AppendOnly) : call.Sends := by
  cases call with
  | bind portal statement formats items serializer captured resultFormats =>
      exact bind_sends portal statement formats items serializer captured resultFormats appending
  | cancelRequest processId secretKey =>
      have fields := (appends_i32 80877102).next ((appends_i32 processId).next (appends_i32 secretKey))
      exact Frames.sends fields.frames.fromIo fun _ _ => Iff.rfl
  | close variant name =>
      have fields := (appends_bytes [variant]).next (appends_string name)
      exact Frames.sends (fields.tagged 67).fromIo fun _ _ => Iff.rfl
  | copyData data => exact Frames.sends (frames_copyData data).fromIo fun _ _ => Iff.rfl
  | copyDone => exact Frames.sends (appends_nil.tagged 99).fromIo fun _ _ => Iff.rfl
  | copyFail message =>
      exact Frames.sends ((appends_string message).tagged 102).fromIo fun _ _ => Iff.rfl
  | describe variant name =>
      have fields := (appends_bytes [variant]).next (appends_string name)
      exact Frames.sends (fields.tagged 68).fromIo fun _ _ => Iff.rfl
  | execute portal maxRows =>
      have fields := (appends_string portal).next (appends_i32 maxRows)
      exact Frames.sends (fields.tagged 69).fromIo fun _ _ => Iff.rfl
  | parse name text paramTypes =>
      have fields := (appends_string name).next
        ((appends_string text).next (appends_counted oidWire paramTypes))
      exact Frames.sends (fields.tagged 80).fromIo fun _ _ => Iff.rfl
  | passwordMessage password =>
      exact Frames.sends ((appends_cstr password).tagged 112).fromIo fun _ _ => Iff.rfl
  | query text => exact Frames.sends ((appends_string text).tagged 81).fromIo fun _ _ => Iff.rfl
  | saslInitialResponse mechanism data =>
      have fields := (appends_string mechanism).next (appends_sized data)
      exact Frames.sends (fields.tagged 112).fromIo fun _ _ => Iff.rfl
  | saslResponse data => exact Frames.sends ((appends_bytes data).tagged 112).fromIo fun _ _ => Iff.rfl
  | sslRequest => exact Frames.sends (appends_i32 80877103).frames.fromIo fun _ _ => Iff.rfl
  | startupMessage parameters =>
      have fields := (appends_i32 0x00030033).next
        ((appends_parameters parameters).next (appends_bytes [0]))
      exact Frames.sends fields.frames.fromIo fun _ _ => Iff.rfl
  | flush => exact Frames.sends (appends_nil.tagged 72).fromIo fun _ _ => Iff.rfl
  | sync => exact Frames.sends (appends_nil.tagged 83).fromIo fun _ _ => Iff.rfl
  | terminate => exact Frames.sends (appends_nil.tagged 88).fromIo fun _ _ => Iff.rfl

end OpenGauss.Protocol.FrontendBuffer
