import OpenGauss.Protocol.Put
import OpenGauss.Protocol.BackendProperties

/-! What the writing primitives leave in the buffer, and when they fail. -/

set_option autoImplicit false

namespace OpenGauss.Protocol

open Lib

@[simp] theorem be16_length (value : Nat) : (be16 value).length = 2 := rfl

/-- The four bytes of an integer. -/
def i32Wire (value : Int32) : Bytes := be32 value.toUInt32.toNat

/-- A nullable value behind its length. -/
def nullable : Option Bytes → Bytes
  | none => be32 4294967295
  | some value => be32 value.length ++ value

/-- A value that its length field can announce. -/
def FitsI32 (value : Option Bytes) : Prop := ∀ bytes ∈ value, bytes.length < 2 ^ 31

section

variable {ε : Type} {buf after : Bytes} {done : Unit}

theorem ok_putSlice {bytes : Bytes} :
    Builder.Ok (putSlice bytes : Put ε Unit) buf done after ↔ after = buf ++ bytes :=
  Builder.ok_append

theorem ok_putU8 {value : UInt8} :
    Builder.Ok (putU8 value : Put ε Unit) buf done after ↔ after = buf ++ [value] :=
  Builder.ok_append

theorem ok_putI16 {value : Int16} :
    Builder.Ok (putI16 value : Put ε Unit) buf done after ↔ after = buf ++ be16 value.toUInt16.toNat :=
  Builder.ok_append

theorem ok_putU32 {value : UInt32} :
    Builder.Ok (putU32 value : Put ε Unit) buf done after ↔ after = buf ++ be32 value.toNat :=
  Builder.ok_append

theorem ok_putI32 {value : Int32} :
    Builder.Ok (putI32 value : Put ε Unit) buf done after ↔ after = buf ++ be32 value.toUInt32.toNat :=
  Builder.ok_append

theorem ok_len {length : Nat} :
    Builder.Ok (len : Put ε Nat) buf length after ↔ length = buf.length ∧ after = buf :=
  Builder.ok_length

theorem ok_writeI32 {value : Int32} {base : Nat} :
    Builder.Ok (writeI32 base value : Put ε Unit) buf done after ↔
      after = Builder.overwrite buf base (be32 value.toUInt32.toNat) :=
  Builder.ok_patch

theorem ok_writeU16 {value : UInt16} {base : Nat} :
    Builder.Ok (writeU16 base value : Put ε Unit) buf done after ↔
      after = Builder.overwrite buf base (be16 value.toNat) :=
  Builder.ok_patch

variable [FromIoError ε]

theorem ok_fromUsize {Target : Type} {max x : Nat} {cast : Nat → Target} {result : Target} :
    Builder.Ok (fromUsize max cast x : Put ε Target) buf result after ↔
      x ≤ max ∧ result = cast x ∧ after = buf := by
  rw [fromUsize]
  split
  · rename_i large
    constructor
    · intro impossible
      cases impossible
    · intro small
      omega
  · rename_i small
    rw [Builder.ok_pure]
    simp [Nat.le_of_not_lt small]

theorem ok_i32FromUsize {x : Nat} {result : Int32} :
    Builder.Ok (i32FromUsize x : Put ε Int32) buf result after ↔
      x < 2 ^ 31 ∧ result = Int32.ofNat x ∧ after = buf := by
  rw [i32FromUsize, ok_fromUsize]
  constructor
  · exact fun ⟨small, rest⟩ => ⟨by omega, rest⟩
  · exact fun ⟨small, rest⟩ => ⟨by omega, rest⟩

theorem ok_u16FromUsize {x : Nat} {result : UInt16} :
    Builder.Ok (u16FromUsize x : Put ε UInt16) buf result after ↔
      x < 2 ^ 16 ∧ result = UInt16.ofNat x ∧ after = buf := by
  rw [u16FromUsize, ok_fromUsize]
  constructor
  · exact fun ⟨small, rest⟩ => ⟨by omega, rest⟩
  · exact fun ⟨small, rest⟩ => ⟨by omega, rest⟩

theorem toNat_ofNat_of_lt {x : Nat} (small : x < 2 ^ 31) : (Int32.ofNat x).toUInt32.toNat = x := by
  have word : (Int32.ofNat x).toUInt32 = UInt32.ofNat x := rfl
  rw [word, UInt32.toNat_ofNat']
  omega

theorem ok_nullableSize {base : Nat} {isNull : IsNull} {size : Int32} :
    Builder.Ok (nullableSize base isNull : Put ε Int32) buf size after ↔
      (isNull = .no → buf.length - base - 4 < 2 ^ 31) ∧
        size = (if isNull = .no then Int32.ofNat (buf.length - base - 4) else -1) ∧ after = buf := by
  cases isNull with
  | no =>
    simp only [nullableSize, Builder.ok_bind, ok_len, ok_i32FromUsize, forall_const, if_true]
    constructor
    · rintro ⟨_, _, ⟨rfl, rfl⟩, fits⟩
      exact fits
    · exact fun fits => ⟨_, _, ⟨rfl, rfl⟩, fits⟩
  | yes =>
    rw [nullableSize, Builder.ok_pure]
    simp

theorem extends_fromUsize {Target : Type} (max : Nat) (cast : Nat → Target) (x : Nat) :
    Builder.Extends (fromUsize max cast x : Put ε Target) := by
  rw [fromUsize]
  split
  · exact fun buf => List.prefix_refl buf
  · exact Builder.extends_pure _

theorem extends_nullableSize (base : Nat) (isNull : IsNull) :
    Builder.Extends (nullableSize base isNull : Put ε Int32) := by
  cases isNull with
  | no => exact Builder.extends_bind Builder.extends_length_only fun _ => extends_fromUsize _ _ _
  | yes => exact Builder.extends_pure _

theorem extends_writeNullable {Captured : Type} {serializer : Put ε (IsNull × Captured)}
    (extending : Builder.Extends serializer) : Builder.Extends (writeNullable serializer) := by
  refine Builder.extends_length fun base => ?_
  refine Builder.keeps_bind ((Builder.extends_append _).keeps base) fun _ => ?_
  refine Builder.keeps_bind (extending.keeps base) fun (isNull, captured) => ?_
  refine Builder.keeps_bind ((extends_nullableSize base isNull).keeps base) fun size => ?_
  exact Builder.keeps_bind (Builder.keeps_patch base _) fun _ => (Builder.extends_pure captured).keeps base

/-- A length field is patched in front of what was written behind it. -/
theorem overwrite_be32 (buf out : Bytes) (value : Nat) :
    Builder.overwrite (buf ++ be32 0 ++ out) buf.length (be32 value) = buf ++ be32 value ++ out :=
  Builder.overwrite_append buf (be32 0) (be32 value) out rfl

/-- What a nullable value leaves, of the closure's own answer. -/
theorem ok_writeNullable {Captured : Type} {serializer : Put ε (IsNull × Captured)} {captured : Captured}
    (extending : Builder.Extends serializer) :
    Builder.Ok (writeNullable serializer) buf captured after ↔
      ∃ isNull out, Builder.Ok serializer (buf ++ be32 0) (isNull, captured) (buf ++ be32 0 ++ out) ∧
        (isNull = .no → out.length < 2 ^ 31) ∧
        after = buf ++ be32 (if isNull = .no then out.length else 4294967295) ++ out := by
  have size (out : Bytes) : (buf ++ be32 0 ++ out).length - buf.length - 4 = out.length := by
    simp only [List.length_append, be32_length]
    omega
  have patched (isNull : IsNull) (out : Bytes) (fits : isNull = .no → out.length < 2 ^ 31) :
      Builder.overwrite (buf ++ be32 0 ++ out) buf.length
          (be32 (if isNull = .no then Int32.ofNat out.length else -1).toUInt32.toNat) =
        buf ++ be32 (if isNull = .no then out.length else 4294967295) ++ out := by
    rw [overwrite_be32]
    cases isNull with
    | no => rw [if_pos rfl, if_pos rfl, toNat_ofNat_of_lt (fits rfl)]
    | yes => rfl
  rw [writeNullable]
  simp only [Builder.ok_bind, ok_len, ok_putI32, Builder.ok_pure, ok_writeI32, ok_nullableSize]
  constructor
  · rintro ⟨_, buf, ⟨rfl, rfl⟩, _, _, rfl, ⟨isNull, captured⟩, between, ran, _, _, ⟨fits, rfl, rfl⟩, _, _, rfl, rfl, rfl⟩
    obtain ⟨out, rfl⟩ := ran.extends extending
    change Builder.Ok serializer (buf ++ be32 0) (isNull, captured) (buf ++ be32 0 ++ out) at ran
    have written := size out
    change (buf ++ be32 (0 : Int32).toUInt32.toNat ++ out).length - buf.length - 4 = out.length at written
    rw [written] at fits ⊢
    exact ⟨isNull, out, ran, fits, patched isNull out fits⟩
  · rintro ⟨isNull, out, ran, fits, rfl⟩
    refine ⟨_, _, ⟨rfl, rfl⟩, (), _, rfl, (isNull, captured), _, ran, _, _, ⟨?_, rfl, rfl⟩, (), _, rfl, rfl, ?_⟩
    · rw [size]; exact fits
    · rw [size, patched isNull out fits]

end

/-! ### Values -/

section Values

variable {Captured Item : Type}

/-- A closure that only appends, and nothing for a null. -/
structure AppendOnly (serializer : Serializer Captured Item IsNull BoxError) : Prop where
  extending : ∀ captured item, Builder.Extends (serializer captured item)
  nullEmpty : ∀ captured item buf final after,
    Builder.Ok (serializer captured item) buf (.yes, final) after → after = buf

/-- What the closure writes when it is called for one item after another, each
behind the length field that is still open, and what it has captured then. -/
inductive Serialized (serializer : Serializer Captured Item IsNull BoxError) :
    Captured → Bytes → List Item → List (Option Bytes) → Captured → Prop where
  | nil {captured : Captured} {buf : Bytes} : Serialized serializer captured buf [] [] captured
  | null {captured next final : Captured} {buf : Bytes} {item : Item} {items : List Item}
      {values : List (Option Bytes)}
      (call : Builder.Ok (serializer captured item) (buf ++ be32 0) (.yes, next) (buf ++ be32 0))
      (rest : Serialized serializer next (buf ++ nullable none) items values final) :
      Serialized serializer captured buf (item :: items) (none :: values) final
  | value {captured next final : Captured} {buf out : Bytes} {item : Item} {items : List Item}
      {values : List (Option Bytes)}
      (call : Builder.Ok (serializer captured item) (buf ++ be32 0) (.no, next) (buf ++ be32 0 ++ out))
      (rest : Serialized serializer next (buf ++ nullable (some out)) items values final) :
      Serialized serializer captured buf (item :: items) (some out :: values) final

variable {serializer : Serializer Captured Item IsNull BoxError} {captured : Captured} {buf after : Bytes}

/-- One value is a null or the bytes that the closure has written. -/
theorem ok_value (appending : AppendOnly serializer) {item : Item} {next : Captured} :
    Builder.Ok (writeNullable (serializer captured item)) buf next after ↔
      (Builder.Ok (serializer captured item) (buf ++ be32 0) (.yes, next) (buf ++ be32 0) ∧
          after = buf ++ nullable none) ∨
        ∃ out, Builder.Ok (serializer captured item) (buf ++ be32 0) (.no, next) (buf ++ be32 0 ++ out) ∧
          out.length < 2 ^ 31 ∧ after = buf ++ nullable (some out) := by
  rw [ok_writeNullable (appending.extending captured item)]
  constructor
  · rintro ⟨isNull, out, call, fits, rfl⟩
    cases isNull with
    | yes =>
      have same := appending.nullEmpty _ _ _ _ _ call
      obtain rfl : out = [] := List.append_right_eq_self.mp same
      left
      rw [List.append_nil] at call
      exact ⟨call, by rw [List.append_nil]; rfl⟩
    | no => exact .inr ⟨out, call, fits rfl, List.append_assoc _ _ _⟩
  · rintro (⟨call, rfl⟩ | ⟨out, call, fits, rfl⟩)
    · exact ⟨.yes, [], by rw [List.append_nil]; exact call, nofun, by rw [List.append_nil]; rfl⟩
    · exact ⟨.no, out, call, fun _ => fits, (List.append_assoc _ _ _).symm⟩

theorem ok_values (appending : AppendOnly serializer) {items : List Item} {final : Captured} :
    Builder.Ok (items.foldlM (fun captured item => writeNullable (serializer captured item)) captured)
        buf final after ↔
      ∃ values, Serialized serializer captured buf items values final ∧ (∀ value ∈ values, FitsI32 value) ∧
        after = buf ++ values.flatMap nullable := by
  induction items generalizing captured buf with
  | nil =>
    simp only [List.foldlM_nil, Builder.ok_pure]
    constructor
    · rintro ⟨rfl, rfl⟩
      exact ⟨[], .nil, nofun, (List.append_nil _).symm⟩
    · rintro ⟨_, ⟨⟩, -, rfl⟩
      exact ⟨rfl, List.append_nil _⟩
  | cons item items ih =>
    simp only [List.foldlM_cons, Builder.ok_bind, ok_value appending]
    constructor
    · rintro ⟨next, between, first, rest⟩
      obtain ⟨values, written, fits, rfl⟩ := ih.mp rest
      obtain ⟨call, rfl⟩ | ⟨out, call, small, rfl⟩ := first
      · refine ⟨none :: values, .null call written, ?_, by simp⟩
        exact List.forall_mem_cons.mpr ⟨nofun, fits⟩
      · refine ⟨some out :: values, .value call written, ?_, by simp⟩
        refine List.forall_mem_cons.mpr ⟨?_, fits⟩
        rintro _ ⟨⟩
        exact small
    · rintro ⟨_, written, fits, rfl⟩
      cases written with
      | null call rest =>
        have ran := ih.mpr ⟨_, rest, (List.forall_mem_cons.mp fits).2, (List.append_assoc _ _ _).symm⟩
        exact ⟨_, _, .inl ⟨call, rfl⟩, ran⟩
      | value call rest =>
        obtain ⟨small, fits⟩ := List.forall_mem_cons.mp fits
        have ran := ih.mpr ⟨_, rest, fits, (List.append_assoc _ _ _).symm⟩
        exact ⟨_, _, .inr ⟨_, call, small _ rfl, rfl⟩, ran⟩

theorem Serialized.length {items : List Item} {values : List (Option Bytes)} {final : Captured}
    (written : Serialized serializer captured buf items values final) : values.length = items.length := by
  induction written with
  | nil => rfl
  | null call rest ih => rw [List.length_cons, List.length_cons, ih]
  | value call rest ih => rw [List.length_cons, List.length_cons, ih]

/-- The closure writes one list of values only. -/
theorem Serialized.unique {items : List Item} {first second : List (Option Bytes)} {final other : Captured}
    (left : Serialized serializer captured buf items first final)
    (right : Serialized serializer captured buf items second other) : first = second := by
  induction left generalizing second with
  | nil => cases right; rfl
  | null call rest ih =>
    cases right with
    | null again others =>
      have same := call.symm.trans again
      simp only [Prod.mk.injEq, Except.ok.injEq, true_and, and_true] at same
      rw [ih (same ▸ others)]
    | value again others =>
      have same := call.symm.trans again
      simp at same
  | value call rest ih =>
    cases right with
    | null again others =>
      have same := call.symm.trans again
      simp at same
    | value again others =>
      have same := call.symm.trans again
      simp only [Prod.mk.injEq, Except.ok.injEq, true_and, List.append_cancel_left_eq] at same
      obtain ⟨rfl, rfl⟩ := same
      rw [ih others]

end Values

/-! ### Closures that are encoders -/

/-- The closure that appends what an encoder answers. -/
def ofEncoder {Item : Type} (encode : Item → Option Bytes) : Serializer Unit Item IsNull BoxError :=
  fun _ item =>
    match encode item with
    | none => return (.yes, ())
    | some bytes => do
        putSlice bytes
        return (.no, ())

theorem appendOnly_ofEncoder {Item : Type} (encode : Item → Option Bytes) : AppendOnly (ofEncoder encode) where
  extending captured item := by
    rw [ofEncoder]
    split
    · exact Builder.extends_pure _
    · exact Builder.extends_bind (Builder.extends_append _) fun _ => Builder.extends_pure _
  nullEmpty captured item buf final after := by
    rw [ofEncoder]
    split
    · exact fun ran => (Builder.ok_pure.mp ran).2
    · simp only [Builder.ok_bind, Builder.ok_pure, Prod.mk.injEq, reduceCtorEq, false_and, and_false,
        exists_false, false_implies]

theorem serialized_ofEncoder {Item : Type} (encode : Item → Option Bytes) (items : List Item) (buf : Bytes) :
    Serialized (ofEncoder encode) () buf items (items.map encode) () := by
  induction items generalizing buf with
  | nil => exact .nil
  | cons item items ih =>
    rw [List.map_cons]
    cases encoded : encode item with
    | none =>
      refine .null ?_ (ih _)
      rw [ofEncoder, encoded]
      exact Builder.ok_pure.mpr ⟨rfl, rfl⟩
    | some bytes =>
      refine .value ?_ (ih _)
      rw [ofEncoder, encoded]
      exact Builder.ok_bind.mpr ⟨(), _, ok_putSlice.mpr rfl, Builder.ok_pure.mpr ⟨rfl, rfl⟩⟩

end OpenGauss.Protocol
