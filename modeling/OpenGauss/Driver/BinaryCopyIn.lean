import OpenGauss.Driver.BinaryCopy
import OpenGauss.Driver.ClientRequestsProperties
import OpenGauss.Driver.CopyInSinkProperties
import Mathlib.Data.List.Forall2

/-! What the writer of a binary copy sends: the rows that it has accepted, as
long as no row fails on the way into the buffer. -/

set_option autoImplicit false

namespace OpenGauss.Driver.BinaryCopy

open Lib Protocol

section

variable {Ty : Type}

/-! ### Writing a row -/

theorem extends_i32TryFrom (x : Nat) : Builder.Extends (i32TryFrom x) := by
  rw [i32TryFrom]
  split
  · exact Builder.extends_pure _
  · exact fun buf => List.prefix_refl buf

theorem extends_fieldLen (idx : Nat) (isNull : IsNull) : Builder.Extends (fieldLen idx isNull) := by
  cases isNull with
  | no => exact Builder.extends_bind Builder.extends_length_only fun _ => extends_i32TryFrom _
  | yes => exact Builder.extends_pure _

theorem extends_writeField (i : Nat) (value : ToSql Ty) (type : Ty) :
    Builder.Extends (writeField i value type) := by
  refine Builder.extends_length fun idx => ?_
  refine Builder.keeps_bind ((Builder.extends_append _).keeps idx) fun _ => ?_
  refine Builder.keeps_bind
    ((Builder.extends_mapError (value.extending type)).keeps idx) fun isNull => ?_
  exact Builder.keeps_bind ((extends_fieldLen idx isNull).keeps idx) fun len =>
    Builder.keeps_patch idx _

theorem extends_writeFields (i : Nat) (params : List (ToSql Ty × Ty)) :
    Builder.Extends (writeFields i params) := by
  induction params generalizing i with
  | nil => exact Builder.extends_pure _
  | cons param params ih =>
      exact Builder.extends_bind (extends_writeField i param.1 param.2) fun _ => ih (i + 1)

theorem ok_i32TryFrom {x : Nat} {result : Int32} {buf after : Bytes} :
    Builder.Ok (i32TryFrom x) buf result after ↔
      x < 2 ^ 31 ∧ result = Int32.ofNat x ∧ after = buf := by
  rw [i32TryFrom]
  split
  · next small =>
      rw [Builder.ok_pure]
      exact ⟨fun ran => ⟨by omega, ran⟩, fun ran => ran.2⟩
  · next large =>
      constructor
      · intro impossible
        cases impossible
      · intro small
        omega

theorem ok_fieldLen {idx : Nat} {isNull : IsNull} {size : Int32} {buf after : Bytes} :
    Builder.Ok (fieldLen idx isNull) buf size after ↔
      Builder.Ok (nullableSize idx isNull : Put BoxError Int32) buf size after := by
  rw [ok_nullableSize]
  cases isNull with
  | no =>
      simp only [fieldLen, Builder.ok_bind, ok_len, ok_i32TryFrom, forall_const, if_true]
      constructor
      · rintro ⟨_, _, ⟨rfl, rfl⟩, fits⟩
        exact fits
      · exact fun fits => ⟨_, _, ⟨rfl, rfl⟩, fits⟩
  | yes =>
      rw [fieldLen, Builder.ok_pure]
      simp

theorem ok_paramSerializer {param : ToSql Ty × Ty} {isNull : IsNull} {buf after : Bytes} :
    Builder.Ok (paramSerializer () param) buf (isNull, ()) after ↔
      Builder.Ok (param.1.toSqlChecked param.2) buf isNull after := by
  simp only [paramSerializer, Builder.ok_bind, Builder.ok_pure, Prod.mk.injEq, and_true]
  constructor
  · rintro ⟨_, _, ran, rfl, rfl⟩
    exact ran
  · exact fun ran => ⟨_, _, ran, rfl, rfl⟩

/-- A field is written as a nullable value is everywhere; only the error differs. -/
theorem ok_writeField {i : Nat} {param : ToSql Ty × Ty} {done : Unit} {buf after : Bytes} :
    Builder.Ok (writeField i param.1 param.2) buf done after ↔
      Builder.Ok (writeNullable (paramSerializer () param)) buf () after := by
  simp only [writeField, writeNullable, Builder.ok_bind, ok_len, ok_putI32, ok_writeI32,
    Builder.ok_mapError, ok_fieldLen, Builder.ok_pure]
  constructor
  · rintro ⟨idx, _, ⟨rfl, rfl⟩, _, _, rfl, isNull, _, ran, size, _, sized, rfl⟩
    exact ⟨_, _, ⟨rfl, rfl⟩, (), _, rfl, (isNull, ()), _, ok_paramSerializer.mpr ran, size, _, sized,
      (), _, rfl, trivial, rfl⟩
  · rintro ⟨idx, _, ⟨rfl, rfl⟩, _, _, rfl, ⟨isNull, _⟩, _, ran, size, _, sized, _, _, rfl, _, rfl⟩
    exact ⟨_, _, ⟨rfl, rfl⟩, (), _, rfl, isNull, _, ok_paramSerializer.mp ran, size, _, sized, rfl⟩

theorem ok_writeFields {i : Nat} {params : List (ToSql Ty × Ty)} {done : Unit} {buf after : Bytes} :
    Builder.Ok (writeFields i params) buf done after ↔
      ∃ fields, Serialized paramSerializer () buf params fields () ∧
        (∀ field ∈ fields, FitsI32 field) ∧ after = buf ++ fields.flatMap nullable := by
  rw [← ok_values ClientRequests.appendOnly_paramSerializer]
  induction params generalizing i buf with
  | nil => rw [writeFields, List.foldlM_nil, Builder.ok_pure, Builder.ok_pure]
  | cons param params ih =>
      simp only [writeFields, List.foldlM_cons, Builder.ok_bind, ok_writeField, ih]

/-- The values are converted, one behind the other, and their lengths fit. -/
def Converts (types : List Ty) (buf : Bytes) (values : List (ToSql Ty))
    (fields : List (Option Bytes)) : Prop :=
  Serialized paramSerializer () (buf ++ be16 types.length) (values.zip types) fields () ∧
    ∀ field ∈ fields, FitsI32 field

/-- A row as it is sent. -/
def rowBytes (count : Nat) (fields : List (Option Bytes)) : Bytes :=
  be16 count ++ fields.flatMap nullable

theorem be16_count (count : Nat) : be16 (Int16.ofNat count).toUInt16.toNat = be16 count := by
  have word : (Int16.ofNat count).toUInt16.toNat = count % 2 ^ 16 := UInt16.toNat_ofNat'
  rw [word, be16, be16]
  congr 1
  · apply UInt8.toNat_inj.mp
    rw [UInt8.toNat_ofNat', UInt8.toNat_ofNat']
    omega
  · congr 1
    apply UInt8.toNat_inj.mp
    rw [UInt8.toNat_ofNat', UInt8.toNat_ofNat']
    omega

theorem ok_writeRow {types : List Ty} {values : List (ToSql Ty)} {done : Unit} {buf after : Bytes} :
    Builder.Ok (writeRow types values) buf done after ↔
      ∃ fields, Converts types buf values fields ∧ after = buf ++ rowBytes types.length fields := by
  simp only [writeRow, Builder.ok_bind, ok_putI16, ok_writeFields, be16_count, Converts, rowBytes]
  constructor
  · rintro ⟨_, _, rfl, fields, serialized, fits, rfl⟩
    exact ⟨fields, ⟨serialized, fits⟩, List.append_assoc ..⟩
  · rintro ⟨fields, ⟨serialized, fits⟩, rfl⟩
    exact ⟨(), _, rfl, fields, serialized, fits, (List.append_assoc ..).symm⟩

/-- Whatever becomes of the values, the number of columns stays in the buffer. -/
theorem writeRow_longer (types : List Ty) (values : List (ToSql Ty)) (buf : Bytes) :
    buf.length < ((writeRow types values).execute buf).2.length := by
  have counted : Builder.Ok (putI16 (Int16.ofNat types.length) : Put EncodeError Unit) buf ()
      (buf ++ be16 (Int16.ofNat types.length).toUInt16.toNat) := ok_putI16.mpr rfl
  rw [writeRow, Builder.execute_bind_ok counted]
  obtain ⟨written, same⟩ := extends_writeFields 0 (values.zip types)
    (buf ++ be16 (Int16.ofNat types.length).toUInt16.toNat)
  rw [← same, List.length_append, List.length_append, be16_length]
  omega

/-! ### How a row fails -/

/-- An error of a conversion, or of a length. -/
def ConversionOrLength : EncodeError → Prop
  | .toSql _ _ | .driver (.encode _) => True
  | _ => False

/-- Every error of the builder is of that kind. -/
def FailsOnly {Value : Type} (build : Put EncodeError Value) : Prop :=
  ∀ buf error after, build.execute buf = (.error error, after) → ConversionOrLength error

theorem FailsOnly.bind {Value Next : Type} {first : Put EncodeError Value}
    {rest : Value → Put EncodeError Next} (failsFirst : FailsOnly first)
    (failsRest : ∀ value, FailsOnly (rest value)) : FailsOnly (first >>= rest) := by
  intro buf error after failed
  cases ran : first.execute buf with
  | mk outcome between =>
      cases outcome with
      | error reason =>
          rw [Builder.execute_bind_error ran] at failed
          cases failed
          exact failsFirst buf error _ ran
      | ok value =>
          rw [Builder.execute_bind_ok ran] at failed
          exact failsRest value between error after failed

theorem failsOnly_i32TryFrom (x : Nat) : FailsOnly (i32TryFrom x) := by
  intro buf error after failed
  rw [i32TryFrom] at failed
  split at failed
  · cases failed
  · cases failed
    trivial

theorem failsOnly_fieldLen (idx : Nat) (isNull : IsNull) : FailsOnly (fieldLen idx isNull) := by
  cases isNull with
  | no =>
      have length : FailsOnly (len : Put EncodeError Nat) := fun _ _ _ failed => by cases failed
      exact length.bind fun _ => failsOnly_i32TryFrom _
  | yes => exact fun _ _ _ failed => by cases failed

theorem failsOnly_writeField (i : Nat) (value : ToSql Ty) (type : Ty) :
    FailsOnly (writeField i value type) := by
  have length : FailsOnly (len : Put EncodeError Nat) := fun _ _ _ failed => by cases failed
  have hole : FailsOnly (putI32 0 : Put EncodeError Unit) := fun _ _ _ failed => by cases failed
  have conversion : FailsOnly
      (Builder.mapError (fun error => .toSql error i) (value.toSqlChecked type)) := by
    intro buf error after failed
    have answer := congrArg Prod.fst failed
    rw [ClientRequests.execute_mapError] at answer
    cases ran : ((value.toSqlChecked type).execute buf).1 with
    | error reason =>
        rw [ran] at answer
        cases answer
        trivial
    | ok isNull =>
        rw [ran] at answer
        cases answer
  refine length.bind fun idx => hole.bind fun _ => conversion.bind fun isNull => ?_
  exact (failsOnly_fieldLen idx isNull).bind fun _ _ _ _ failed => by cases failed

theorem failsOnly_writeFields (i : Nat) (params : List (ToSql Ty × Ty)) :
    FailsOnly (writeFields i params) := by
  induction params generalizing i with
  | nil => exact fun _ _ _ failed => by cases failed
  | cons param params ih => exact (failsOnly_writeField i param.1 param.2).bind fun _ => ih (i + 1)

theorem failsOnly_writeRow (types : List Ty) (values : List (ToSql Ty)) :
    FailsOnly (writeRow types values) := by
  have count : FailsOnly (putI16 (Int16.ofNat types.length) : Put EncodeError Unit) :=
    fun _ _ _ failed => by cases failed
  exact count.bind fun _ => failsOnly_writeFields 0 _

/-! ### A call -/

/-- The item is no more than a message can hold. -/
def FitsMessage (item : Bytes) : Prop := item.length + 4 ≤ 2147483647

/-- What `write_raw` answers and leaves. -/
inductive Written (self : BinaryCopyInWriter Ty) (values : List (ToSql Ty)) :
    Option (Except EncodeError Unit × BinaryCopyInWriter Ty) → Prop where
  | panicked (counts : values.length ≠ self.types.length) : Written self values none
  /-- A value is not converted, or too long: the buffer has grown nevertheless. -/
  | refused (error : EncodeError) (buf : Bytes) (counts : values.length = self.types.length)
      (failed : ∀ fields, ¬Converts self.types self.buf values fields)
      (kind : ConversionOrLength error) (grown : self.buf.length < buf.length) :
      Written self values (some (.error error, { self with buf }))
  | buffered (fields : List (Option Bytes)) (counts : values.length = self.types.length)
      (converted : Converts self.types self.buf values fields)
      (small : (self.buf ++ rowBytes self.types.length fields).length ≤ 4096) :
      Written self values
        (some (.ok (), { self with buf := self.buf ++ rowBytes self.types.length fields }))
  | sent (fields : List (Option Bytes)) (counts : values.length = self.types.length)
      (converted : Converts self.types self.buf values fields)
      (opened : self.sink.closed = false)
      (fits : FitsMessage (self.buf ++ rowBytes self.types.length fields)) :
      Written self values
        (some (.ok (), { self with
          sink := { self.sink with
            sent := self.sink.sent ++ [self.buf ++ rowBytes self.types.length fields] }
          buf := [] }))
  /-- The rows that were in the buffer are lost with this one. -/
  | oversized (error : EncodeError) (fields : List (Option Bytes))
      (counts : values.length = self.types.length)
      (converted : Converts self.types self.buf values fields)
      (opened : self.sink.closed = false)
      (large : ¬FitsMessage (self.buf ++ rowBytes self.types.length fields))
      (kind : ConversionOrLength error) :
      Written self values (some (.error error, { self with buf := [] }))
  | closed (fields : List (Option Bytes)) (counts : values.length = self.types.length)
      (converted : Converts self.types self.buf values fields)
      (gone : self.sink.closed = true) :
      Written self values (some (.error (.driver .closed), { self with buf := [] }))

theorem writeRaw_written (self : BinaryCopyInWriter Ty) (values : List (ToSql Ty)) :
    Written self values (self.writeRaw values) := by
  unfold BinaryCopyInWriter.writeRaw
  split
  · next counts => exact .panicked counts
  · next counts =>
      have counts : values.length = self.types.length := Decidable.not_not.mp counts
      cases ran : (writeRow self.types values).execute self.buf with
      | mk outcome buf =>
          cases outcome with
          | error error =>
              have grown := writeRow_longer self.types values self.buf
              rw [ran] at grown
              refine .refused error buf counts (fun fields converted => ?_)
                (failsOnly_writeRow _ _ _ _ _ ran) grown
              have other : Builder.Ok (writeRow self.types values) self.buf () _ :=
                ok_writeRow.mpr ⟨fields, converted, rfl⟩
              rw [Builder.Ok, ran] at other
              cases other
          | ok done =>
              obtain ⟨fields, converted, rfl⟩ := ok_writeRow.mp ran
              dsimp only
              split
              · unfold BinaryCopyInWriter.sendBuf Sink.send
                dsimp only
                by_cases gone : self.sink.closed = true
                · rw [if_pos gone]
                  exact .closed fields counts converted gone
                · rw [if_neg gone]
                  have opened := Bool.eq_false_iff.mpr gone
                  cases made : FrontendBuffer.CopyData.new
                      (self.buf ++ rowBytes self.types.length fields) with
                  | error error =>
                      have large := CopyInSink.new_error made
                      exact .oversized _ fields counts converted opened
                        (fun fits => by unfold FitsMessage at fits; omega) trivial
                  | ok data =>
                      have fits : FitsMessage (self.buf ++ rowBytes self.types.length fields) := by
                        unfold FrontendBuffer.CopyData.new at made
                        split at made
                        · next fits => exact fits
                        · cases made
                      exact .sent fields counts converted opened fits
              · next small => exact .buffered fields counts converted (Nat.le_of_not_lt small)

/-- A call that fails on a conversion or a length leaves the buffer as it was. -/
def LeavesNoTrace (self : BinaryCopyInWriter Ty) (values : List (ToSql Ty)) : Prop :=
  ∀ error after, self.writeRaw values = some (.error error, after) → ConversionOrLength error →
    after.buf = self.buf

/-- The values are as many as the columns only if they are converted into a row
that a message can hold, behind the rows that wait in the buffer. -/
def Accepts (self : BinaryCopyInWriter Ty) (values : List (ToSql Ty)) : Prop :=
  values.length = self.types.length →
    ∃ fields, Converts self.types self.buf values fields ∧
      (self.sink.closed = true ∨ self.buf = [] ∨
        FitsMessage (self.buf ++ rowBytes self.types.length fields))

theorem Converts.unique {types : List Ty} {buf : Bytes} {values : List (ToSql Ty)}
    {first second : List (Option Bytes)} (left : Converts types buf values first)
    (right : Converts types buf values second) : first = second :=
  left.1.unique right.1

theorem leavesNoTrace_iff (self : BinaryCopyInWriter Ty) (values : List (ToSql Ty)) :
    LeavesNoTrace self values ↔ Accepts self values := by
  have written := writeRaw_written self values
  unfold LeavesNoTrace
  generalize self.writeRaw values = answer at written
  constructor
  · intro traceless counts
    cases written with
    | panicked other => exact absurd counts other
    | refused error buf _ failed kind grown =>
        have same : buf = self.buf := traceless error _ rfl kind
        rw [same] at grown
        exact absurd grown (Nat.lt_irrefl _)
    | buffered fields _ converted small =>
        exact ⟨fields, converted, .inr (.inr (by unfold FitsMessage; omega))⟩
    | sent fields _ converted _ fits => exact ⟨fields, converted, .inr (.inr fits)⟩
    | oversized error fields _ converted _ large kind =>
        have empty : [] = self.buf := traceless error _ rfl kind
        exact ⟨fields, converted, .inr (.inl empty.symm)⟩
    | closed fields _ converted gone => exact ⟨fields, converted, .inl gone⟩
  · intro accepts error after same kind
    cases written with
    | panicked other => cases same
    | refused _ buf counts failed =>
        obtain ⟨fields, converted, _⟩ := accepts counts
        exact absurd converted (failed fields)
    | buffered => cases same
    | sent => cases same
    | oversized _ fields counts converted opened large =>
        cases same
        obtain ⟨others, again, gone | empty | fits⟩ := accepts counts
        · rw [gone] at opened
          cases opened
        · exact empty.symm
        · rw [again.unique converted] at fits
          exact absurd fits large
    | closed =>
        cases same
        cases kind

/-! ### The sink behind the writer -/

/-- `SinkExt::send` on a sink that is ready: the item is given to it, and flushed
as far as the channel takes it. -/
def sendItem (sink : CopyInSink) (item : Bytes) : Except Error Unit × CopyInSink :=
  match sink.pollReady with
  | .ready (.error error) => (.error error, sink)
  | _ =>
      match sink.startSend item with
      | (.error error, sink) => (.error error, sink)
      | (.ok (), sink) =>
          match sink.pollFlush with
          | (.ready (.error error), sink) => (.error error, sink)
          | (_, sink) => (.ok (), sink)

/-- A sink without data of its own answers as `Sink.send` does, and the items
that are sent are the messages in its channel. -/
theorem sendItem_send {sink : CopyInSink} {item : Bytes} (content : item ≠ [])
    (empty : sink.buf = []) (opened : sink.sender.senderGone = false)
    (ready : sink.sender.parked = false) (sent : List Bytes) :
    (sendItem sink item).1 = (Sink.send ⟨sent, sink.sender.receiverGone⟩ item).1 ∧
      ∀ data, FrontendBuffer.CopyData.new item = .ok data → sink.sender.receiverGone = false →
        (sendItem sink item).2.buf = [] ∧
          (sendItem sink item).2.sender.queue =
            sink.sender.queue ++ [.message (.copyData data)] := by
  obtain ⟨⟨buffer, queue, parked, senderGone, receiverGone⟩, buf, state⟩ := sink
  dsimp only at empty opened ready ⊢
  rw [empty, opened, ready]
  cases receiverGone with
  | true => exact ⟨rfl, fun _ _ heard => by cases heard⟩
  | false =>
      have some : item.isEmpty = false := by rw [List.isEmpty_eq_false_iff]; exact content
      cases made : FrontendBuffer.CopyData.new item with
      | error error =>
          have large := CopyInSink.new_error made
          have long : 4096 < item.length := by omega
          refine ⟨?_, fun _ impossible => by cases impossible⟩
          simp [sendItem, Sink.send, CopyInSink.pollReady, Channel.pollReady, CopyInSink.startSend,
            CopyInSink.sendData, made, long]
      | ok data =>
          by_cases long : 4096 < item.length <;> by_cases parks : buffer < queue.length + 1 <;>
            simp [sendItem, Sink.send, CopyInSink.pollReady, Channel.pollReady, CopyInSink.startSend,
              CopyInSink.sendData, made, long, Channel.startSend, CopyInSink.pollFlush,
              CopyInSink.flushSender, Channel.pollFlush, parks, some]

/-! ### A copy -/

/-- A writer, with the calls that have returned `Ok`. -/
structure Copy (Ty : Type) where
  writer : BinaryCopyInWriter Ty
  accepted : List (List (ToSql Ty)) := []

inductive Event (Ty : Type) where
  | write (values : List (ToSql Ty))
  /-- The connection is gone. -/
  | hangUp

/-- A new writer on the sink of a statement. -/
def Copy.start (types : List Ty) : Copy Ty where
  writer := .new {} types

def Copy.step (copy : Copy Ty) : Event Ty → Option (Copy Ty)
  | .write values =>
      match copy.writer.writeRaw values with
      -- the assertion fails before anything is written
      | none => some copy
      | some (.ok (), writer) => some { writer, accepted := copy.accepted ++ [values] }
      | some (.error _, writer) => some { copy with writer }
  | .hangUp =>
      some { copy with writer := { copy.writer with
        sink := { copy.writer.sink with closed := true } } }

/-- Every event is possible. -/
theorem Copy.execute_some (copy : Copy Ty) (events : List (Event Ty)) :
    ∃ final, Execution.execute Copy.step copy events = some final := by
  induction events generalizing copy with
  | nil => exact ⟨copy, rfl⟩
  | cons event events ih =>
      have possible : ∃ next, copy.step event = some next := by
        cases event with
        | write values =>
            unfold Copy.step
            dsimp only
            split <;> exact ⟨_, rfl⟩
        | hangUp => exact ⟨_, rfl⟩
      obtain ⟨next, stepped⟩ := possible
      obtain ⟨final, run⟩ := ih next
      exact ⟨final, (Execution.execute_cons Copy.step).mpr ⟨next, stepped, run⟩⟩

/-- What holds of every call of a run. -/
def EachCall (holds : BinaryCopyInWriter Ty → List (ToSql Ty) → Prop) (copy : Copy Ty)
    (event : Event Ty) : Prop :=
  ∀ values, event = .write values → holds copy.writer values

def header : Bytes := magic ++ be32 0 ++ be32 0

def trailer : Bytes := be16 65535

/-- A row of the values: the number of its fields, which can be read back, and
all of them. -/
def IsRow (types : List Ty) (values : List (ToSql Ty)) (bytes : Bytes) : Prop :=
  ∃ buf fields, Converts types buf values fields ∧ bytes = rowBytes types.length fields ∧
    asI16 (beNat (be16 types.length)) = types.length

/-- On a connection that is there, `finish` succeeds, and what has been sent then
is the header, the accepted rows and the trailer. -/
def Delivers (types : List Ty) (copy : Copy Ty) : Prop :=
  copy.writer.sink.closed = false → ∀ count, ∃ after rows,
    copy.writer.finish (.ok count) = (.ok count, after) ∧
      List.Forall₂ (IsRow types) copy.accepted rows ∧
      after.sink.sent.flatten = header ++ rows.flatten ++ trailer

structure Consistent (types : List Ty) (copy : Copy Ty) : Prop where
  columns : copy.writer.types = types
  short : copy.writer.buf.length ≤ 4096
  rows : copy.writer.sink.closed = false → ∃ rows, List.Forall₂ (IsRow types) copy.accepted rows ∧
    copy.writer.sink.sent.flatten ++ copy.writer.buf = header ++ rows.flatten

theorem consistent_start (types : List Ty) : Consistent types (Copy.start types) where
  columns := rfl
  short := show header.length ≤ 4096 by decide
  rows _ := ⟨[], .nil, rfl⟩

theorem isRow_rowBytes {types : List Ty} (few : types.length < 2 ^ 15) {buf : Bytes}
    {values : List (ToSql Ty)} {fields : List (Option Bytes)}
    (converted : Converts types buf values fields) :
    IsRow types values (rowBytes types.length fields) := by
  refine ⟨buf, fields, converted, rfl, ?_⟩
  rw [FrontendBuffer.beNat_be16 _ (by omega), asI16, if_pos few]

theorem forall₂_concat {First Second : Type} {related : First → Second → Prop} {firsts : List First}
    {seconds : List Second} (pairs : List.Forall₂ related firsts seconds) {first : First}
    {second : Second} (last : related first second) :
    List.Forall₂ related (firsts ++ [first]) (seconds ++ [second]) :=
  List.rel_append pairs (.cons last .nil)

theorem consistent_write {types : List Ty} (few : types.length < 2 ^ 15) {copy next : Copy Ty}
    {values : List (ToSql Ty)} (holds : Consistent types copy)
    (accepts : Accepts copy.writer values) (stepped : copy.step (.write values) = some next) :
    Consistent types next := by
  obtain ⟨writer, accepted⟩ := copy
  obtain ⟨rfl, short, rows⟩ := holds
  have written := writeRaw_written writer values
  unfold Copy.step at stepped
  dsimp only at stepped short rows accepts
  generalize writer.writeRaw values = answer at written stepped
  cases written with
  | panicked =>
      cases stepped
      exact ⟨rfl, short, rows⟩
  | refused error buf counts failed =>
      obtain ⟨fields, converted, _⟩ := accepts counts
      exact absurd converted (failed fields)
  | buffered fields counts converted small =>
      cases stepped
      refine ⟨rfl, small, fun opened => ?_⟩
      obtain ⟨rows, complete, same⟩ := rows opened
      refine ⟨_, forall₂_concat complete (isRow_rowBytes few converted), ?_⟩
      dsimp only
      rw [← List.append_assoc, same, List.flatten_concat, List.append_assoc]
  | sent fields counts converted opened =>
      cases stepped
      refine ⟨rfl, Nat.zero_le _, fun _ => ?_⟩
      obtain ⟨rows, complete, same⟩ := rows opened
      refine ⟨_, forall₂_concat complete (isRow_rowBytes few converted), ?_⟩
      dsimp only
      rw [List.append_nil, List.flatten_concat, ← List.append_assoc, same, List.flatten_concat,
        List.append_assoc]
  | oversized error fields counts converted opened large =>
      cases stepped
      refine ⟨rfl, Nat.zero_le _, fun _ => ?_⟩
      obtain ⟨others, again, gone | empty | fits⟩ := accepts counts
      · rw [gone] at opened
        cases opened
      · obtain ⟨rows, complete, same⟩ := rows opened
        exact ⟨rows, complete, by rw [← same, empty]⟩
      · rw [again.unique converted] at fits
        exact absurd fits large
  | closed fields counts converted gone =>
      cases stepped
      refine ⟨rfl, Nat.zero_le _, fun opened => ?_⟩
      dsimp only at opened
      rw [gone] at opened
      cases opened

theorem consistent_step {types : List Ty} (few : types.length < 2 ^ 15) (copy : Copy Ty)
    (event : Event Ty) (next : Copy Ty) (holds : Consistent types copy)
    (accepts : EachCall Accepts copy event) (stepped : copy.step event = some next) :
    Consistent types next := by
  cases event with
  | write values => exact consistent_write few holds (accepts values rfl) stepped
  | hangUp =>
      cases stepped
      exact ⟨holds.columns, holds.short, fun opened => by cases opened⟩

theorem Consistent.delivers {types : List Ty} {copy : Copy Ty} (holds : Consistent types copy) :
    Delivers types copy := by
  intro opened count
  obtain ⟨rows, complete, same⟩ := holds.rows opened
  have short := holds.short
  have fits : (copy.writer.buf ++ be16 65535).length + 4 ≤ 2147483647 := by
    rw [List.length_append, be16_length]
    omega
  refine ⟨{ copy.writer with
    sink := { copy.writer.sink with sent := copy.writer.sink.sent ++ [copy.writer.buf ++ be16 65535] }
    buf := [] }, rows, ?_, complete, ?_⟩
  · rw [BinaryCopyInWriter.finish, BinaryCopyInWriter.sendBuf, Sink.send, if_neg (by rw [opened]; decide),
      FrontendBuffer.CopyData.new, if_pos fits]
    rfl
  · dsimp only
    rw [List.flatten_concat, ← List.append_assoc, same]
    rfl

/-- A call that fails leaves the buffer as it was exactly if its values are
accepted; a copy of such calls delivers the rows that have returned `Ok`, and no
other bytes, if the number of columns is an `i16`. -/
theorem leavesNoTrace_delivers (types : List Ty) :
    (∀ (writer : BinaryCopyInWriter Ty) (values : List (ToSql Ty)),
      LeavesNoTrace writer values ↔ Accepts writer values) ∧
    (types.length < 2 ^ 15 → ∀ events final,
      Execution.execute Copy.step (Copy.start types) events = some final →
      Execution.Along Copy.step (EachCall Accepts) (Copy.start types) events →
      Execution.Along Copy.step (EachCall LeavesNoTrace) (Copy.start types) events ∧
        Delivers types final) := by
  refine ⟨leavesNoTrace_iff, fun few events final run accepts => ⟨?_, ?_⟩⟩
  · exact accepts.imp Copy.step fun copy event accepted values same =>
      (leavesNoTrace_iff copy.writer values).mpr (accepted values same)
  · have consistent : Consistent types final :=
      Execution.invariant_along Copy.step (consistent_step few) run accepts (consistent_start types)
    exact consistent.delivers

/-! ### Values that are known beforehand -/

/-- A value that is always encoded as this field. -/
def ofEncoded (field : Option Bytes) : ToSql Ty where
  encodeFormat _ := 1
  toSqlChecked _ :=
    match field with
    | none => return .yes
    | some bytes => do
        putSlice bytes
        return .no
  extending _ := by
    cases field with
    | none => exact Builder.extends_pure _
    | some bytes => exact Builder.extends_bind (Builder.extends_append bytes) fun _ => Builder.extends_pure _
  nullEmpty _ buf after ran := by
    cases field with
    | none => exact (Builder.ok_pure.mp ran).2
    | some bytes =>
        obtain ⟨_, _, _, answered⟩ := Builder.ok_bind.mp ran
        cases (Builder.ok_pure.mp answered).1

theorem serialized_ofEncoded {fields : List (Option Bytes)} {types : List Ty}
    (counts : fields.length = types.length) (buf : Bytes) :
    Serialized paramSerializer () buf ((fields.map ofEncoded).zip types) fields () := by
  induction fields generalizing types buf with
  | nil => exact .nil
  | cons field fields ih =>
      cases types with
      | nil => cases counts
      | cons type types =>
          have rest := ih (Nat.succ.inj counts) (buf ++ nullable field)
          cases field with
          | none => exact .null rfl rest
          | some bytes => exact .value rfl rest

theorem converts_ofEncoded {fields : List (Option Bytes)} {types : List Ty}
    (counts : fields.length = types.length) (fits : ∀ field ∈ fields, FitsI32 field) (buf : Bytes) :
    Converts types buf (fields.map ofEncoded) fields :=
  ⟨serialized_ofEncoded counts _, fits⟩

/-- A value whose conversion fails. -/
def failing (message : String) : ToSql Ty where
  encodeFormat _ := 1
  toSqlChecked _ := throw (.text message)
  extending _ buf := List.prefix_refl buf
  nullEmpty _ _ _ ran := by cases ran

end

/-- Two rows of one column, the second of them a NULL. -/
theorem leavesNoTrace_delivers_two :
    ∃ final, Execution.execute Copy.step (Copy.start ([23] : List UInt32))
        [.write [ofEncoded (some [7])], .write [ofEncoded none]] = some final ∧
      Execution.Along Copy.step (EachCall LeavesNoTrace) (Copy.start [23])
        ([.write [ofEncoded (some [7])], .write [ofEncoded none]] : List (Event UInt32)) ∧
      Delivers [23] final := by
  obtain ⟨final, run⟩ := Copy.execute_some (Copy.start ([23] : List UInt32))
    [.write [ofEncoded (some [7])], .write [ofEncoded none]]
  refine ⟨final, run, (leavesNoTrace_delivers [23]).2 (by decide) _ final run ?_⟩
  have accepts (writer : BinaryCopyInWriter UInt32) (field : Option Bytes)
      (short : ∀ bytes ∈ field, bytes.length < 4096) (one : writer.types.length = 1)
      (empty : writer.buf.length ≤ 4096) : Accepts writer [ofEncoded field] := by
    intro _
    have fits : ∀ other ∈ [field], FitsI32 other := fun other member bytes same => by
      rw [List.mem_singleton.mp member] at same
      exact Nat.lt_trans (short bytes same) (by decide)
    have converted : Converts writer.types writer.buf ([field].map ofEncoded) [field] := by
      refine converts_ofEncoded ?_ fits _
      exact one.symm
    refine ⟨[field], converted, .inr (.inr ?_)⟩
    unfold FitsMessage rowBytes
    cases field with
    | none =>
        simp only [List.length_append, be16_length, List.flatMap_cons, List.flatMap_nil, nullable,
          be32_length, List.length_nil]
        omega
    | some bytes =>
        have small := short bytes rfl
        simp only [List.length_append, be16_length, List.flatMap_cons, List.flatMap_nil, nullable,
          be32_length, List.length_nil]
        omega
  refine ⟨fun values same => ?_, fun next stepped => ⟨fun values same => ?_, fun _ _ => trivial⟩⟩
  · cases same
    exact accepts _ _ (fun bytes same => by cases same; decide) rfl (by decide)
  · cases same
    cases stepped
    exact accepts _ _ (fun bytes same => by cases same) rfl (by decide)

/-- A call whose second value fails, and one that is accepted. -/
def failingEvents : List (Event UInt32) :=
  [.write [ofEncoded (some [7]), failing "value too large"],
    .write [ofEncoded (some [1]), ofEncoded (some [2])]]

/-- The first field of the failed row is sent in front of the next row. -/
theorem not_leavesNoTrace_delivers :
    ¬∀ (types : List UInt32) (events : List (Event UInt32)) (final : Copy UInt32),
      Execution.execute Copy.step (Copy.start types) events = some final →
      Execution.Along Copy.step (EachCall LeavesNoTrace) (Copy.start types) events ∧
        Delivers types final := by
  intro claimed
  have traceless := (claimed [23, 23] failingEvents _ rfl).1.1 _ rfl
  have kept := traceless (.toSql (.text "value too large") 1) _ rfl trivial
  exact absurd kept (by decide)

end OpenGauss.Driver.BinaryCopy
