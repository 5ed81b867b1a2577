import OpenGauss.Driver.ClientRequests
import OpenGauss.Driver.RowRanges

/-! The binary format of `COPY` (`tokio-opengauss`, `binary_copy.rs`): the writer
of rows and the stream that reads them. -/

set_option autoImplicit false

namespace OpenGauss.Driver.BinaryCopy

open Lib Protocol

/-- `PGCOPY\n\xff\r\n\0`. -/
def magic : Bytes := [80, 71, 67, 79, 80, 89, 10, 255, 13, 10, 0]

def headerLen : Nat := magic.length + 4 + 4

/-! ### The writer -/

/-- A `CopyInSink`, by what its `send` lets through: an item is taken unless the
connection is gone or no message can hold it. -/
structure Sink where
  sent : List Bytes := []
  closed : Bool := false
  deriving DecidableEq, Repr

/-- `send` and its `await`. -/
def Sink.send (self : Sink) (item : Bytes) : Except Error Unit × Sink :=
  if self.closed then (.error .closed, self)
  else
    match FrontendBuffer.CopyData.new item with
    | .error error => (.error (.encode error), self)
    | .ok _ => (.ok (), { self with sent := self.sent ++ [item] })

/-- `i32::try_from`, with its error as `Error::encode`. -/
def i32TryFrom (x : Nat) : Put EncodeError Int32 :=
  if x ≤ 2147483647 then return Int32.ofNat x
  else
    throw (.driver (.encode
      ⟨.invalidInput, "out of range integral type conversion attempted"⟩))

/-- The length that is patched in before a field. -/
def fieldLen (idx : Nat) : IsNull → Put EncodeError Int32
  | .yes => return -1
  | .no => do i32TryFrom ((← len) - idx - 4)

section

variable {Ty : Type}

/-- The body of the loop over the values. -/
def writeField (i : Nat) (value : ToSql Ty) (type : Ty) : Put EncodeError Unit := do
  let idx ← len
  putI32 0
  let isNull ← Builder.mapError (fun error => .toSql error i) (value.toSqlChecked type)
  let len ← fieldLen idx isNull
  writeI32 idx len

def writeFields : Nat → List (ToSql Ty × Ty) → Put EncodeError Unit
  | _, [] => return ()
  | i, (value, type) :: rest => do
      writeField i value type
      writeFields (i + 1) rest

/-- What `write_raw` puts into its buffer; the number of columns is cast to `i16`. -/
def writeRow (types : List Ty) (values : List (ToSql Ty)) : Put EncodeError Unit := do
  putI16 (Int16.ofNat types.length)
  writeFields 0 (values.zip types)

structure BinaryCopyInWriter (Ty : Type) where
  sink : Sink
  types : List Ty
  buf : Bytes

namespace BinaryCopyInWriter

def new (sink : Sink) (types : List Ty) : BinaryCopyInWriter Ty where
  sink
  types
  buf := magic ++ be32 0 ++ be32 0

/-- `sink.send(buf.split().freeze()).await?`. -/
def sendBuf (self : BinaryCopyInWriter Ty) : Except EncodeError Unit × BinaryCopyInWriter Ty :=
  let (answer, sink) := self.sink.send self.buf
  (answer.mapError .driver, { self with sink, buf := [] })

/-- `none` is the panic of the `assert!`. -/
def writeRaw (self : BinaryCopyInWriter Ty) (values : List (ToSql Ty)) :
    Option (Except EncodeError Unit × BinaryCopyInWriter Ty) :=
  if values.length ≠ self.types.length then none
  else
    match (writeRow self.types values).execute self.buf with
    | (.error error, buf) => some (.error error, { self with buf })
    | (.ok (), buf) =>
        if 4096 < buf.length then some { self with buf }.sendBuf
        else some (.ok (), { self with buf })

/-- `finish`, with what the sink's own `finish` answers. -/
def finish (self : BinaryCopyInWriter Ty) (finished : Except Error Nat) :
    Except EncodeError Nat × BinaryCopyInWriter Ty :=
  match { self with buf := self.buf ++ be16 65535 }.sendBuf with
  | (.error error, self) => (.error error, self)
  | (.ok (), self) => (finished.mapError .driver, self)

end BinaryCopyInWriter

/-! ### The reader -/

structure Header where
  hasOids : Bool
  deriving DecidableEq, Repr

/-- Why reading a chunk ends without a row. -/
inductive Halt where
  | error (cause : Error)
  /-- The read runs over the end of the cursor. -/
  | panic
  /-- An addition leaves `i16`. -/
  | overflow
  deriving DecidableEq

/-- `Cursor<Bytes>`. -/
structure Cursor where
  inner : Bytes
  position : Nat

def Cursor.remaining (self : Cursor) : Nat := self.inner.length - self.position

/-- `Buf::chunk`. -/
def Cursor.chunk (self : Cursor) : Bytes := self.inner.drop self.position

abbrev CursorM := StateT Cursor (Except Halt)

def halt {Value : Type} (reason : Halt) : CursorM Value := fun _ => .error reason

def checkRemaining (len : Nat) : CursorM Unit := fun buf =>
  if buf.remaining < len then .error (.error (.parse unexpectedEof)) else .ok ((), buf)

def advance (count : Nat) : CursorM Unit := fun buf =>
  if buf.remaining < count then .error .panic
  else .ok ((), { buf with position := buf.position + count })

/-- The next bytes of an integer, big-endian. -/
def getWord (size : Nat) : CursorM Nat := do
  let buf ← get
  advance size
  return beNat (buf.chunk.take size)

/-- Reading a 16-bit word as `i16`. -/
def asI16 (word : Nat) : Int :=
  if word < 2 ^ 15 then word else word - 2 ^ 16

def getI16 : CursorM Int := return asI16 (← getWord 2)

def getI32 : CursorM Int := return asI32 (← getWord 4)

def getU32 : CursorM Nat := getWord 4

/-- `len as usize`. -/
def asUsize (len : Int) : Nat := (len % 2 ^ 64).toNat

/-- The header of the first chunk. -/
def readHeader : CursorM Header := do
  checkRemaining headerLen
  let chunk ← get
  if !magic.isPrefixOf chunk.chunk then
    halt (.error (.parse ⟨.invalidData, "invalid magic value"⟩))
  else
    advance magic.length
    -- bit 16 of the flags is the same for the `i32` and for the word
    let flags ← getWord 4
    let hasOids := flags.testBit 16
    let headerExtension ← getU32
    checkRemaining headerExtension
    advance headerExtension
    return { hasOids }

/-- The loop over the fields. -/
def readRanges : Nat → CursorM (List (Option Range))
  | 0 => return []
  | count + 1 => do
      checkRemaining 4
      let len ← getI32
      if len = -1 then
        return none :: (← readRanges count)
      else
        let len := asUsize len
        checkRemaining len
        let start := (← get).position
        advance len
        return some ⟨start, start + len⟩ :: (← readRanges count)

/-- `if has_oids { len += 1; }`. -/
def fieldCount (hasOids : Bool) (len : Int) : CursorM Int :=
  if hasOids then
    if len + 1 < 2 ^ 15 then return len + 1 else halt .overflow
  else return len

structure BinaryCopyOutRow (Ty : Type) where
  buf : Bytes
  ranges : List (Option Range)
  types : List Ty

/-- A chunk behind the header. -/
def readRow (types : List Ty) (hasOids : Bool) : CursorM (Option (BinaryCopyOutRow Ty)) := do
  checkRemaining 2
  let len ← getI16
  if len = -1 then
    return none
  else
    let len ← fieldCount hasOids len
    if asUsize len ≠ types.length then
      halt (.error (.parse ⟨.invalidInput,
        "expected " ++ toString types.length ++ " values but got " ++ toString len⟩))
    else
      let ranges ← readRanges len.toNat
      return some { buf := (← get).inner, ranges, types }

structure BinaryCopyOutStream (Ty : Type) where
  types : List Ty
  header : Option Header

/-- What a poll answers; `none` is a panic. -/
abbrev Polled (Ty : Type) := Option (Poll (Option (Except Error (BinaryCopyOutRow Ty))))

def Halt.polled : Halt → Polled Ty
  | .error cause => some (.ready (some (.error cause)))
  | .panic | .overflow => none

namespace BinaryCopyOutStream

def new (types : List Ty) : BinaryCopyOutStream Ty where
  types
  header := none

/-- The part of `poll_next` behind the header. -/
def pollRow (self : BinaryCopyOutStream Ty) (hasOids : Bool) (chunk : Cursor) : Polled Ty :=
  match (readRow self.types hasOids).run chunk with
  | .error reason => reason.polled
  | .ok (row, _) => some (.ready (row.map .ok))

/-- `poll_next`, with what the inner stream answers. -/
def pollNext (self : BinaryCopyOutStream Ty) (polled : Poll (Option (Except Error Bytes))) :
    Polled Ty × BinaryCopyOutStream Ty :=
  match polled with
  | .pending => (some .pending, self)
  | .ready none => (some (.ready (some (.error .closed))), self)
  | .ready (some (.error error)) => (some (.ready (some (.error error))), self)
  | .ready (some (.ok chunk)) =>
      match self.header with
      | some header => (self.pollRow header.hasOids ⟨chunk, 0⟩, self)
      | none =>
          match readHeader.run ⟨chunk, 0⟩ with
          | .error reason => (reason.polled, self)
          | .ok (header, chunk) =>
              (self.pollRow header.hasOids chunk, { self with header := some header })

end BinaryCopyOutStream

/-- `try_get`; `none` is a panic. -/
def BinaryCopyOutRow.tryGet {Value Cause : Type} (row : BinaryCopyOutRow Ty)
    (fromSql : FromSql Ty Value Cause) (idx : Nat) :
    Option (Except (RowError (FromSqlError Ty Cause)) Value) :=
  match row.types[idx]? with
  | none => return .error (.column (toString idx))
  | some type =>
      if !fromSql.accepts type then return .error (.fromSql (.wrongType type) idx)
      else do
        let raw ← cut row.buf (← row.ranges[idx]?)
        return (fromSql.fromSqlNullable type raw).mapError fun error =>
          .fromSql (.conversion error) idx

end

end OpenGauss.Driver.BinaryCopy
