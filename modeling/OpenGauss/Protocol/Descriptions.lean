import OpenGauss.Lib.Utf8
import OpenGauss.Protocol.Backend

/-! The iterators over the bodies that count their items (`opengauss-protocol`,
`message/backend.rs`): the parameters of a statement, the fields of a row, the formats of a copy. -/

set_option autoImplicit false

namespace OpenGauss.Protocol.Backend

open Lib Buffer

namespace Buffer

def readU32 : BufferM UInt32 := do
  return UInt32.ofNat (beNat (← readExact 4))

def readInt32 : BufferM Int32 := do
  return (UInt32.ofNat (beNat (← readExact 4))).toInt32

def readWord16 : BufferM UInt16 := do
  return UInt16.ofNat (beNat (← readExact 2))

def readInt16 : BufferM Int16 := do
  return (UInt16.ofNat (beNat (← readExact 2))).toInt16

/-- `get_str`, on what has been read. -/
def textOf (bytes : Bytes) : Except IoError (List Char) :=
  match Utf8.decode? bytes with
  | some text => .ok text
  | none => .error ⟨.invalidInput, "invalid utf-8"⟩

end Buffer

/-- Such an iterator. -/
structure Counted where
  buf : Bytes
  remaining : Nat
  deriving DecidableEq, Repr

namespace Counted

variable {Item : Type}

def ofBody (body : CountedBody) : Counted := ⟨body.storage, body.len⟩

/-- `next`. -/
def next (item : BufferM Item) (undrained : String) (self : Counted) :
    Except IoError (Option (Item × Counted)) :=
  match self.remaining with
  | 0 => if self.buf.isEmpty then .ok none else .error ⟨.invalidInput, undrained⟩
  | remaining + 1 =>
      match item self.buf with
      | .error error => .error error
      | .ok (item, buf) => .ok (some (item, { buf, remaining }))

/-- `collect`, for an iterator that answers so many times at most. -/
def collectUpTo (next : Counted → Except IoError (Option (Item × Counted))) :
    Nat → Counted → Except IoError (List Item)
  | 0, _ => .ok []
  | turns + 1, self =>
      match next self with
      | .error error => .error error
      | .ok none => .ok []
      | .ok (some (item, self)) => (collectUpTo next turns self).map (item :: ·)

/-- Every answer but the last one takes one of the remaining items. -/
def collect (next : Counted → Except IoError (Option (Item × Counted))) (body : CountedBody) :
    Except IoError (List Item) :=
  collectUpTo next (body.len + 1) (ofBody body)

end Counted

def Parameters.next : Counted → Except IoError (Option (UInt32 × Counted)) :=
  Counted.next readU32 "invalid message length: parameters is not drained"

def ColumnFormats.next : Counted → Except IoError (Option (UInt16 × Counted)) :=
  Counted.next readWord16 "invalid message length: wrong column formats"

structure Field where
  name : List Char
  tableOid : UInt32
  columnId : Int16
  typeOid : UInt32
  typeSize : Int16
  typeModifier : Int32
  format : Int16
  deriving DecidableEq, Repr

def readField : BufferM Field := do
  let bytes ← readCstr
  let name ← liftM (textOf bytes)
  let tableOid ← readU32
  let columnId ← readInt16
  let typeOid ← readU32
  let typeSize ← readInt16
  let typeModifier ← readInt32
  let format ← readInt16
  return { name, tableOid, columnId, typeOid, typeSize, typeModifier, format }

def Fields.next : Counted → Except IoError (Option (Field × Counted)) :=
  Counted.next readField "invalid message length: field is not drained"

/-- `parameters().collect()`. -/
def parameters : CountedBody → Except IoError (List UInt32) := Counted.collect Parameters.next

/-- `column_formats().collect()`. -/
def columnFormats : CountedBody → Except IoError (List UInt16) := Counted.collect ColumnFormats.next

/-- `fields().collect()`. -/
def fields : CountedBody → Except IoError (List Field) := Counted.collect Fields.next

end OpenGauss.Protocol.Backend
