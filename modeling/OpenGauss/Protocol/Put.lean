import OpenGauss.Protocol.Backend
import OpenGauss.Lib.Builder

/-! Writing into a shared `BytesMut` (`opengauss-protocol`, `lib.rs`): integers,
checked narrowing, and values whose length is patched in behind them. -/

set_option autoImplicit false

namespace OpenGauss.Protocol

open Lib

/-- `Box<dyn Error>`: an I/O error, or one that is only a text. -/
inductive BoxError where
  | io (error : IoError)
  | text (message : String)
  deriving DecidableEq, Repr

/-- `E: From<io::Error>`. -/
class FromIoError (ε : Type) where
  fromIo : IoError → ε

export FromIoError (fromIo)

instance : FromIoError IoError := ⟨id⟩

instance : FromIoError BoxError := ⟨.io⟩

abbrev Put (ε Value : Type) := Builder UInt8 ε Value

inductive IsNull where
  | yes
  | no
  deriving DecidableEq, Repr

/-- `FnMut(T, &mut BytesMut) -> Result<_, E>`: what it captures goes through the calls. -/
abbrev Serializer (Captured Item Answer ε : Type) := Captured → Item → Put ε (Answer × Captured)

/-- Two big-endian bytes of a count or a format. -/
def be16 (value : Nat) : Bytes := [UInt8.ofNat (value / 2 ^ 8), UInt8.ofNat value]

section

variable {ε : Type}

def putSlice (bytes : Bytes) : Put ε Unit := Builder.append bytes

def putU8 (value : UInt8) : Put ε Unit := Builder.append [value]

def putI16 (value : Int16) : Put ε Unit := Builder.append (be16 value.toUInt16.toNat)

def putU32 (value : UInt32) : Put ε Unit := Builder.append (be32 value.toNat)

def putI32 (value : Int32) : Put ε Unit := Builder.append (be32 value.toUInt32.toNat)

/-- `BigEndian::write_i32(&mut buf[base..], value)`. -/
def writeI32 (base : Nat) (value : Int32) : Put ε Unit :=
  Builder.patch base (be32 value.toUInt32.toNat)

/-- `BigEndian::write_u16(&mut buf[base..], value)`. -/
def writeU16 (base : Nat) (value : UInt16) : Put ε Unit :=
  Builder.patch base (be16 value.toNat)

def len : Put ε Nat := Builder.length

variable [FromIoError ε]

/-- `from_usize!`, by the `MAX` of the integer type. -/
def fromUsize {Target : Type} (max : Nat) (cast : Nat → Target) (x : Nat) : Put ε Target :=
  if max < x then throw (fromIo ⟨.invalidInput, "value too large to transmit"⟩)
  else return cast x

def u16FromUsize (x : Nat) : Put ε UInt16 := fromUsize 65535 UInt16.ofNat x

def i32FromUsize (x : Nat) : Put ε Int32 := fromUsize 2147483647 Int32.ofNat x

/-- The length that `write_nullable` patches in before a value. -/
def nullableSize (base : Nat) : IsNull → Put ε Int32
  | .no => do i32FromUsize ((← len) - base - 4)
  | .yes => return -1

/-- `write_nullable`. What the closure has captured and changed is passed on. -/
def writeNullable {Captured : Type} (serializer : Put ε (IsNull × Captured)) : Put ε Captured := do
  let base ← len
  putI32 0
  let (isNull, captured) ← serializer
  let size ← nullableSize base isNull
  writeI32 base size
  return captured

end

end OpenGauss.Protocol
