import OpenGauss.Protocol.Put
import OpenGauss.Lib.Utf8

/-! The frontend builders on the shared buffer (`opengauss-protocol`,
`message/frontend.rs`): lengths and counts are patched in at remembered
offsets, and an error leaves what was written before it. -/

set_option autoImplicit false

namespace OpenGauss.Protocol.FrontendBuffer

open Lib

/-- A `&str`, by its characters. -/
abbrev Str := List Char

/-- The bytes of a `&str`. -/
abbrev asBytes (s : Str) : Bytes := Utf8.encode s

section

variable {ε : Type} [FromIoError ε]

def writeBody (f : Put ε Unit) : Put ε Unit := do
  let base ← len
  putSlice [0, 0, 0, 0]
  f
  let size ← i32FromUsize ((← len) - base)
  writeI32 base size

/-- The loop of `write_counted`, with its `count`. -/
def writeItems {Captured Item : Type} (items : List Item)
    (serializer : Captured → Item → Put ε Captured) (captured : Captured) : Put ε (Captured × Nat) :=
  items.foldlM (fun (captured, count) item => return (← serializer captured item, count + 1)) (captured, 0)

def writeCounted {Captured Item : Type} (items : List Item)
    (serializer : Captured → Item → Put ε Captured) (captured : Captured) : Put ε Unit := do
  let base ← len
  putSlice [0, 0]
  let (_, count) ← writeItems items serializer captured
  let count ← u16FromUsize count
  writeU16 base count

/-- `write_cstr`. -/
def writeCstr (s : Bytes) : Put ε Unit :=
  if s.contains 0 then throw (fromIo ⟨.invalidInput, "string contains embedded null"⟩)
  else do
    putSlice s
    putU8 0

/-- A closure that captures nothing. -/
def plain {Item : Type} (put : Item → Put ε Unit) (_ : Unit) (item : Item) : Put ε Unit := put item

end

inductive BindError where
  | conversion (error : BoxError)
  | serialization (error : IoError)
  deriving DecidableEq, Repr

instance : FromIoError BindError := ⟨.serialization⟩

/-- `From<Box<dyn Error>> for BindError`. -/
def fromBox {Value : Type} (build : Put BoxError Value) : Put BindError Value :=
  Builder.mapError .conversion build

def bind {Captured Item : Type} (portal statement : Str) (formats : List Int16) (values : List Item)
    (serializer : Serializer Captured Item IsNull BoxError) (captured : Captured)
    (resultFormats : List Int16) : Put BindError Unit := do
  putU8 66
  writeBody do
    writeCstr (asBytes portal)
    writeCstr (asBytes statement)
    writeCounted formats (plain putI16) ()
    fromBox (writeCounted values (fun captured value => writeNullable (serializer captured value)) captured)
    writeCounted resultFormats (plain putI16) ()

def cancelRequest (processId secretKey : Int32) : Put IoError Unit :=
  writeBody do
    putI32 80877102
    putI32 processId
    putI32 secretKey

def close (variant : UInt8) (name : Str) : Put IoError Unit := do
  putU8 67
  writeBody do
    putU8 variant
    writeCstr (asBytes name)

structure CopyData where
  buf : Bytes
  len : Int32
  deriving DecidableEq

/-- `CopyData::new`, of the bytes that the `Buf` holds. -/
def CopyData.new (buf : Bytes) : Except IoError CopyData :=
  if buf.length + 4 ≤ 2147483647 then .ok ⟨buf, Int32.ofNat (buf.length + 4)⟩
  else .error ⟨.invalidInput, "message length overflow"⟩

def CopyData.write (self : CopyData) : Put IoError Unit := do
  putU8 100
  putI32 self.len
  putSlice self.buf

def copyDone : Put IoError Unit := do
  putU8 99
  writeBody (pure ())

def copyFail (message : Str) : Put IoError Unit := do
  putU8 102
  writeBody (writeCstr (asBytes message))

def describe (variant : UInt8) (name : Str) : Put IoError Unit := do
  putU8 68
  writeBody do
    putU8 variant
    writeCstr (asBytes name)

def execute (portal : Str) (maxRows : Int32) : Put IoError Unit := do
  putU8 69
  writeBody do
    writeCstr (asBytes portal)
    putI32 maxRows

def parse (name query : Str) (paramTypes : List UInt32) : Put IoError Unit := do
  putU8 80
  writeBody do
    writeCstr (asBytes name)
    writeCstr (asBytes query)
    writeCounted paramTypes (plain putU32) ()

def passwordMessage (password : Bytes) : Put IoError Unit := do
  putU8 112
  writeBody (writeCstr password)

def query (query : Str) : Put IoError Unit := do
  putU8 81
  writeBody (writeCstr (asBytes query))

def saslInitialResponse (mechanism : Str) (data : Bytes) : Put IoError Unit := do
  putU8 112
  writeBody do
    writeCstr (asBytes mechanism)
    let len ← i32FromUsize data.length
    putI32 len
    putSlice data

def saslResponse (data : Bytes) : Put IoError Unit := do
  putU8 112
  writeBody (putSlice data)

def sslRequest : Put IoError Unit := writeBody (putI32 80877103)

/-- One turn of the loop in `startup_message`. -/
def writeParameter (parameter : Str × Str) : Put IoError Unit := do
  writeCstr (asBytes parameter.1)
  writeCstr (asBytes parameter.2)

def startupMessage (parameters : List (Str × Str)) : Put IoError Unit :=
  writeBody do
    -- version 3.51 of the protocol
    putI32 0x00030033
    parameters.foldlM (fun _ parameter => writeParameter parameter) ()
    putU8 0

def flush : Put IoError Unit := do
  putU8 72
  writeBody (pure ())

def sync : Put IoError Unit := do
  putU8 83
  writeBody (pure ())

def terminate : Put IoError Unit := do
  putU8 88
  writeBody (pure ())

/-- A call of a builder. The values of `bind` may be of any type. -/
inductive Call : Type 1 where
  | bind {Captured Item : Type} (portal statement : Str) (formats : List Int16) (values : List Item)
      (serializer : Serializer Captured Item IsNull BoxError) (captured : Captured)
      (resultFormats : List Int16)
  | cancelRequest (processId secretKey : Int32)
  | close (variant : UInt8) (name : Str)
  | copyData (data : Bytes)
  | copyDone
  | copyFail (message : Str)
  | describe (variant : UInt8) (name : Str)
  | execute (portal : Str) (maxRows : Int32)
  | parse (name query : Str) (paramTypes : List UInt32)
  | passwordMessage (password : Bytes)
  | query (query : Str)
  | saslInitialResponse (mechanism : Str) (data : Bytes)
  | saslResponse (data : Bytes)
  | sslRequest
  | startupMessage (parameters : List (Str × Str))
  | flush
  | sync
  | terminate

/-- `From<io::Error> for BindError`. -/
def fromIoResult {Value : Type} (build : Put IoError Value) : Put BindError Value :=
  Builder.mapError .serialization build

/-- `CopyData::new` and `CopyData::write`. -/
def copyData (data : Bytes) : Put IoError Unit :=
  match CopyData.new data with
  | .ok copyData => copyData.write
  | .error error => throw error

def Call.put : Call → Put BindError Unit
  | .bind portal statement formats values serializer captured resultFormats =>
      FrontendBuffer.bind portal statement formats values serializer captured resultFormats
  | .cancelRequest processId secretKey => fromIoResult (FrontendBuffer.cancelRequest processId secretKey)
  | .close variant name => fromIoResult (FrontendBuffer.close variant name)
  | .copyData data => fromIoResult (FrontendBuffer.copyData data)
  | .copyDone => fromIoResult FrontendBuffer.copyDone
  | .copyFail message => fromIoResult (FrontendBuffer.copyFail message)
  | .describe variant name => fromIoResult (FrontendBuffer.describe variant name)
  | .execute portal maxRows => fromIoResult (FrontendBuffer.execute portal maxRows)
  | .parse name text paramTypes => fromIoResult (FrontendBuffer.parse name text paramTypes)
  | .passwordMessage password => fromIoResult (FrontendBuffer.passwordMessage password)
  | .query text => fromIoResult (FrontendBuffer.query text)
  | .saslInitialResponse mechanism data => fromIoResult (FrontendBuffer.saslInitialResponse mechanism data)
  | .saslResponse data => fromIoResult (FrontendBuffer.saslResponse data)
  | .sslRequest => fromIoResult FrontendBuffer.sslRequest
  | .startupMessage parameters => fromIoResult (FrontendBuffer.startupMessage parameters)
  | .flush => fromIoResult FrontendBuffer.flush
  | .sync => fromIoResult FrontendBuffer.sync
  | .terminate => fromIoResult FrontendBuffer.terminate

/-- The calls one after another on one buffer, also after one that failed. -/
def runCalls (calls : List Call) (buf : Bytes) : Bytes :=
  calls.foldl (fun buf call => (call.put.execute buf).2) buf

end OpenGauss.Protocol.FrontendBuffer
