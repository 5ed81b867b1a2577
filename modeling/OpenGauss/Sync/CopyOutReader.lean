import OpenGauss.Driver.CopyOut

/-! The reader of a `COPY ... TO STDOUT` in the synchronous client (`opengauss`,
`copy_out_reader.rs`). -/

set_option autoImplicit false

namespace OpenGauss.Sync

open Protocol Driver

structure CopyOutReader where
  stream : CopyOutStream
  cur : Bytes
  deriving DecidableEq, Repr

namespace CopyOutReader

def new (stream : CopyOutStream) : CopyOutReader := ⟨stream, []⟩

/-- `fill_buf`. While it waits for the stream, the connection works on. -/
def fillBuf (reader : CopyOutReader) : Except Error Bytes × CopyOutReader :=
  if reader.cur = [] then
    match _ : reader.stream.pollNext with
    | (some (.ok cur), stream) => fillBuf { stream, cur }
    | (some (.error error), stream) => (.error error, { reader with stream })
    | (none, stream) => (.ok reader.cur, { reader with stream })
  else (.ok reader.cur, reader)
termination_by reader.stream.responses.size
decreasing_by
  rename_i read
  exact CopyOutStream.pollNext_shorter read

/-- `consume`; a count beyond the buffer is a panic. -/
def consume (reader : CopyOutReader) (amt : Nat) : Option CopyOutReader :=
  if amt ≤ reader.cur.length then some { reader with cur := reader.cur.drop amt } else none

/-- `read` into a buffer of `size` bytes: the bytes that it puts there. -/
def read (reader : CopyOutReader) (size : Nat) : Option (Except Error Bytes × CopyOutReader) :=
  match reader.fillBuf with
  | (.error error, reader) => some (.error error, reader)
  | (.ok b, reader) =>
      let len := min size b.length
      (reader.consume len).map fun reader => (.ok (b.take len), reader)

end CopyOutReader

inductive ReaderCall where
  | read (size : Nat)
  | fillBuf
  | consume (amt : Nat)
  deriving DecidableEq, Repr

/-- What a call returns: `bytes` are those put into the buffer of `read`, or those that
`fill_buf` shows. -/
inductive ReaderAnswer where
  | bytes (result : Except Error Bytes)
  | consumed
  deriving DecidableEq, Repr

namespace CopyOutReader

def call (reader : CopyOutReader) : ReaderCall → Option (ReaderAnswer × CopyOutReader)
  | .read size => (reader.read size).map fun (result, reader) => (.bytes result, reader)
  | .fillBuf =>
      let (result, reader) := reader.fillBuf
      some (.bytes result, reader)
  | .consume amt => (reader.consume amt).map fun reader => (.consumed, reader)

/-- A sequence of calls, with what they return; `none` is a panic. -/
def run : CopyOutReader → List ReaderCall → Option (List (ReaderCall × ReaderAnswer))
  | _, [] => some []
  | reader, call :: calls => do
      let (answer, reader) ← reader.call call
      let exchanges ← run reader calls
      return (call, answer) :: exchanges

end CopyOutReader

end OpenGauss.Sync
