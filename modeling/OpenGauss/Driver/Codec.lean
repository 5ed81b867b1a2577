import OpenGauss.Protocol.Backend

/-! The codec of a connection (`tokio-opengauss`, `codec.rs`). -/

set_option autoImplicit false

namespace OpenGauss.Driver

open Protocol Protocol.Backend

/-- A batch of whole frames, parsed only when it is iterated. -/
structure BackendMessages where
  buf : Bytes
  mode : AuthMode
  deriving DecidableEq, Repr

def BackendMessages.empty : BackendMessages := ⟨[], .standard⟩

def BackendMessages.next (messages : BackendMessages) :
    Except IoError (Option Message) × BackendMessages :=
  let (result, buf) := Message.parseWithMode messages.mode messages.buf
  (result, { messages with buf })

/-- Iterating a batch to its end, at most `fuel` messages. -/
def BackendMessages.drain : Nat → BackendMessages → Except IoError (List Message)
  | 0, _ => .ok []
  | fuel + 1, messages =>
      match messages.next with
      | (.error error, _) => .error error
      | (.ok none, _) => .ok []
      | (.ok (some message), rest) => (rest.drain fuel).map (message :: ·)

/-- Each message takes at least one byte, so the length of the buffer is fuel enough. -/
def BackendMessages.collect (messages : BackendMessages) : Except IoError (List Message) :=
  messages.drain (messages.buf.length + 1)

inductive BackendMessage where
  | normal (messages : BackendMessages) (requestComplete : Bool)
  | async (message : Message)
  deriving DecidableEq, Repr

namespace PostgresCodec

/-- The tags handed out on their own, ahead of any response. -/
def isAsyncTag (tag : UInt8) : Bool :=
  tag == noticeResponseTag || tag == notificationResponseTag || tag == parameterStatusTag

/-- How the scan of `decode` ends. -/
inductive Scan where
  /-- An asynchronous message is first in the buffer. -/
  | asyncFirst
  /-- The batch ends at `idx`. -/
  | cut (idx : Nat) (requestComplete : Bool)
  deriving DecidableEq, Repr

/-- The `while let` loop of `decode`: `idx` bytes of `src` are whole frames of the batch. -/
def scan (src : Bytes) : Nat → Nat → Except IoError Scan
  | 0, idx => .ok (.cut idx false)
  | fuel + 1, idx =>
      match Header.parse (src.drop idx) with
      | .error error => .error error
      | .ok none => .ok (.cut idx false)
      | .ok (some header) =>
          let len := header.len.toNat + 1
          if (src.drop idx).length < len then .ok (.cut idx false)
          else if isAsyncTag header.tag then
            if idx = 0 then .ok .asyncFirst else .ok (.cut idx false)
          else if header.tag = readyForQueryTag then .ok (.cut (idx + len) true)
          else scan src fuel (idx + len)

/-- `PostgresCodec::decode`. Every frame the scan passes is five bytes or more,
so the scan ends before its fuel does. -/
def decode (mode : AuthMode) (src : Bytes) : Except IoError (Option BackendMessage) × Bytes :=
  match scan src (src.length + 1) 0 with
  | .error error => (.error error, src)
  | .ok .asyncFirst =>
      match Message.parseWithMode mode src with
      | (.error error, rest) => (.error error, rest)
      | (.ok none, rest) => (.ok none, rest)
      | (.ok (some message), rest) => (.ok (some (.async message)), rest)
  | .ok (.cut idx requestComplete) =>
      if idx = 0 then (.ok none, src)
      else (.ok (some (.normal ⟨src.take idx, mode⟩ requestComplete)), src.drop idx)

/-- Calling `decode` until it answers `None`: the items, and the buffer it leaves. -/
def decodeAll (mode : AuthMode) : Nat → Bytes → Except IoError (List BackendMessage × Bytes)
  | 0, src => .ok ([], src)
  | fuel + 1, src =>
      match decode mode src with
      | (.error error, _) => .error error
      | (.ok none, rest) => .ok ([], rest)
      | (.ok (some item), rest) =>
          (decodeAll mode fuel rest).map fun (items, final) => (item :: items, final)

/-- The read loop of the framed stream: append a chunk, decode until `None`,
and go on with the next chunk. One entry for each chunk. -/
def feed (mode : AuthMode) : Bytes → List Bytes → Except IoError (List (List BackendMessage × Bytes))
  | _, [] => .ok []
  | buffer, chunk :: chunks =>
      match decodeAll mode ((buffer ++ chunk).length + 1) (buffer ++ chunk) with
      | .error error => .error error
      | .ok round => (feed mode round.2 chunks).map (round :: ·)

end PostgresCodec

/-- The messages an item stands for, in order. -/
def BackendMessage.flatten : BackendMessage → Except IoError (List Message)
  | .async message => .ok [message]
  | .normal messages _ => messages.collect

/-- The messages of a sequence of items, in order. -/
def BackendMessage.flattenAll (items : List BackendMessage) : Except IoError (List Message) :=
  (items.mapM BackendMessage.flatten).map List.flatten

end OpenGauss.Driver
