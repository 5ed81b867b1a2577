import OpenGauss.Driver.Connection

/-! The end of a connection's startup (`tokio-opengauss`, `connect_raw.rs`): the
stream that hands out single messages, and the connection that goes on with what
is below it. -/

set_option autoImplicit false

namespace OpenGauss.Driver.Startup

open Protocol Protocol.Backend Connection

/-- `Framed`, on a socket that is going to give these chunks. -/
structure Framed where
  mode : AuthMode
  buffer : Bytes := []
  chunks : List Bytes
  deriving DecidableEq, Repr

/-- `poll_next` of the framed stream: a chunk is read when nothing can be
decoded, and there is no answer yet when there is no chunk. -/
def pollFramed (mode : AuthMode) : Bytes → List Bytes → StreamPoll × Framed
  | buffer, [] =>
      match PostgresCodec.decode mode buffer with
      | (.error error, buffer) => (.failed error, { mode, buffer, chunks := [] })
      | (.ok (some item), buffer) => (.item item, { mode, buffer, chunks := [] })
      | (.ok none, buffer) => (.pending, { mode, buffer, chunks := [] })
  | buffer, chunk :: chunks =>
      match PostgresCodec.decode mode buffer with
      | (.error error, buffer) => (.failed error, { mode, buffer, chunks := chunk :: chunks })
      | (.ok (some item), buffer) => (.item item, { mode, buffer, chunks := chunk :: chunks })
      | (.ok none, buffer) => pollFramed mode (buffer ++ chunk) chunks

def Framed.pollNext (self : Framed) : StreamPoll × Framed :=
  pollFramed self.mode self.buffer self.chunks

/-- What has arrived or is going to. -/
def Framed.bytes (self : Framed) : Bytes := self.buffer ++ self.chunks.flatten

structure StartupStream where
  inner : Framed
  buf : BackendMessages := .empty
  delayed : List BackendMessage := []
  deriving DecidableEq, Repr

/-- What the startup stream answers. -/
inductive MessagePoll where
  | message (message : Message)
  | failed (error : IoError)
  | ended
  | pending
  deriving DecidableEq, Repr

namespace StartupStream

/-- The loop of `poll_next`. -/
def pollUpTo : Nat → StartupStream → MessagePoll × StartupStream
  | 0, self => (.pending, self)
  | turns + 1, self =>
      match self.buf.next with
      | (.ok (some message), buf) => (.message message, { self with buf })
      | (.error error, buf) => (.failed error, { self with buf })
      | (.ok none, buf) =>
          match self.inner.pollNext with
          | (.item (.normal messages _), inner) =>
              pollUpTo turns { self with inner, buf := messages }
          | (.item (.async message), inner) => (.message message, { self with inner, buf })
          | (.failed error, inner) => (.failed error, { self with inner, buf })
          | (.ended, inner) => (.ended, { self with inner, buf })
          | (.pending, inner) => (.pending, { self with inner, buf })

/-- Every turn of the loop that goes on takes a byte, so these are enough. -/
def pollNext (self : StartupStream) : MessagePoll × StartupStream :=
  self.pollUpTo (self.inner.bytes.length + 2)

end StartupStream

/-- What `read_info` returns. -/
structure Info where
  processId : Int := 0
  secretKey : Int := 0
  parameters : List (String × String) := []
  deriving DecidableEq, Repr

/-- What a future comes to. -/
inductive Awaited (Value : Type) where
  | done (value : Value)
  | failed (error : Error)
  | pending

/-- `read_info`, for so many messages at most. -/
def readInfo : Nat → StartupStream → Info → Awaited (Info × StartupStream)
  | 0, _, _ => .pending
  | turns + 1, stream, info =>
      match stream.pollNext with
      | (.pending, _) => .pending
      | (.failed error, _) => .failed (.io error)
      | (.ended, _) => .failed .closed
      | (.message message, stream) =>
          match message with
          | .negotiateProtocolVersion => readInfo turns stream info
          | .backendKeyData body =>
              readInfo turns stream
                { info with processId := body.processId, secretKey := body.secretKey }
          | .parameterStatus body =>
              match getStr body.name, getStr body.value with
              | .ok name, .ok value =>
                  readInfo turns stream
                    { info with parameters := insertParameter info.parameters name value }
              | .error error, _ | .ok _, .error error => .failed (.parse error)
          | .noticeResponse storage =>
              readInfo turns
                { stream with delayed := stream.delayed ++ [.async (.noticeResponse storage)] } info
          | .readyForQuery _ => .done (info, stream)
          | .errorResponse storage => .failed (Error.ofBody storage)
          | _ => .failed .unexpectedMessage

/-- A connection, with the stream that it reads. -/
structure Connected (Messages : Type) where
  processId : Int
  secretKey : Int
  connection : Connection Messages
  inner : Framed

/-- `connect_raw`, from the end of the authentication on. Every message takes a
byte. The batch of the startup stream is dropped. -/
def connect (Messages : Type) (stream : StartupStream) : Awaited (Connected Messages) :=
  match readInfo (stream.buf.buf.length + stream.inner.bytes.length + 1) stream {} with
  | .pending => .pending
  | .failed error => .failed error
  | .done (info, stream) =>
      .done {
        processId := info.processId
        secretKey := info.secretKey
        connection := .new stream.delayed info.parameters
        inner := stream.inner }

/-- The messages that `startup` and `authenticate` take off the stream. -/
def takeMessages : Nat → StartupStream → Option (List Message × StartupStream)
  | 0, stream => some ([], stream)
  | count + 1, stream =>
      match stream.pollNext with
      | (.message message, stream) =>
          (takeMessages count stream).map fun taken => (message :: taken.1, taken.2)
      | _ => none

/-- The items that a connection takes off its stream, at most so many: the
stream is polled when nothing is put off. -/
def receive {Messages : Type} : Nat → Connection Messages → Framed → List BackendMessage
  | 0, _, _ => []
  | count + 1, connection, framed =>
      if connection.pendingResponses = [] then
        match framed.pollNext with
        | (.item message, framed) => message :: receive count connection framed
        | _ => []
      else
        match connection.pollResponse .pending with
        | (.item message, connection) => message :: receive count connection framed
        | _ => []

end OpenGauss.Driver.Startup
