import OpenGauss.Driver.Error
import OpenGauss.Lib.Channel
import OpenGauss.Lib.Numeral
import OpenGauss.Protocol.FrontendBuffer

/-! `COPY ... FROM STDIN` (`tokio-opengauss`, `copy_in.rs`): the sink that takes
the data, and the stream of frontend messages that the connection writes. -/

set_option autoImplicit false

namespace OpenGauss.Driver

open Lib Protocol Protocol.Backend

/-- `FrontendMessage` of `codec.rs`. -/
inductive FrontendMessage where
  | raw (buf : Bytes)
  | copyData (data : FrontendBuffer.CopyData)
  deriving DecidableEq

/-- What a builder leaves in a new buffer. -/
def built (build : Put IoError Unit) : Bytes := (build.execute []).2

inductive CopyInMessage where
  | message (message : FrontendMessage)
  | done
  deriving DecidableEq

/-- `CopyDone` and `Sync`. -/
def copyDoneMessage : FrontendMessage :=
  .raw (built do
    FrontendBuffer.copyDone
    FrontendBuffer.sync)

/-- `CopyFail` and `Sync`. -/
def copyFailMessage : FrontendMessage :=
  .raw (built do
    FrontendBuffer.copyFail []
    FrontendBuffer.sync)

/-- `CopyInReceiver`, whose channel is given as it is when the stream is polled. -/
structure CopyInReceiver where
  channel : Channel CopyInMessage
  done : Bool := false
  deriving DecidableEq

/-- `CopyInReceiver::poll_next`. -/
def CopyInReceiver.pollNext (self : CopyInReceiver) :
    Poll (Option FrontendMessage) × CopyInReceiver :=
  if self.done then (.ready none, self)
  else
    match self.channel.pollNext with
    | (.pending, channel) => (.pending, { self with channel })
    | (.ready (some (.message message)), channel) => (.ready (some message), { self with channel })
    | (.ready (some .done), channel) => (.ready (some copyDoneMessage), { channel, done := true })
    | (.ready none, channel) => (.ready (some copyFailMessage), { channel, done := true })

/-- `extract_row_affected`, on the tag of a `CommandComplete`. -/
def extractRowAffected (tag : Bytes) : Except Error Nat :=
  match getStr tag with
  | .error error => .error (.parse error)
  | .ok text =>
      let last := (text.toList.reverse.takeWhile (· ≠ ' ')).reverse
      .ok ((Numeral.parseUnsigned (2 ^ 64) last).getD 0)

inductive SinkState where
  | active
  | closing
  | reading
  deriving DecidableEq, Repr

structure CopyInSink where
  sender : Channel CopyInMessage
  buf : Bytes := []
  state : SinkState := .active
  deriving DecidableEq

namespace CopyInSink

/-- `Sink::poll_ready`. -/
def pollReady (self : CopyInSink) : Poll (Except Error Unit) :=
  match self.sender.pollReady with
  | .pending => .pending
  | .ready (.error _) => .ready (.error .closed)
  | .ready (.ok ()) => .ready (.ok ())

/-- `CopyData::new`, and the message given to the channel. -/
def sendData (self : CopyInSink) (data : Bytes) : Except Error Unit × CopyInSink :=
  match FrontendBuffer.CopyData.new data with
  | .error error => (.error (.encode error), self)
  | .ok data =>
      match self.sender.startSend (.message (.copyData data)) with
      | .error _ => (.error .closed, self)
      | .ok sender => (.ok (), { self with sender })

/-- `Sink::start_send`. -/
def startSend (self : CopyInSink) (item : Bytes) : Except Error Unit × CopyInSink :=
  if 4096 < item.length then
    if self.buf.isEmpty then self.sendData item
    else
      -- the buffer is split off before the message is built
      { self with buf := [] }.sendData (self.buf ++ item)
  else
    let buf := self.buf ++ item
    if 4096 < buf.length then { self with buf := [] }.sendData buf
    else (.ok (), { self with buf })

def flushSender (self : CopyInSink) : Poll (Except Error Unit) :=
  match self.sender.pollFlush with
  | .pending => .pending
  | .ready (.error _) => .ready (.error .closed)
  | .ready (.ok ()) => .ready (.ok ())

/-- `Sink::poll_flush`. -/
def pollFlush (self : CopyInSink) : Poll (Except Error Unit) × CopyInSink :=
  if self.buf.isEmpty then (self.flushSender, self)
  else
    match self.pollReady with
    | .pending => (.pending, self)
    | .ready (.error error) => (.ready (.error error), self)
    | .ready (.ok ()) =>
        match { self with buf := [] }.sendData self.buf with
        | (.error error, self) => (.ready (.error error), self)
        | (.ok (), self) => (self.flushSender, self)

/-- `poll_finish` in the state `Reading`, with what the responses answer. -/
def pollReading (self : CopyInSink) (response : Poll (Except Error Message)) :
    Poll (Except Error Nat) × CopyInSink :=
  match response with
  | .pending => (.pending, self)
  | .ready (.error error) => (.ready (.error error), self)
  | .ready (.ok (.commandComplete tag)) => (.ready (extractRowAffected tag), self)
  | .ready (.ok _) => (.ready (.error .unexpectedMessage), self)

/-- `poll_finish` in the state `Closing`. -/
def pollClosing (self : CopyInSink) (response : Poll (Except Error Message)) :
    Poll (Except Error Nat) × CopyInSink :=
  { self with sender := self.sender.closeSender, state := .reading }.pollReading response

/-- `poll_finish` in the state `Active`. -/
def pollActive (self : CopyInSink) (response : Poll (Except Error Message)) :
    Poll (Except Error Nat) × CopyInSink :=
  match self.pollFlush with
  | (.pending, self) => (.pending, self)
  | (.ready (.error error), self) => (.ready (.error error), self)
  | (.ready (.ok ()), self) =>
      match self.pollReady with
      | .pending => (.pending, self)
      | .ready (.error error) => (.ready (.error error), self)
      | .ready (.ok ()) =>
          match self.sender.startSend .done with
          | .error _ => (.ready (.error .closed), self)
          | .ok sender => { self with sender, state := .closing }.pollClosing response

/-- `poll_finish`, and `Sink::poll_close`. -/
def pollFinish (self : CopyInSink) (response : Poll (Except Error Message)) :
    Poll (Except Error Nat) × CopyInSink :=
  match self.state with
  | .active => self.pollActive response
  | .closing => self.pollClosing response
  | .reading => self.pollReading response

/-! ### A copy, from both ends of its channel -/

structure System where
  sink : CopyInSink
  dropped : Bool := false
  /-- The sink has been found ready, and nothing has been sent since. -/
  ready : Bool := false
  /-- `done` of the receiver. -/
  done : Bool := false
  /-- The items whose `start_send` has returned `Ok`. -/
  accepted : List Bytes := []
  /-- What the connection has got from the stream. -/
  received : List FrontendMessage := []

inductive Event where
  | pollReady
  | startSend (item : Bytes)
  | pollFlush
  | pollFinish (response : Poll (Except Error Message))
  | drop
  /-- The connection polls the stream. -/
  | receive
  /-- The connection is gone. -/
  | hangUp

/-- `copy_in`: the statement is in the channel before any data. -/
def System.start (head : Bytes) : System where
  sink := { sender := { buffer := 1, queue := [.message (.raw head)] } }

/-- An item is sent only to a sink that has been found ready and that has not
been finished. -/
def step (system : System) : Event → Option System
  | .pollReady =>
      if system.dropped then none
      else some { system with ready := decide (system.sink.pollReady = .ready (.ok ())) }
  | .startSend item =>
      if system.dropped || !system.ready || system.sink.state ≠ .active then none
      else
        let (answer, sink) := system.sink.startSend item
        some { system with
          sink
          ready := false
          accepted := if answer = .ok () then system.accepted ++ [item] else system.accepted }
  | .pollFlush =>
      if system.dropped then none else some { system with sink := system.sink.pollFlush.2 }
  | .pollFinish response =>
      if system.dropped then none
      else some { system with sink := (system.sink.pollFinish response).2 }
  | .drop =>
      some { system with
        sink := { system.sink with sender := system.sink.sender.closeSender }
        dropped := true }
  | .receive =>
      if system.sink.sender.receiverGone then none
      else
        let (polled, receiver) := CopyInReceiver.pollNext ⟨system.sink.sender, system.done⟩
        some { system with
          sink := { system.sink with sender := receiver.channel }
          done := receiver.done
          received := match polled with
            | .ready (some message) => system.received ++ [message]
            | _ => system.received }
  | .hangUp =>
      some { system with
        sink := { system.sink with sender := system.sink.sender.closeReceiver } }

end CopyInSink

end OpenGauss.Driver
