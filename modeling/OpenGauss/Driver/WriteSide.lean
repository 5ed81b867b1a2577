import OpenGauss.Driver.Connection
import OpenGauss.Driver.CopyInSink

/-! The writing side of a connection (`tokio-opengauss`, `connection.rs`): the
requests of the clients on their way to the socket. -/

set_option autoImplicit false

namespace OpenGauss.Driver

open Lib Protocol Protocol.Backend

/-- The stream of a copy, by the number of its channel. -/
structure CopyInStream where
  channel : Nat
  done : Bool := false
  deriving DecidableEq, Repr

/-- `RequestMessages`. -/
inductive RequestMessages where
  | single (message : FrontendMessage)
  | copyIn (stream : CopyInStream)
  deriving DecidableEq

/-- `Terminate`. -/
def terminateMessage : FrontendMessage := .raw (built FrontendBuffer.terminate)

namespace Connection

/-- What the socket answers to `poll_ready`, `poll_flush` and `poll_close`. -/
inductive SocketPoll where
  | ready
  | pending
  | failed (error : IoError)

/-- The channels of the copies, by number. -/
abbrev Channels := Nat → Channel CopyInMessage

def Channels.update (channels : Channels) (number : Nat) (channel : Channel CopyInMessage) :
    Channels := fun other => if other = number then channel else channels other

/-- The outcome of one turn of the loop in `poll_write`. -/
structure WriteTurn where
  connection : Connection RequestMessages
  channels : Channels
  /-- The message given to `start_send`. -/
  sent : Option FrontendMessage := none
  /-- What `poll_write` returns, when this turn is its last. -/
  result : Option (Except Error Bool) := none

/-- The messages of a request: the only one, or the next of a copy, which is
held back until its stream is over. Encoding a message never fails. -/
def writeMessages (connection : Connection RequestMessages) (channels : Channels)
    (messages : RequestMessages) : WriteTurn :=
  match messages with
  | .single message =>
      { connection :=
          if connection.state = .terminating then { connection with state := .closing }
          else connection
        channels
        sent := some message }
  | .copyIn stream =>
      let polled := CopyInReceiver.pollNext ⟨channels stream.channel, stream.done⟩
      let stream := { stream with done := polled.2.done }
      match polled.1 with
      | .ready (some message) =>
          { connection := { connection with pendingRequest := some (.copyIn stream) }
            channels := channels.update stream.channel polled.2.channel
            sent := some message }
      | .ready none =>
          -- the receiver is dropped with the request
          { connection
            channels := channels.update stream.channel polled.2.channel.closeReceiver }
      | .pending =>
          { connection := { connection with pendingRequest := some (.copyIn stream) }
            channels := channels.update stream.channel polled.2.channel
            result := some (.ok true) }

/-- One turn of the loop in `poll_write`. -/
def pollWriteTurn (connection : Connection RequestMessages) (channels : Channels)
    (socket : SocketPoll) : WriteTurn :=
  if connection.state = .closing then { connection, channels, result := some (.ok false) }
  else
    match socket with
    | .failed error => { connection, channels, result := some (.error (.io error)) }
    | .pending => { connection, channels, result := some (.ok false) }
    | .ready =>
        match connection.pollRequest with
        | (some (some messages), connection) => connection.writeMessages channels messages
        | (some none, connection) =>
            if connection.responses.isEmpty ∧ connection.state = .active then
              { connection with state := .terminating }.writeMessages channels
                (.single terminateMessage)
            else { connection, channels, result := some (.ok true) }
        | (none, connection) => { connection, channels, result := some (.ok true) }

end Connection

/-! ### The connection among its clients -/

namespace WriteSide

open Connection

/-- Where `poll_message` is, with the message it is going to return. -/
inductive Phase where
  | reading
  | writing (message : Option AsyncMessage)
  | flushing (message : Option AsyncMessage)
  | shutdown (message : Option AsyncMessage)
  /-- It has returned an error or the end of all messages. -/
  | ended
  deriving DecidableEq

structure System where
  connection : Connection RequestMessages
  phase : Phase
  channels : Channels
  /-- All requests, in the order of the queue. -/
  requests : List (Request RequestMessages)
  /-- What the sinks have put into the channels. -/
  given : Nat → List CopyInMessage
  /-- The messages handed to the socket. -/
  wire : List FrontendMessage
  /-- The response slots whose last batch has come. -/
  completed : Nat

inductive Event where
  | send (message : FrontendMessage)
  | copyIn
  | clientDropped
  /-- A sink puts an item into its channel. -/
  | feed (number : Nat) (item : CopyInMessage)
  /-- A sink closes its channel, or is dropped. -/
  | closeSink (number : Nat)
  /-- One turn of `poll_read`. -/
  | pollRead (stream : StreamPoll) (sender : PollReady)
  /-- One turn of `poll_write`. -/
  | pollWrite (socket : SocketPoll)
  | pollFlush (socket : SocketPoll)
  | pollShutdown (socket : SocketPoll)

def System.start (delayed : List BackendMessage) (parameters : List (String × String)) :
    System where
  connection := .new delayed parameters
  phase := .reading
  channels := fun _ => { buffer := 1 }
  requests := []
  given := fun _ => []
  wire := []
  completed := 0

/-- `InnerClient::send`. -/
def System.send (system : System) (messages : RequestMessages) : System :=
  let request := ⟨messages, system.requests.length⟩
  { system with
    connection := { system.connection with receiver := system.connection.receiver ++ [request] }
    requests := system.requests ++ [request] }

/-- The turn takes the last batch of the request in front. -/
def completes (connection : Connection RequestMessages) (stream : StreamPoll)
    (turn : Turn RequestMessages) : Bool :=
  match (connection.pollResponse stream).1 with
  | .item (.normal _ requestComplete) => requestComplete && turn.result.isNone
  | _ => false

def System.read (system : System) (stream : StreamPoll) (sender : PollReady) : System :=
  if system.connection.state ≠ .active then { system with phase := .writing none }
  else
    let turn := system.connection.pollReadTurn stream sender
    { system with
      connection := turn.connection
      completed := system.completed + (completes system.connection stream turn).toNat
      phase := match turn.result with
        | none => .reading
        | some (.ok message) => .writing message
        | some (.error _) => .ended }

def System.write (system : System) (message : Option AsyncMessage) (socket : SocketPoll) : System :=
  let turn := system.connection.pollWriteTurn system.channels socket
  { system with
    connection := turn.connection
    channels := turn.channels
    wire := system.wire ++ turn.sent.toList
    phase := match turn.result with
      | none => .writing message
      | some (.ok true) => .flushing message
      | some (.ok false) => .shutdown message
      | some (.error _) => .ended }

/-- `poll_shutdown`, and what `poll_message` returns after it; the next poll
starts with reading. -/
def System.shutdown (system : System) (message : Option AsyncMessage) (socket : SocketPoll) :
    System :=
  match message with
  | some _ => { system with phase := .reading }
  | none =>
      if system.connection.state ≠ .closing then { system with phase := .reading }
      else
        match socket with
        | .pending => { system with phase := .reading }
        | .ready | .failed _ => { system with phase := .ended }

def step (system : System) : Event → Option System
  | .send message =>
      if system.connection.receiverClosed then none else some (system.send (.single message))
  | .copyIn =>
      if system.connection.receiverClosed then none
      else some (system.send (.copyIn { channel := system.requests.length }))
  | .clientDropped =>
      some { system with connection := { system.connection with receiverClosed := true } }
  | .feed number item =>
      if number < system.requests.length then
        match (system.channels number).startSend item with
        | .error _ => some system
        | .ok channel =>
            some { system with
              channels := system.channels.update number channel
              given := fun other =>
                if other = number then system.given number ++ [item] else system.given other }
      else none
  | .closeSink number =>
      if number < system.requests.length then
        some { system with
          channels := system.channels.update number (system.channels number).closeSender }
      else none
  | .pollRead stream sender =>
      match system.phase with
      | .reading => some (system.read stream sender)
      | _ => none
  | .pollWrite socket =>
      match system.phase with
      | .writing message => some (system.write message socket)
      | _ => none
  | .pollFlush socket =>
      match system.phase with
      | .flushing message =>
          some { system with phase := match socket with
            | .failed _ => .ended
            | _ => .shutdown message }
      | _ => none
  | .pollShutdown socket =>
      match system.phase with
      | .shutdown message => some (system.shutdown message socket)
      | _ => none

end WriteSide

end OpenGauss.Driver
