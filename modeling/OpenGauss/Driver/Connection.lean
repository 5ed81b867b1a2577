import OpenGauss.Driver.Codec
import OpenGauss.Driver.Error
import OpenGauss.Lib.Execution

/-! The connection task (`tokio-opengauss`, `connection.rs`): reading responses
and taking requests. What a socket, the codec or a channel answers when polled
is an input of the step that polls it. -/

set_option autoImplicit false

namespace OpenGauss.Driver

open Protocol Protocol.Backend

inductive AsyncMessage where
  | notice (error : DbError)
  | notification (processId : Int) (channel : String) (payload : String)
  deriving DecidableEq, Repr

namespace Connection

/-- A request, with the sending half of its response channel. -/
structure Request (Messages : Type) where
  messages : Messages
  sender : Nat

structure Response where
  sender : Nat
  deriving DecidableEq, Repr

inductive State where
  | active
  | terminating
  | closing
  deriving DecidableEq, Repr

/-- What the codec stream answers to `poll_next`. -/
inductive StreamPoll where
  | item (message : BackendMessage)
  | failed (error : IoError)
  | ended
  | pending

/-- What a request's channel answers to `poll_ready`. -/
inductive PollReady where
  | ready
  | pending
  | hungUp
  deriving DecidableEq, Repr

end Connection

open Connection

/-- The fields of `Connection` other than the stream. `receiverClosed` tells
that every client half of the request channel is gone. -/
structure Connection (Messages : Type) where
  parameters : List (String × String)
  receiver : List (Request Messages)
  receiverClosed : Bool
  pendingRequest : Option Messages
  pendingResponses : List BackendMessage
  responses : List Response
  state : State

namespace Connection

variable {Messages : Type}

/-- `Connection::new`, with the messages that `connect_raw` has put off. -/
def new (pendingResponses : List BackendMessage) (parameters : List (String × String)) :
    Connection Messages where
  parameters
  receiver := []
  receiverClosed := false
  pendingRequest := none
  pendingResponses
  responses := []
  state := .active

/-- `HashMap::insert`. -/
def insertParameter (parameters : List (String × String)) (name value : String) :
    List (String × String) :=
  (name, value) :: parameters.filter fun entry => entry.1 ≠ name

def pollResponse (connection : Connection Messages) (stream : StreamPoll) :
    StreamPoll × Connection Messages :=
  match connection.pendingResponses with
  | message :: pendingResponses => (.item message, { connection with pendingResponses })
  | [] => (stream, connection)

/-- The outcome of one turn of the loop in `poll_read`. -/
structure Turn (Messages : Type) where
  connection : Connection Messages
  /-- The batch given to `start_send`, with the sender it is given to. -/
  sent : Option (Nat × BackendMessages) := none
  /-- What `poll_read` returns, when this turn is its last. -/
  result : Option (Except Error (Option AsyncMessage)) := none

/-- An asynchronous message: returned to the caller, or kept as a parameter. -/
def pollReadAsync (connection : Connection Messages) (message : Message) : Turn Messages :=
  match message with
  | .noticeResponse storage =>
      match DbError.parse storage with
      | .error error => { connection, result := some (.error (.parse error)) }
      | .ok error => { connection, result := some (.ok (some (.notice error))) }
  | .notificationResponse body =>
      match getStr body.channel, getStr body.message with
      | .ok channel, .ok payload =>
          { connection, result := some (.ok (some (.notification body.processId channel payload))) }
      | .error error, _ | .ok _, .error error =>
          { connection, result := some (.error (.parse error)) }
  | .parameterStatus body =>
      match getStr body.name, getStr body.value with
      | .ok name, .ok value =>
          { connection :=
              { connection with parameters := insertParameter connection.parameters name value } }
      | .error error, _ | .ok _, .error error =>
          { connection, result := some (.error (.parse error)) }
  | _ => { connection, result := some (.error .unreachable) }

/-- A batch without a request: the error it carries, or a protocol error. -/
def unsolicited (messages : BackendMessages) : Error :=
  match messages.next with
  | (.error error, _) => .parse error
  | (.ok (some (.errorResponse storage)), _) => .ofBody storage
  | (.ok _, _) => .unexpectedMessage

/-- A batch: handed to the request in front, which stays in front until its
last batch, or put off when that request is not ready for it. -/
def pollReadNormal (connection : Connection Messages) (sender : PollReady)
    (messages : BackendMessages) (requestComplete : Bool) : Turn Messages :=
  match connection.responses with
  | [] => { connection, result := some (.error (unsolicited messages)) }
  | response :: responses =>
      match sender with
      | .ready =>
          { connection :=
              { connection with
                responses := if requestComplete then responses else response :: responses }
            sent := some (response.sender, messages) }
      | .hungUp =>
          { connection :=
              { connection with
                responses := if requestComplete then responses else response :: responses } }
      | .pending =>
          { connection :=
              { connection with
                responses := response :: responses
                pendingResponses :=
                  connection.pendingResponses ++ [.normal messages requestComplete] }
            result := some (.ok none) }

/-- One turn of the loop in `poll_read`. -/
def pollReadTurn (connection : Connection Messages) (stream : StreamPoll) (sender : PollReady) :
    Turn Messages :=
  match connection.pollResponse stream with
  | (.item (.async message), connection) => connection.pollReadAsync message
  | (.item (.normal messages requestComplete), connection) =>
      connection.pollReadNormal sender messages requestComplete
  | (.failed error, connection) => { connection, result := some (.error (.io error)) }
  | (.ended, connection) => { connection, result := some (.error .closed) }
  | (.pending, connection) => { connection, result := some (.ok none) }

/-- `poll_request`: the messages to write next (`none` at the end of all
requests), unless there is none yet. -/
def pollRequest (connection : Connection Messages) :
    Option (Option Messages) × Connection Messages :=
  match connection.pendingRequest with
  | some messages => (some (some messages), { connection with pendingRequest := none })
  | none =>
      match connection.receiver with
      | request :: receiver =>
          (some (some request.messages),
            { connection with
              receiver
              responses := connection.responses ++ [⟨request.sender⟩] })
      | [] => (if connection.receiverClosed then some none else none, connection)

end Connection

/-! ### The connection among its clients and its server -/

namespace ReadSide

open Connection

/-- A response channel, by what its receiving half has been handed. -/
structure Channel where
  alive : Bool := true
  received : List BackendMessages := []

structure System (Messages : Type) where
  connection : Connection Messages
  /-- Items the codec has produced and the connection has not taken yet. -/
  stream : List BackendMessage
  /-- Response channels by number; request number `k` uses channel `k`. -/
  channels : Nat → Channel
  requests : Nat
  /-- Every item the codec has produced so far. -/
  arrived : List BackendMessage
  /-- The error `poll_message` has ended with. -/
  failed : Option Error

/-- What the stream answers when it has no item. -/
inductive Idle where
  | pending
  | ended
  | failed (error : IoError)

inductive Event (Messages : Type) where
  /-- `InnerClient::send`: a new channel, and the request in the queue. -/
  | send (messages : Messages)
  | clientDropped
  | pollRequest
  /-- `poll_write` stores a request it has not finished. -/
  | holdRequest (messages : Messages)
  /-- `poll_write` at the end of all requests. -/
  | terminate
  | arrive (message : BackendMessage)
  /-- One turn of `poll_read`. -/
  | pollRead (idle : Idle) (sender : PollReady)
  /-- The receiving half of a channel is dropped. -/
  | hangUp (channel : Nat)

variable {Messages : Type}

def System.start (delayed : List BackendMessage) (parameters : List (String × String)) :
    System Messages where
  connection := .new delayed parameters
  stream := []
  channels := fun _ => {}
  requests := 0
  arrived := []
  failed := none

def pollStream (stream : List BackendMessage) (idle : Idle) : StreamPoll :=
  match stream with
  | message :: _ => .item message
  | [] =>
      match idle with
      | .pending => .pending
      | .ended => .ended
      | .failed error => .failed error

/-- `start_send`: a batch for a receiver that is gone is dropped. -/
def deliver (channels : Nat → Channel) (sent : Option (Nat × BackendMessages)) : Nat → Channel :=
  match sent with
  | none => channels
  | some (sender, messages) => fun channel =>
      if channel = sender ∧ (channels channel).alive then
        { channels channel with received := (channels channel).received ++ [messages] }
      else channels channel

/-- The receiver of the request in front, which the turn polls, has not been dropped. -/
def frontAlive (system : System Messages) : Bool :=
  match system.connection.responses with
  | [] => true
  | response :: _ => (system.channels response.sender).alive

/-- The system after a turn, with what the turn leaves of the stream. -/
def settle (system : System Messages) (stream : List BackendMessage) (turn : Turn Messages) :
    System Messages :=
  { system with
    connection := turn.connection
    stream
    channels := deliver system.channels turn.sent
    failed := match turn.result with
      | some (.error error) => some error
      | _ => none }

/-- The stream is polled only when no response is pending. -/
def readTurn (system : System Messages) (idle : Idle) (sender : PollReady) : System Messages :=
  settle system
    (if system.connection.pendingResponses = [] then system.stream.drop 1 else system.stream)
    (system.connection.pollReadTurn (pollStream system.stream idle) sender)

/-- A channel answers `hungUp` only when its receiver is gone. After an error
the connection is not polled again. -/
def step (system : System Messages) : Event Messages → Option (System Messages)
  | .send messages =>
      if system.failed.isSome || system.connection.receiverClosed then none
      else
        some { system with
          connection := { system.connection with
            receiver := system.connection.receiver ++ [⟨messages, system.requests⟩] }
          requests := system.requests + 1 }
  | .clientDropped =>
      some { system with connection := { system.connection with receiverClosed := true } }
  | .pollRequest =>
      if system.failed.isSome then none
      else some { system with connection := system.connection.pollRequest.2 }
  | .holdRequest messages =>
      if system.failed.isSome || system.connection.pendingRequest.isSome then none
      else
        some { system with
          connection := { system.connection with pendingRequest := some messages } }
  | .terminate =>
      match system.connection.pollRequest.1 with
      | some none =>
          if system.failed.isNone && system.connection.responses.isEmpty then
            some { system with connection := { system.connection with state := .terminating } }
          else none
      | _ => none
  | .arrive message =>
      some { system with
        stream := system.stream ++ [message]
        arrived := system.arrived ++ [message] }
  | .pollRead idle sender =>
      if system.failed.isSome || system.connection.state ≠ .active then none
      else if sender = .hungUp && frontAlive system then none
      else some (readTurn system idle sender)
  | .hangUp channel =>
      some { system with channels := fun other =>
        if other = channel then { system.channels other with alive := false }
        else system.channels other }

end ReadSide

end OpenGauss.Driver
