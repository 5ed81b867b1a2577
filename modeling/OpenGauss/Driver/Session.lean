import OpenGauss.Driver.StartupProperties
import OpenGauss.Driver.WriteSideProperties

/-! A connection in both directions (`tokio-opengauss`, `client.rs`, `connection.rs` and
`codec.rs`): the requests of its clients on their way to a server, and what the server answers
on its way back to them. -/

set_option autoImplicit false

namespace OpenGauss.Driver.Session

open Lib Protocol Protocol.Backend Connection

/-! ### The server -/

/-- Where the messages of request number `request` begin on the wire. -/
def position (write : WriteSide.System) (request : Nat) : Nat :=
  ((write.requests.take request).flatMap write.messages).length

/-- The first message of a request is on the wire. -/
def Begun (write : WriteSide.System) (request : Nat) : Prop :=
  request < write.requests.length ∧ position write request < write.wire.length

/-- All messages of a request are on the wire. -/
def Whole (write : WriteSide.System) (request : Nat) : Prop :=
  position write (request + 1) ≤ write.wire.length ∧
    ∀ found ∈ write.requests[request]?, write.Complete found

instance (write : WriteSide.System) (request : Nat) : Decidable (Begun write request) :=
  inferInstanceAs (Decidable (_ ∧ _))

instance (items : List CopyInMessage) (gone : Bool) : Decidable (WriteSide.Over items gone) :=
  inferInstanceAs (Decidable (_ ∨ _))

instance (write : WriteSide.System) (request : Request RequestMessages) :
    Decidable (write.Complete request) :=
  match same : request.messages with
  | .single _ => .isTrue (by rw [WriteSide.System.Complete, same]; trivial)
  | .copyIn stream =>
      decidable_of_iff (WriteSide.Over (write.given stream.channel)
          (write.channels stream.channel).senderGone) (by rw [WriteSide.System.Complete, same])

instance (write : WriteSide.System) (request : Nat) : Decidable (Whole write request) :=
  inferInstanceAs (Decidable (_ ∧ _))

variable {mode : AuthMode}

def isAsync (frame : Frame mode) : Bool := PostgresCodec.isAsyncTag frame.tag

def isReady (frame : Frame mode) : Bool := frame.tag == readyForQueryTag

/-- A server, which answers the requests in the order of the wire. -/
structure Server (mode : AuthMode) where
  /-- The requests that it has ended the answer to. -/
  answered : Nat := 0
  answers : Nat → List (Frame mode) := fun _ => []
  /-- Everything so far, with the messages that answer no request. -/
  sent : List (Frame mode) := []
  /-- The bytes on their way to the client. -/
  inFlight : Bytes := []

/-- An answer is a list of messages, of which the last is its only `ReadyForQuery`. It can begin
before the request is complete, and ends after that. -/
def Server.mayReply (server : Server mode) (write : WriteSide.System) (frame : Frame mode) : Prop :=
  isAsync frame = false ∧ Begun write server.answered ∧
    (isReady frame = true → Whole write server.answered)

instance (server : Server mode) (write : WriteSide.System) (frame : Frame mode) :
    Decidable (server.mayReply write frame) :=
  inferInstanceAs (Decidable (_ ∧ _ ∧ _))

def Server.reply (server : Server mode) (frame : Frame mode) : Server mode where
  answered := server.answered + (isReady frame).toNat
  answers request :=
    if request = server.answered then server.answers request ++ [frame]
    else server.answers request
  sent := server.sent ++ [frame]
  inFlight := server.inFlight ++ frame.bytes

/-- A notice, a notification or a parameter. -/
def Server.notify (server : Server mode) (frame : Frame mode) : Server mode :=
  { server with
    sent := server.sent ++ [frame]
    inFlight := server.inFlight ++ frame.bytes }

/-! ### The session -/

structure System (mode : AuthMode) where
  write : WriteSide.System
  /-- The receiving side of the socket. -/
  framed : Startup.Framed
  /-- The items that the connection has taken off the codec. -/
  taken : List BackendMessage
  /-- The response channels, by the numbers of the requests. -/
  responses : Nat → ReadSide.Channel
  server : Server mode
  /-- The error that reading has ended with. -/
  failure : Option Error

def System.start (mode : AuthMode) (delayed : List BackendMessage)
    (parameters : List (String × String)) : System mode where
  write := .start delayed parameters
  framed := { mode, chunks := [] }
  taken := []
  responses := fun _ => {}
  server := {}
  failure := none

/-- The session, as its reading side sees it. -/
def System.readSide (system : System mode) : ReadSide.System RequestMessages where
  connection := system.write.connection
  stream := []
  channels := system.responses
  requests := system.write.requests.length
  arrived := system.taken
  failed := system.failure

inductive Event (mode : AuthMode) where
  /-- A step of a client, or of the connection other than a turn of `poll_read`. -/
  | own (event : WriteSide.Event)
  | pollRead (idle : ReadSide.Idle) (sender : PollReady)
  /-- The receiving half of a response channel is dropped. -/
  | hangUp (request : Nat)
  | reply (frame : Frame mode)
  | notify (frame : Frame mode)
  /-- So many of the bytes on their way arrive. -/
  | arrive (count : Nat)

/-- What the stream answers to a turn of `poll_read`, which does not poll it when a response is
put off. -/
def System.pollStream (system : System mode) (idle : ReadSide.Idle) : StreamPoll × Startup.Framed :=
  if system.write.connection.pendingResponses = [] then
    match system.framed.pollNext with
    | (.pending, framed) => (ReadSide.pollStream [] idle, framed)
    | polled => polled
  else (.pending, system.framed)

def itemOf : StreamPoll → List BackendMessage
  | .item message => [message]
  | .failed _ | .ended | .pending => []

/-- A turn of `poll_read` on an active connection. -/
def System.read (system : System mode) (write : WriteSide.System) (idle : ReadSide.Idle)
    (sender : PollReady) : System mode :=
  let (stream, framed) := system.pollStream idle
  let turn := system.write.connection.pollReadTurn stream sender
  { system with
    write
    framed
    taken := system.taken ++ itemOf stream
    responses := ReadSide.deliver system.responses turn.sent
    failure := match turn.result with
      | some (.error error) => some error
      | _ => none }

def step (system : System mode) : Event mode → Option (System mode)
  | .own (.pollRead _ _) => none
  | .own event => do
      let write ← WriteSide.step system.write event
      return { system with write }
  | .pollRead idle sender => do
      if sender = .hungUp && ReadSide.frontAlive system.readSide then none
      else
        let write ← WriteSide.step system.write (.pollRead (system.pollStream idle).1 sender)
        return if system.write.connection.state = .active then system.read write idle sender
          else { system with write }
  | .hangUp request =>
      some { system with responses := fun other =>
        if other = request then { system.responses other with alive := false }
        else system.responses other }
  | .reply frame =>
      if system.server.mayReply system.write frame then
        some { system with server := system.server.reply frame }
      else none
  | .notify frame =>
      if isAsync frame then some { system with server := system.server.notify frame } else none
  | .arrive count =>
      some { system with
        framed := { system.framed with
          chunks := system.framed.chunks ++ [system.server.inFlight.take count] }
        server := { system.server with inFlight := system.server.inFlight.drop count } }

end OpenGauss.Driver.Session
