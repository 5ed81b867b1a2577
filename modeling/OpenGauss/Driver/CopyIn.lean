import OpenGauss.Driver.Connection

/-! `COPY ... FROM STDIN` (`tokio-opengauss`, `copy_in.rs`) among the requests
of a connection, and a server that answers them. -/

set_option autoImplicit false

namespace OpenGauss.Driver.CopyIn

open Connection

/-- Frontend messages, by what the server does with them. -/
inductive FrontendMessage where
  | parse
  | bind
  | describe
  | execute
  | close
  | flush
  | sync
  | query
  | copyData
  | copyDone
  | copyFail
  deriving DecidableEq, Repr

inductive CopyInMessage where
  | message (messages : List FrontendMessage)
  | done
  deriving DecidableEq, Repr

inductive SinkState where
  | active
  | closing
  | dropped
  deriving DecidableEq, Repr

/-- The channel between a sink and its receiver. -/
structure Channel where
  items : List CopyInMessage := []
  sink : SinkState := .active
  deriving DecidableEq, Repr

/-- `CopyInReceiver`; the channel goes by the number of its request. -/
structure CopyInReceiver where
  request : Nat
  done : Bool
  deriving DecidableEq, Repr

/-- What polling a stream answers, and what it leaves. -/
inductive Polled where
  | ready (messages : Option (List FrontendMessage)) (items : List CopyInMessage) (done : Bool)
  | pending
  deriving DecidableEq, Repr

/-- `CopyInReceiver::poll_next`. -/
def pollNext (channel : Channel) (done : Bool) : Polled :=
  if done then .ready none channel.items true
  else
    match channel.items with
    | .message messages :: items => .ready (some messages) items false
    | .done :: items => .ready (some [.copyDone, .sync]) items true
    | [] =>
        if channel.sink = .dropped then .ready (some [.copyFail, .sync]) [] true
        else .pending

/-- A request other than a copy: a simple query, or messages of the extended
protocol that a `Sync` ends. -/
inductive Single where
  | query
  | extended (messages : List FrontendMessage)
  deriving DecidableEq, Repr

def isExtended : FrontendMessage → Bool
  | .parse | .bind | .describe | .execute | .close | .flush => true
  | _ => false

def Single.messages : Single → List FrontendMessage
  | .query => [.query]
  | .extended messages => messages.filter isExtended ++ [.sync]

inductive RequestMessages where
  | single (request : Nat) (single : Single)
  | copyIn (receiver : CopyInReceiver)
  deriving DecidableEq, Repr

/-- What `copy_in` sends before the data: `query::encode`. -/
def copyInPrefix : List FrontendMessage := [.bind, .execute, .sync]

/-! ### The server -/

inductive Mode where
  | normal
  /-- After an error, up to the next `Sync`. -/
  | skipping
  | copyIn
  deriving DecidableEq, Repr

inductive Outcome where
  | succeeds
  | fails
  | entersCopyIn
  deriving DecidableEq, Repr

/-- The server takes a message: the mode after it, and whether it answers with
`ReadyForQuery`. A message that does not belong into a copy is an error of it. -/
def Mode.serve (mode : Mode) (message : FrontendMessage) (outcome : Outcome) : Mode × Bool :=
  match mode, message with
  | .normal, .sync | .normal, .query => (.normal, true)
  | .normal, .execute =>
      match outcome with
      | .succeeds => (.normal, false)
      | .fails => (.skipping, false)
      | .entersCopyIn => (.copyIn, false)
  | .normal, .parse | .normal, .bind | .normal, .describe | .normal, .close =>
      (if outcome = .fails then .skipping else .normal, false)
  | .normal, .flush | .normal, .copyData | .normal, .copyDone | .normal, .copyFail =>
      (.normal, false)
  | .skipping, .sync => (.normal, true)
  | .skipping, _ => (.skipping, false)
  | .copyIn, .sync | .copyIn, .flush => (.copyIn, false)
  | .copyIn, .copyData => (if outcome = .fails then .skipping else .copyIn, false)
  | .copyIn, .copyDone => (if outcome = .fails then .skipping else .normal, false)
  | .copyIn, _ => (.skipping, false)

/-! ### A client, its connection and the server -/

/-- A message on its way, and the request it is sent for. -/
structure Sent where
  request : Nat
  copy : Bool
  message : FrontendMessage
  deriving DecidableEq, Repr

structure System where
  connection : Connection RequestMessages := .new [] []
  channels : Nat → Channel := fun _ => {}
  requests : Nat := 0
  wire : List Sent := []
  mode : Mode := .normal
  /-- For every `ReadyForQuery` the server has sent, the request that has caused it. -/
  ready : List Nat := []
  /-- For every `ReadyForQuery` the connection has read, the request whose sender
  it has given the batch to, and the request that has caused it. -/
  matched : List (Option Nat × Nat) := []

inductive Event where
  | request (single : Single)
  /-- `copy_in`: the request, and the first message in its channel. -/
  | copyIn
  /-- The sink passes data on. -/
  | data (request : Nat)
  /-- `finish`, and closing the sink. -/
  | finish (request : Nat)
  /-- The sink is dropped, or the future of `copy_in` that would make it. -/
  | drop (request : Nat)
  /-- One turn of the loop in `poll_write`. -/
  | write
  /-- The server processes the next message. -/
  | serve (outcome : Outcome)
  /-- `poll_read` takes the last batch of a request. -/
  | read
  deriving DecidableEq, Repr

/-- `InnerClient::send`. -/
def System.send (system : System) (messages : RequestMessages) : System :=
  { system with
    connection := { system.connection with
      receiver := system.connection.receiver ++ [⟨messages, system.requests⟩] }
    requests := system.requests + 1 }

def updateChannel (channels : Nat → Channel) (request : Nat) (channel : Channel) :
    Nat → Channel :=
  fun other => if other = request then channel else channels other

def System.setChannel (system : System) (request : Nat) (channel : Channel) : System :=
  { system with channels := updateChannel system.channels request channel }

def sent (request : Nat) (copy : Bool) (messages : List FrontendMessage) : List Sent :=
  messages.map fun message => ⟨request, copy, message⟩

/-- The rest of a turn of `poll_write`, with the request it has got. A copy that
is not over is stored as the pending request. -/
def System.writeMessages (system : System) : RequestMessages → System
  | .single request single =>
      { system with wire := system.wire ++ sent request false single.messages }
  | .copyIn receiver =>
      let channel := system.channels receiver.request
      match pollNext channel receiver.done with
      | .ready (some messages) items done =>
          { system with
            channels := updateChannel system.channels receiver.request { channel with items }
            wire := system.wire ++ sent receiver.request true messages
            connection := { system.connection with
              pendingRequest := some (.copyIn { receiver with done }) } }
      | .ready none _ _ => system
      | .pending =>
          { system with connection := { system.connection with
              pendingRequest := some (.copyIn receiver) } }

/-- A turn with no request to write leaves the wire alone. -/
def System.write (system : System) : System :=
  match system.connection.pollRequest with
  | (some (some messages), connection) => { system with connection }.writeMessages messages
  | (some none, connection) | (none, connection) => { system with connection }

def System.serve (system : System) (outcome : Outcome) : Option System :=
  match system.wire with
  | [] => none
  | front :: wire =>
      let (mode, ready) := system.mode.serve front.message outcome
      some { system with
        wire
        mode
        ready := if ready then system.ready ++ [front.request] else system.ready }

/-- The batch that a `ReadyForQuery` ends, by that message alone. -/
def readyForQuery : BackendMessages := ⟨[0x5a, 0, 0, 0, 5, 0x49], .standard⟩

def System.read (system : System) : Option System :=
  match system.ready[system.matched.length]? with
  | none => none
  | some request =>
      let turn := system.connection.pollReadNormal .ready readyForQuery true
      some { system with
        connection := turn.connection
        matched := system.matched ++ [(turn.sent.map Prod.fst, request)] }

def step (system : System) : Event → Option System
  | .request single => some (system.send (.single system.requests single))
  | .copyIn =>
      some ((system.send (.copyIn ⟨system.requests, false⟩)).setChannel system.requests
        { items := [.message copyInPrefix] })
  | .data request =>
      let channel := system.channels request
      if channel.sink = .active then
        some (system.setChannel request
          { channel with items := channel.items ++ [.message [.copyData]] })
      else none
  | .finish request =>
      let channel := system.channels request
      if channel.sink = .active then
        some (system.setChannel request { items := channel.items ++ [.done], sink := .closing })
      else none
  | .drop request =>
      some (system.setChannel request { system.channels request with sink := .dropped })
  | .write => some system.write
  | .serve outcome => system.serve outcome
  | .read => system.read

end OpenGauss.Driver.CopyIn
