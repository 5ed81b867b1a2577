import OpenGauss.Driver.ConnectionProperties
import OpenGauss.Driver.WriteSide

/-! Whatever waits and in whatever order the parties move, the connection hands
the requests to the socket one after the other, whole and in the order of the
queue, and `Terminate` behind all of them. -/

set_option autoImplicit false

namespace OpenGauss.Driver.WriteSide

open Lib Connection Protocol Protocol.Backend

/-! ### The messages of a request -/

/-- What the stream of a copy gives, by what its sink has put into the channel. -/
def streamed : List CopyInMessage → Bool → List FrontendMessage
  | .message message :: items, gone => message :: streamed items gone
  | .done :: _, _ => [copyDoneMessage]
  | [], gone => if gone then [copyFailMessage] else []

/-- The stream has its terminator. -/
def Over (items : List CopyInMessage) (gone : Bool) : Prop := .done ∈ items ∨ gone = true

theorem streamed_messages (taken : List FrontendMessage) (items : List CopyInMessage)
    (gone : Bool) :
    streamed (taken.map .message ++ items) gone = taken ++ streamed items gone := by
  induction taken with
  | nil => rfl
  | cons message taken ih =>
      rw [List.map_cons, List.cons_append, streamed, ih, List.cons_append]

/-- What comes behind `Done` does not matter. -/
theorem streamed_done {items : List CopyInMessage} (ended : .done ∈ items)
    (more : List CopyInMessage) (gone other : Bool) :
    streamed (items ++ more) gone = streamed items other := by
  induction items with
  | nil => exact absurd ended List.not_mem_nil
  | cons item items ih =>
      cases item with
      | done => rfl
      | message message =>
          rw [List.cons_append, streamed, streamed]
          rw [ih (List.mem_of_ne_of_mem (fun impossible => (by cases impossible)) ended)]

def System.messages (system : System) (request : Request RequestMessages) : List FrontendMessage :=
  match request.messages with
  | .single message => [message]
  | .copyIn stream =>
      streamed (system.given stream.channel) (system.channels stream.channel).senderGone

/-- No message of the request is outstanding. -/
def System.Complete (system : System) (request : Request RequestMessages) : Prop :=
  match request.messages with
  | .single _ => True
  | .copyIn stream =>
      Over (system.given stream.channel) (system.channels stream.channel).senderGone

/-- The request that has been begun and not ended. -/
def current (connection : Connection RequestMessages) : List (Request RequestMessages) :=
  match connection.pendingRequest with
  | some (.copyIn stream) => [⟨.copyIn { channel := stream.channel }, stream.channel⟩]
  | _ => []

/-- `Terminate`, once it has been sent. -/
def System.closing (system : System) : List FrontendMessage :=
  if system.connection.state = .closing then [terminateMessage] else []

/-- A copy under way: `part` has been written. -/
def Taken (channel : Channel CopyInMessage) (given : List CopyInMessage) (done : Bool)
    (part : List FrontendMessage) : Prop :=
  if done then part = streamed given channel.senderGone ∧ Over given channel.senderGone
  else given = part.map .message ++ channel.queue

def Held (system : System) (part : List FrontendMessage) : Prop :=
  match system.connection.pendingRequest with
  | none => part = []
  | some (.single _) => False
  | some (.copyIn stream) =>
      Taken (system.channels stream.channel) (system.given stream.channel) stream.done part

/-- The requests before the current one have been written, and `part` of it. -/
structure Written (system : System) (finished : List (Request RequestMessages))
    (part : List FrontendMessage) : Prop where
  requests : system.requests =
    finished ++ current system.connection ++ system.connection.receiver
  senders : system.requests.map Request.sender = List.range system.requests.length
  copies : ∀ request ∈ system.requests, ∀ stream, request.messages = .copyIn stream →
    stream = { channel := request.sender }
  fresh : ∀ number, system.requests.length ≤ number →
    (system.channels number).queue = [] ∧ system.given number = []
  waiting : ∀ request ∈ system.connection.receiver,
    (system.channels request.sender).queue = system.given request.sender
  complete : ∀ request ∈ finished, system.Complete request
  held : Held system part
  wire : system.wire = finished.flatMap system.messages ++ part ++ system.closing
  slots : system.completed + system.connection.responses.length +
    system.connection.receiver.length = system.requests.length
  closed : system.connection.state = .closing →
    system.connection.receiverClosed = true ∧ system.connection.pendingRequest = none ∧
      system.connection.receiver = [] ∧ system.connection.responses = []
  settled : system.connection.state ≠ .terminating

def Invariant (system : System) : Prop := ∃ finished part, Written system finished part

theorem start_invariant (delayed : List BackendMessage) (parameters : List (String × String)) :
    Invariant (.start delayed parameters) :=
  ⟨[], [], {
    requests := rfl
    senders := rfl
    copies := fun _ member => absurd member List.not_mem_nil
    fresh := fun _ _ => ⟨rfl, rfl⟩
    waiting := fun _ member => absurd member List.not_mem_nil
    complete := fun _ member => absurd member List.not_mem_nil
    held := rfl
    wire := rfl
    slots := rfl
    closed := fun impossible => (by cases impossible)
    settled := fun impossible => (by cases impossible) }⟩

/-- A copy that goes on has written the first part of its messages. -/
theorem Taken.prefix {channel : Channel CopyInMessage} {given : List CopyInMessage} {done : Bool}
    {part : List FrontendMessage} (taken : Taken channel given done part) :
    part <+: streamed given channel.senderGone := by
  cases done with
  | true => exact taken.1 ▸ List.prefix_refl _
  | false =>
      have split : given = part.map .message ++ channel.queue := taken
      rw [split, streamed_messages]
      exact List.prefix_append ..

/-! ### Sinks -/

/-- A sink has put items into its channel, or closed it. -/
structure Grows (given : List CopyInMessage) (channel : Channel CopyInMessage)
    (later : List CopyInMessage) (after : Channel CopyInMessage) : Prop where
  more : ∃ items, later = given ++ items ∧ after.queue = channel.queue ++ items ∧
    (channel.senderGone = true → items = [])
  gone : channel.senderGone = true → after.senderGone = true

section

variable {given later : List CopyInMessage} {channel after : Channel CopyInMessage}

theorem Grows.ended (grows : Grows given channel later after)
    (ended : Over given channel.senderGone) :
    Over later after.senderGone ∧
      streamed later after.senderGone = streamed given channel.senderGone := by
  obtain ⟨items, rfl, _, closed⟩ := grows.more
  rcases ended with done | gone
  · exact ⟨.inl (List.mem_append_left _ done), streamed_done done ..⟩
  · rw [closed gone, List.append_nil, gone, grows.gone gone]
    exact ⟨.inr rfl, rfl⟩

theorem Grows.taken (grows : Grows given channel later after) {done : Bool}
    {part : List FrontendMessage} (taken : Taken channel given done part) :
    Taken after later done part := by
  cases done with
  | true =>
      obtain ⟨whole, ended⟩ := taken
      obtain ⟨stillOver, same⟩ := grows.ended ended
      exact ⟨whole.trans same.symm, stillOver⟩
  | false =>
      obtain ⟨items, rfl, queued, _⟩ := grows.more
      have split : given = part.map .message ++ channel.queue := taken
      change given ++ items = part.map .message ++ after.queue
      rw [queued, split, List.append_assoc]

theorem grows_startSend {item : CopyInMessage} (sent : channel.startSend item = .ok after) :
    Grows given channel (given ++ [item]) after := by
  obtain ⟨opened, _, rfl⟩ := Channel.startSend_ok sent
  exact ⟨⟨[item], rfl, rfl, fun gone => absurd (opened.symm.trans gone) Bool.false_ne_true⟩,
    fun gone => gone⟩

theorem grows_closeSender : Grows given channel given channel.closeSender :=
  ⟨⟨[], (List.append_nil _).symm, (List.append_nil _).symm, fun _ => rfl⟩, fun _ => rfl⟩

theorem grows_refl : Grows given channel given channel :=
  ⟨⟨[], (List.append_nil _).symm, (List.append_nil _).symm, fun _ => rfl⟩, fun gone => gone⟩

end

theorem update_self (channels : Channels) (number : Nat) (channel : Channel CopyInMessage) :
    channels.update number channel number = channel := if_pos rfl

theorem update_other {channels : Channels} {number other : Nat} (apart : other ≠ number)
    (channel : Channel CopyInMessage) : channels.update number channel other = channels other :=
  if_neg apart

section

variable {system : System} {finished : List (Request RequestMessages)}
  {part : List FrontendMessage}

theorem Written.grow (written : Written system finished part) {channels : Channels}
    {given : Nat → List CopyInMessage}
    (grows : ∀ number, Grows (system.given number) (system.channels number) (given number)
      (channels number))
    (fresh : ∀ number, system.requests.length ≤ number →
      (channels number).queue = [] ∧ given number = []) :
    Written { system with channels, given } finished part := by
  have keeps : ∀ request ∈ finished,
      { system with channels, given }.Complete request ∧
        { system with channels, given }.messages request = system.messages request := by
    intro request member
    have complete := written.complete request member
    obtain ⟨messages, sender⟩ := request
    cases messages with
    | single message => exact ⟨trivial, rfl⟩
    | copyIn stream => exact (grows stream.channel).ended complete
  exact {
    requests := written.requests
    senders := written.senders
    copies := written.copies
    fresh
    waiting := fun request member => by
      obtain ⟨items, later, queued, _⟩ := (grows request.sender).more
      have waits := written.waiting request member
      dsimp only
      rw [later, queued, waits]
    complete := fun request member => (keeps request member).1
    held := by
      have held := written.held
      unfold Held at held ⊢
      dsimp only at held ⊢
      split
      · next none =>
          rw [none] at held
          exact held
      · next single =>
          rw [single] at held
          exact held
      · next stream copy =>
          rw [copy] at held
          exact (grows stream.channel).taken held
    wire := by
      have same := List.flatMap_congr fun request member => (keeps request member).2
      exact written.wire.trans (by rw [same]; rfl)
    slots := written.slots
    closed := written.closed
    settled := written.settled }

theorem Written.phase (written : Written system finished part) (phase : Phase) :
    Written { system with phase } finished part := { written with }

/-! ### Reading -/

/-- A turn of `poll_read` leaves the writing side alone. -/
structure Reads (connection after : Connection RequestMessages) (completed : Bool) : Prop where
  receiver : after.receiver = connection.receiver
  receiverClosed : after.receiverClosed = connection.receiverClosed
  pendingRequest : after.pendingRequest = connection.pendingRequest
  state : after.state = connection.state
  responses : connection.responses.length = completed.toNat + after.responses.length

theorem pollReadNormal_reads (connection : Connection RequestMessages) (sender : PollReady)
    (messages : BackendMessages) (requestComplete : Bool) :
    Reads connection (connection.pollReadNormal sender messages requestComplete).connection
      (requestComplete &&
        (connection.pollReadNormal sender messages requestComplete).result.isNone) := by
  obtain ⟨parameters, receiver, receiverClosed, pendingRequest, pendingResponses, responses,
    state⟩ := connection
  cases responses with
  | nil => cases requestComplete <;> exact ⟨rfl, rfl, rfl, rfl, rfl⟩
  | cons response responses =>
      cases requestComplete <;> cases sender <;>
        exact ⟨rfl, rfl, rfl, rfl, by simp [pollReadNormal, Nat.add_comm]⟩

theorem pollReadAsync_reads (connection : Connection RequestMessages) (message : Message) :
    Reads connection (connection.pollReadAsync message).connection false := by
  obtain ⟨_, parameters, kept⟩ := ReadSide.pollReadAsync_keeps connection message
  rw [kept]
  exact ⟨rfl, rfl, rfl, rfl, (Nat.zero_add _).symm⟩

theorem Reads.trans {connection between after : Connection RequestMessages} {completed : Bool}
    (first : Reads connection between false) (second : Reads between after completed) :
    Reads connection after completed where
  receiver := second.receiver.trans first.receiver
  receiverClosed := second.receiverClosed.trans first.receiverClosed
  pendingRequest := second.pendingRequest.trans first.pendingRequest
  state := second.state.trans first.state
  responses := (first.responses.trans (Nat.zero_add _)).trans second.responses

theorem pollResponse_reads (connection : Connection RequestMessages) (stream : StreamPoll) :
    Reads connection (connection.pollResponse stream).2 false := by
  unfold pollResponse
  cases connection.pendingResponses with
  | nil => exact ⟨rfl, rfl, rfl, rfl, (Nat.zero_add _).symm⟩
  | cons message messages => exact ⟨rfl, rfl, rfl, rfl, (Nat.zero_add _).symm⟩

theorem pollReadTurn_reads (connection : Connection RequestMessages) (stream : StreamPoll)
    (sender : PollReady) :
    Reads connection (connection.pollReadTurn stream sender).connection
      (completes connection stream (connection.pollReadTurn stream sender)) := by
  have taken := pollResponse_reads connection stream
  unfold completes pollReadTurn
  generalize connection.pollResponse stream = polled at taken
  obtain ⟨answer, between⟩ := polled
  cases answer with
  | item item =>
      cases item with
      | async message => exact taken.trans (pollReadAsync_reads between message)
      | normal messages requestComplete =>
          exact taken.trans (pollReadNormal_reads between sender messages requestComplete)
  | failed error => exact taken
  | ended => exact taken
  | pending => exact taken

theorem Written.read (written : Written system finished part) (stream : StreamPoll)
    (sender : PollReady) : Written (system.read stream sender) finished part := by
  unfold System.read
  split
  · exact written.phase _
  · next active =>
      have reads := pollReadTurn_reads system.connection stream sender
      exact {
        requests := by
          have same : current (system.connection.pollReadTurn stream sender).connection =
              current system.connection := by
            unfold current
            rw [reads.pendingRequest]
          dsimp only
          rw [same, reads.receiver]
          exact written.requests
        senders := written.senders
        copies := written.copies
        fresh := written.fresh
        waiting := fun request member => by
          dsimp only at member
          rw [reads.receiver] at member
          exact written.waiting request member
        complete := written.complete
        held := by
          have held := written.held
          unfold Held at held ⊢
          dsimp only
          rw [reads.pendingRequest]
          exact held
        wire := by
          have same := written.wire
          unfold System.closing at same ⊢
          dsimp only
          rw [reads.state]
          exact same
        slots := by
          have slots := written.slots
          dsimp only
          rw [reads.receiver, Nat.add_assoc system.completed, ← reads.responses]
          exact slots
        closed := fun closing => by
          dsimp only at closing
          rw [reads.state] at closing
          exact absurd closing (fun closing => active (by rw [closing]; decide))
        settled := by
          dsimp only
          rw [reads.state]
          exact written.settled }

/-! ### Writing -/

theorem Written.numbered (written : Written system finished part)
    {request : Request RequestMessages} (member : request ∈ system.requests) :
    request.sender < system.requests.length := by
  apply List.mem_range.mp
  rw [← written.senders]
  exact List.mem_map_of_mem member

/-- The request that is being written is none of those that wait. -/
theorem Written.apart (written : Written system finished part) {stream : CopyInStream}
    (pending : system.connection.pendingRequest = some (.copyIn stream))
    {request : Request RequestMessages} (waits : request ∈ system.connection.receiver) :
    request.sender ≠ stream.channel := by
  have distinct : (system.requests.map Request.sender).Nodup := written.senders ▸ List.nodup_range
  have begun : current system.connection = [⟨.copyIn { channel := stream.channel }, stream.channel⟩] := by
    rw [current, pending]
  rw [written.requests, begun, List.map_append] at distinct
  intro same
  have apart := (List.nodup_append.mp distinct).2.2 stream.channel
    (List.mem_map.mpr ⟨_, List.mem_append_right _ List.mem_cons_self, rfl⟩)
    request.sender (List.mem_map_of_mem waits)
  exact apart same.symm

/-- What is known of the current copy does not depend on the queue of its channel. -/
theorem messages_update (number : Nat) {channel : Channel CopyInMessage}
    (same : channel.senderGone = (system.channels number).senderGone)
    (request : Request RequestMessages) :
    { system with channels := system.channels.update number channel }.messages request =
        system.messages request ∧
      ({ system with channels := system.channels.update number channel }.Complete request ↔
        system.Complete request) := by
  obtain ⟨messages, sender⟩ := request
  cases messages with
  | single message => exact ⟨rfl, Iff.rfl⟩
  | copyIn stream =>
      unfold System.messages System.Complete
      dsimp only
      by_cases own : stream.channel = number
      · rw [own, update_self, same]
        exact ⟨rfl, Iff.rfl⟩
      · rw [update_other own]
        exact ⟨rfl, Iff.rfl⟩

/-- The channel of the current copy after the connection has polled it. -/
theorem Written.polled (written : Written system finished part) {stream : CopyInStream}
    (pending : system.connection.pendingRequest = some (.copyIn stream))
    (channel : Channel CopyInMessage) :
    (∀ number, system.requests.length ≤ number →
        (system.channels.update stream.channel channel number).queue = [] ∧
          system.given number = []) ∧
      ∀ request ∈ system.connection.receiver,
        (system.channels.update stream.channel channel request.sender).queue =
          system.given request.sender := by
  have begun : current system.connection = [⟨.copyIn { channel := stream.channel }, stream.channel⟩] := by
    rw [current, pending]
  have own : stream.channel < system.requests.length := by
    have member : ⟨.copyIn { channel := stream.channel }, stream.channel⟩ ∈ system.requests := by
      rw [written.requests, begun]
      exact List.mem_append_left _ (List.mem_append_right _ List.mem_cons_self)
    exact written.numbered member
  constructor
  · intro number beyond
    rw [update_other (Nat.ne_of_gt (Nat.lt_of_lt_of_le own beyond))]
    exact written.fresh number beyond
  · intro request waits
    rw [update_other (written.apart pending waits)]
    exact written.waiting request waits

/-- The current copy goes on: `more` is written, and the stream is held back. -/
theorem Written.continues (written : Written system finished part) {stream : CopyInStream}
    (pending : system.connection.pendingRequest = some (.copyIn stream))
    {channel : Channel CopyInMessage} {done : Bool} {more : List FrontendMessage}
    (same : channel.senderGone = (system.channels stream.channel).senderGone)
    (taken : Taken channel (system.given stream.channel) done (part ++ more)) :
    Written { system with
      connection := { system.connection with
        pendingRequest := some (.copyIn { stream with done }) }
      channels := system.channels.update stream.channel channel
      wire := system.wire ++ more } finished (part ++ more) := by
  obtain ⟨fresh, waiting⟩ := written.polled pending channel
  have goes : system.connection.state ≠ .closing := by
    intro closing
    have none := (written.closed closing).2.1
    rw [pending] at none
    cases none
  exact {
    requests := by
      have requests := written.requests
      unfold current at requests ⊢
      rw [pending] at requests
      exact requests
    senders := written.senders
    copies := written.copies
    fresh
    waiting
    complete := fun request member =>
      (messages_update _ same request).2.mpr (written.complete request member)
    held := by
      unfold Held
      dsimp only
      rw [update_self]
      exact taken
    wire := by
      have keeps : System.messages { system with
          connection := { system.connection with
            pendingRequest := some (.copyIn { stream with done }) }
          channels := system.channels.update stream.channel channel
          wire := system.wire ++ more } = system.messages := by
        funext request
        exact (messages_update _ same request).1
      have wire := written.wire
      unfold System.closing at wire ⊢
      dsimp only
      rw [if_neg goes, List.append_nil] at wire ⊢
      rw [keeps, wire, List.append_assoc]
    slots := written.slots
    closed := fun closing => absurd closing goes
    settled := written.settled }

/-- The current copy is over. -/
theorem Written.ends (written : Written system finished part) {stream : CopyInStream}
    (pending : system.connection.pendingRequest = some (.copyIn stream))
    (channel : Channel CopyInMessage)
    (same : channel.senderGone = (system.channels stream.channel).senderGone)
    (whole : part = streamed (system.given stream.channel) channel.senderGone)
    (ended : Over (system.given stream.channel) channel.senderGone) :
    Written { system with
      connection := { system.connection with pendingRequest := none }
      channels := system.channels.update stream.channel channel
      wire := system.wire ++ [] }
      (finished ++ current system.connection) [] := by
  obtain ⟨fresh, waiting⟩ := written.polled pending channel
  have begun : current system.connection = [⟨.copyIn { channel := stream.channel }, stream.channel⟩] := by
    rw [current, pending]
  have goes : system.connection.state ≠ .closing := by
    intro closing
    have none := (written.closed closing).2.1
    rw [pending] at none
    cases none
  rw [same] at whole ended
  exact {
    requests := by
      dsimp only [current]
      rw [List.append_nil]
      exact written.requests
    senders := written.senders
    copies := written.copies
    fresh
    waiting
    complete := fun request member => by
      apply (messages_update _ same request).2.mpr
      rcases List.mem_append.mp member with before | own
      · exact written.complete request before
      · rw [begun] at own
        rw [List.mem_singleton.mp own]
        exact ended
    held := rfl
    wire := by
      have keeps : System.messages { system with
          connection := { system.connection with pendingRequest := none }
          channels := system.channels.update stream.channel channel
          wire := system.wire ++ [] } = system.messages := by
        funext request
        exact (messages_update _ same request).1
      have wire := written.wire
      unfold System.closing at wire ⊢
      dsimp only
      rw [if_neg goes, List.append_nil] at wire
      rw [keeps, if_neg goes, wire, List.flatMap_append, begun, List.flatMap_singleton, whole]
      simp only [List.append_nil]
      rfl
    slots := written.slots
    closed := fun closing => absurd closing goes
    settled := written.settled }

/-- The system after a turn of `poll_write`. -/
def System.turned (system : System) (turn : WriteTurn) (phase : Phase) : System :=
  { system with
    connection := turn.connection
    channels := turn.channels
    wire := system.wire ++ turn.sent.toList
    phase }

/-- What the stream of a copy answers, when `part` has been written. -/
inductive Polling (channel : Channel CopyInMessage) (given : List CopyInMessage)
    (part : List FrontendMessage) : Poll (Option FrontendMessage) × CopyInReceiver → Prop where
  | message {message : FrontendMessage} {receiver : CopyInReceiver}
      (same : receiver.channel.senderGone = channel.senderGone)
      (taken : Taken receiver.channel given receiver.done (part ++ [message])) :
      Polling channel given part (.ready (some message), receiver)
  | ended {receiver : CopyInReceiver} (same : receiver.channel.senderGone = channel.senderGone)
      (whole : part = streamed given receiver.channel.senderGone)
      (ended : Over given receiver.channel.senderGone) :
      Polling channel given part (.ready none, receiver)
  | pending {receiver : CopyInReceiver} (same : receiver.channel.senderGone = channel.senderGone)
      (taken : Taken receiver.channel given receiver.done (part ++ [])) :
      Polling channel given part (.pending, receiver)

theorem Taken.poll {channel : Channel CopyInMessage} {given : List CopyInMessage} {done : Bool}
    {part : List FrontendMessage} (taken : Taken channel given done part) :
    Polling channel given part (CopyInReceiver.pollNext ⟨channel, done⟩) := by
  obtain ⟨buffer, queue, parked, senderGone, receiverGone⟩ := channel
  cases done with
  | true => exact .ended rfl taken.1 taken.2
  | false =>
      cases queue with
      | nil =>
          have split : given = part.map .message ++ [] := taken
          cases senderGone with
          | false => exact .pending rfl (by rw [List.append_nil]; exact taken)
          | true =>
              refine .message rfl ⟨?_, .inr rfl⟩
              rw [split, streamed_messages]
              rfl
      | cons item queue =>
          have split : given = part.map .message ++ item :: queue := taken
          cases item with
          | message message =>
              refine .message rfl ?_
              change given = (part ++ [message]).map .message ++ queue
              rw [split, List.map_append, List.append_assoc]
              rfl
          | done =>
              refine .message rfl ⟨?_, .inl ?_⟩
              · rw [split, streamed_messages]
                rfl
              · rw [split]
                exact List.mem_append_right _ List.mem_cons_self

/-- The current copy is polled. -/
theorem Written.writeCopy (written : Written system finished part) {stream : CopyInStream}
    (pending : system.connection.pendingRequest = some (.copyIn stream)) (phase : Phase) :
    Invariant (system.turned
      ({ system.connection with pendingRequest := none }.writeMessages system.channels
        (.copyIn stream)) phase) := by
  have held := written.held
  unfold Held at held
  rw [pending] at held
  have polling := Taken.poll held
  unfold writeMessages
  dsimp only
  generalize CopyInReceiver.pollNext ⟨system.channels stream.channel, stream.done⟩ = polled
    at polling
  cases polling with
  | message same taken => exact ⟨_, _, (written.continues pending same taken).phase phase⟩
  | ended same whole finished =>
      exact ⟨_, _, (written.ends pending (Channel.closeReceiver _) same whole finished).phase phase⟩
  | pending same taken => exact ⟨_, _, (written.continues pending same taken).phase phase⟩

/-- The request in front of the queue has been taken; it is a copy. -/
theorem Written.takeCopy (written : Written system finished part) {stream : CopyInStream}
    {sender : Nat} {receiver : List (Request RequestMessages)}
    (free : system.connection.pendingRequest = none)
    (queued : system.connection.receiver = ⟨.copyIn stream, sender⟩ :: receiver) :
    Written { system with connection := { system.connection with
      pendingRequest := some (.copyIn stream)
      receiver
      responses := system.connection.responses ++ [⟨sender⟩] } } finished part := by
  have waits : (⟨.copyIn stream, sender⟩ : Request RequestMessages) ∈ system.connection.receiver :=
    queued ▸ List.mem_cons_self
  have member : (⟨.copyIn stream, sender⟩ : Request RequestMessages) ∈ system.requests := by
    rw [written.requests]
    exact List.mem_append_right _ waits
  have own := written.copies _ member stream rfl
  have nothing : part = [] := by
    have held := written.held
    unfold Held at held
    rw [free] at held
    exact held
  exact {
    requests := by
      have requests := written.requests
      unfold current at requests ⊢
      rw [free, queued, List.append_nil] at requests
      dsimp only
      rw [requests, own, List.append_assoc]
      rfl
    senders := written.senders
    copies := written.copies
    fresh := written.fresh
    waiting := fun request member =>
      written.waiting request (queued ▸ List.mem_cons_of_mem _ member)
    complete := written.complete
    held := by
      have empty := written.waiting _ waits
      unfold Held
      dsimp only
      rw [own, nothing]
      exact empty.symm
    wire := written.wire
    slots := by
      have slots := written.slots
      rw [queued, List.length_cons] at slots
      dsimp only
      rw [List.length_append, List.length_singleton]
      omega
    closed := fun closing => by
      have none := (written.closed closing).2.2.1
      rw [queued] at none
      cases none
    settled := written.settled }

/-- The request in front of the queue has been taken and written. -/
theorem Written.takeSingle (written : Written system finished part) {message : FrontendMessage}
    {sender : Nat} {receiver : List (Request RequestMessages)}
    (free : system.connection.pendingRequest = none)
    (queued : system.connection.receiver = ⟨.single message, sender⟩ :: receiver) :
    Written { system with
      connection := { system.connection with
        receiver
        responses := system.connection.responses ++ [⟨sender⟩] }
      wire := system.wire ++ [message] } (finished ++ [⟨.single message, sender⟩]) [] := by
  have nothing : part = [] := by
    have held := written.held
    unfold Held at held
    rw [free] at held
    exact held
  have goes : system.connection.state ≠ .closing := by
    intro closing
    have none := (written.closed closing).2.2.1
    rw [queued] at none
    cases none
  exact {
    requests := by
      have requests := written.requests
      unfold current at requests ⊢
      rw [free, queued, List.append_nil] at requests
      dsimp only
      rw [free, requests, List.append_nil, List.append_assoc]
      rfl
    senders := written.senders
    copies := written.copies
    fresh := written.fresh
    waiting := fun request member =>
      written.waiting request (queued ▸ List.mem_cons_of_mem _ member)
    complete := fun request member => by
      rcases List.mem_append.mp member with before | own
      · exact written.complete request before
      · rw [List.mem_singleton.mp own]
        trivial
    held := by
      unfold Held
      dsimp only
      rw [free]
    wire := by
      have wire := written.wire
      unfold System.closing at wire ⊢
      dsimp only
      rw [if_neg goes, nothing, List.append_nil, List.append_nil] at wire
      rw [if_neg goes, wire, List.flatMap_append, List.flatMap_singleton, List.append_nil,
        List.append_nil]
      rfl
    slots := by
      have slots := written.slots
      rw [queued, List.length_cons] at slots
      dsimp only
      rw [List.length_append, List.length_singleton]
      omega
    closed := fun closing => absurd closing goes
    settled := written.settled }

/-- All requests have been taken and answered, and no more can come. -/
theorem Written.terminates (written : Written system finished part)
    (free : system.connection.pendingRequest = none) (empty : system.connection.receiver = [])
    (closed : system.connection.receiverClosed = true)
    (answered : system.connection.responses = []) (active : system.connection.state = .active) :
    Written { system with
      connection := { system.connection with state := .closing }
      wire := system.wire ++ [terminateMessage] } finished part where
  requests := written.requests
  senders := written.senders
  copies := written.copies
  fresh := written.fresh
  waiting := written.waiting
  complete := written.complete
  held := written.held
  wire := by
    have wire := written.wire
    unfold System.closing at wire ⊢
    dsimp only
    rw [active, if_neg (fun impossible => (by cases impossible)), List.append_nil] at wire
    rw [if_pos rfl, wire]
    rfl
  slots := written.slots
  closed := fun _ => ⟨closed, free, empty, answered⟩
  settled := fun impossible => (by cases impossible)

theorem Written.unchanged (written : Written system finished part) (phase : Phase)
    (result : Option (Except Error Bool)) :
    Invariant (system.turned { connection := system.connection, channels := system.channels, result }
      phase) := by
  have silent : system.wire ++ [] = system.wire := List.append_nil _
  refine ⟨finished, part, ?_⟩
  unfold System.turned
  dsimp only [Option.toList]
  rw [silent]
  exact written.phase phase

theorem pollRequest_held {connection : Connection RequestMessages} {messages : RequestMessages}
    (pending : connection.pendingRequest = some messages) :
    connection.pollRequest = (some (some messages), { connection with pendingRequest := none }) := by
  rw [pollRequest, pending]

theorem pollRequest_queued {connection : Connection RequestMessages}
    {request : Request RequestMessages} {receiver : List (Request RequestMessages)}
    (free : connection.pendingRequest = none) (queued : connection.receiver = request :: receiver) :
    connection.pollRequest =
      (some (some request.messages), { connection with
        receiver
        responses := connection.responses ++ [⟨request.sender⟩] }) := by
  rw [pollRequest, free, queued]

theorem pollRequest_empty {connection : Connection RequestMessages}
    (free : connection.pendingRequest = none) (empty : connection.receiver = []) :
    connection.pollRequest = (if connection.receiverClosed then some none else none, connection) := by
  rw [pollRequest, free, empty]

theorem Written.write (written : Written system finished part) (socket : SocketPoll)
    (phase : Phase) :
    Invariant (system.turned (system.connection.pollWriteTurn system.channels socket) phase) := by
  unfold pollWriteTurn
  by_cases closing : system.connection.state = .closing
  · rw [if_pos closing]
    exact written.unchanged phase _
  · rw [if_neg closing]
    cases socket with
    | failed error => exact written.unchanged phase _
    | pending => exact written.unchanged phase _
    | ready =>
        dsimp only
        cases pending : system.connection.pendingRequest with
        | some messages =>
            rw [pollRequest_held pending]
            cases messages with
            | single message =>
                have held := written.held
                unfold Held at held
                rw [pending] at held
                exact absurd held id
            | copyIn stream => exact written.writeCopy pending phase
        | none =>
            cases queued : system.connection.receiver with
            | cons request receiver =>
                rw [pollRequest_queued pending queued]
                obtain ⟨messages, sender⟩ := request
                cases messages with
                | single message =>
                    dsimp only [writeMessages]
                    rw [if_neg written.settled]
                    exact ⟨_, _, (written.takeSingle pending queued).phase phase⟩
                | copyIn stream =>
                    have begun := (written.takeCopy pending queued).writeCopy rfl phase
                    dsimp only at begun ⊢
                    rw [← pending] at begun
                    exact begun
            | nil =>
                rw [pollRequest_empty pending queued]
                cases closed : system.connection.receiverClosed with
                | true =>
                    rw [if_pos rfl]
                    dsimp only
                    split
                    · next answered =>
                        have empty := List.isEmpty_iff.mp answered.1
                        exact ⟨_, _,
                          (written.terminates pending queued closed empty answered.2).phase phase⟩
                    · exact written.unchanged phase _
                | false =>
                    rw [if_neg Bool.false_ne_true]
                    exact written.unchanged phase _

/-! ### Clients -/

theorem Written.send (written : Written system finished part) {messages : RequestMessages}
    (opened : system.connection.receiverClosed = false)
    (own : ∀ stream, messages = .copyIn stream → stream = { channel := system.requests.length }) :
    Written (system.send messages) finished part where
  requests := by
    have requests := written.requests
    unfold System.send
    dsimp only
    rw [← List.append_assoc]
    exact congrArg (· ++ _) requests
  senders := by
    have senders := written.senders
    unfold System.send
    dsimp only
    rw [List.map_append, senders, List.length_append, List.length_singleton, List.range_succ]
    rfl
  copies := fun request member stream copy => by
    rcases List.mem_append.mp member with before | last
    · exact written.copies request before stream copy
    · rw [List.mem_singleton.mp last] at copy ⊢
      exact own stream copy
  fresh := fun number beyond => by
    apply written.fresh number
    unfold System.send at beyond
    dsimp only at beyond
    rw [List.length_append] at beyond
    exact Nat.le_of_add_right_le beyond
  waiting := fun request member => by
    rcases List.mem_append.mp member with before | last
    · exact written.waiting request before
    · rw [List.mem_singleton.mp last]
      obtain ⟨empty, nothing⟩ := written.fresh system.requests.length (Nat.le_refl _)
      exact empty.trans nothing.symm
  complete := written.complete
  held := written.held
  wire := written.wire
  slots := by
    have slots := written.slots
    unfold System.send
    dsimp only
    rw [List.length_append, List.length_append, ← slots]
    rfl
  closed := fun closing => absurd (opened.symm.trans (written.closed closing).1) Bool.false_ne_true
  settled := written.settled

end

theorem step_invariant (system : System) (event : Event) (next : System)
    (holds : Invariant system) (stepped : step system event = some next) : Invariant next := by
  obtain ⟨finished, part, written⟩ := holds
  cases event with
  | send message =>
      simp only [step] at stepped
      split at stepped
      · cases stepped
      · next opened =>
          cases stepped
          exact ⟨_, _, written.send (Bool.eq_false_iff.mpr opened)
            fun _ impossible => (by cases impossible)⟩
  | copyIn =>
      simp only [step] at stepped
      split at stepped
      · cases stepped
      · next opened =>
          cases stepped
          refine ⟨_, _, written.send (Bool.eq_false_iff.mpr opened) ?_⟩
          intro stream same
          cases same
          rfl
  | clientDropped =>
      cases stepped
      exact ⟨finished, part, { written with
        closed := fun closing => ⟨rfl, (written.closed closing).2⟩ }⟩
  | feed number item =>
      simp only [step] at stepped
      split at stepped
      · next known =>
          cases sent : (system.channels number).startSend item with
          | error error =>
              rw [sent] at stepped
              cases stepped
              exact ⟨finished, part, written⟩
          | ok channel =>
              rw [sent] at stepped
              cases stepped
              refine ⟨finished, part, written.grow ?_ ?_⟩
              · intro other
                by_cases own : other = number
                · rw [own, update_self, if_pos rfl]
                  exact grows_startSend sent
                · rw [update_other own, if_neg own]
                  exact grows_refl
              · intro other beyond
                have apart : other ≠ number := Nat.ne_of_gt (Nat.lt_of_lt_of_le known beyond)
                rw [update_other apart, if_neg apart]
                exact written.fresh other beyond
      · cases stepped
  | closeSink number =>
      simp only [step] at stepped
      split at stepped
      · next known =>
          cases stepped
          refine ⟨finished, part, written.grow ?_ ?_⟩
          · intro other
            by_cases own : other = number
            · rw [own, update_self]
              exact grows_closeSender
            · rw [update_other own]
              exact grows_refl
          · intro other beyond
            rw [update_other (Nat.ne_of_gt (Nat.lt_of_lt_of_le known beyond))]
            exact written.fresh other beyond
      · cases stepped
  | pollRead stream sender =>
      simp only [step] at stepped
      split at stepped
      · cases stepped
        exact ⟨finished, part, written.read stream sender⟩
      · cases stepped
  | pollWrite socket =>
      simp only [step] at stepped
      split at stepped
      · cases stepped
        exact written.write socket _
      · cases stepped
  | pollFlush socket =>
      simp only [step] at stepped
      split at stepped
      · cases stepped
        exact ⟨finished, part, written.phase _⟩
      · cases stepped
  | pollShutdown socket =>
      simp only [step] at stepped
      split at stepped
      · next message _ =>
          cases stepped
          unfold System.shutdown
          cases message with
          | some message => exact ⟨finished, part, written.phase _⟩
          | none =>
              dsimp only
              split
              · exact ⟨finished, part, written.phase _⟩
              · cases socket <;> exact ⟨finished, part, written.phase _⟩
      · cases stepped

/-- What the connection has done with the requests at any time. -/
structure InOrder (system : System) : Prop where
  /-- The wire holds the requests before the current one, each whole, a first part
  of the current one, and `Terminate` when it has been sent; the others wait. -/
  fifo : ∃ finished part,
    system.requests = finished ++ current system.connection ++ system.connection.receiver ∧
      (∀ request ∈ finished, system.Complete request) ∧
      part <+: (current system.connection).flatMap system.messages ∧
      system.wire = finished.flatMap system.messages ++ part ++ system.closing
  /-- `Terminate` comes behind the last request and the last response. -/
  terminated : system.connection.state = .closing →
    system.connection.receiverClosed = true ∧
      system.wire = system.requests.flatMap system.messages ++ [terminateMessage] ∧
      (∀ request ∈ system.requests, system.Complete request) ∧
      system.completed = system.requests.length

theorem Written.inOrder {system : System} {finished : List (Request RequestMessages)}
    {part : List FrontendMessage} (written : Written system finished part) : InOrder system where
  fifo := by
    refine ⟨finished, part, written.requests, written.complete, ?_, written.wire⟩
    have held := written.held
    unfold Held at held
    unfold current
    cases pending : system.connection.pendingRequest with
    | none =>
        rw [pending] at held
        rw [held]
        exact List.nil_prefix
    | some messages =>
        rw [pending] at held
        cases messages with
        | single message => exact absurd held id
        | copyIn stream =>
            dsimp only
            rw [List.flatMap_singleton]
            exact Taken.prefix held
  terminated := fun closing => by
    obtain ⟨closed, free, empty, answered⟩ := written.closed closing
    have all : system.requests = finished := by
      have requests := written.requests
      unfold current at requests
      rw [free, empty, List.append_nil, List.append_nil] at requests
      exact requests
    have nothing : part = [] := by
      have held := written.held
      unfold Held at held
      rw [free] at held
      exact held
    have wire := written.wire
    have slots := written.slots
    rw [System.closing, if_pos closing, nothing, List.append_nil, ← all] at wire
    rw [answered, empty] at slots
    exact ⟨closed, wire, fun request member => written.complete request (all ▸ member), slots⟩

/-- In every run, the connection hands the requests to the socket in the order of
the queue, and `Terminate` behind them. -/
theorem execute_inOrder {delayed : List BackendMessage} {parameters : List (String × String)}
    {events : List Event} {final : System}
    (run : Execution.execute step (.start delayed parameters) events = some final) :
    InOrder final := by
  obtain ⟨_, _, written⟩ :=
    Execution.invariant step step_invariant run (start_invariant delayed parameters)
  exact written.inOrder

/-- A copy that waits for its sink, a request behind it, and both answered before
the client is gone. -/
def closedEvents : List Event :=
  let answer := StreamPoll.item (.normal ⟨[], .standard⟩ true)
  let write := Event.pollWrite .ready
  let turn := [.pollRead .pending .ready, write, write, .pollFlush .ready, .pollShutdown .pending]
  [.copyIn, .send (.raw [3]), .feed 0 (.message (.raw [1]))] ++ turn ++
    [.feed 0 .done, .pollRead .pending .ready, write, write, write, write, .pollFlush .pending,
      .pollShutdown .pending, .pollRead answer .ready, .pollRead answer .hungUp, .clientDropped] ++
    [.pollRead .pending .ready, write, write]

theorem execute_inOrder_closed :
    ∃ final, Execution.execute step (.start [] []) closedEvents = some final ∧
      final.connection.state = .closing ∧
      final.wire = [.raw [1], copyDoneMessage, .raw [3], terminateMessage] ∧ InOrder final := by
  refine ⟨_, rfl, ?_, ?_, @execute_inOrder [] [] closedEvents _ rfl⟩
  · decide +kernel
  · decide +kernel

end OpenGauss.Driver.WriteSide
