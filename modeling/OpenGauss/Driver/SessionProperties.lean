import OpenGauss.Driver.SessionFrames

/-! Whatever waits, however the bytes are cut and in whatever order the parties move, each request
is answered by what the server has sent for it, and the connection finds nothing that it has not
asked for. -/

set_option autoImplicit false

namespace OpenGauss.Driver.Session

open Lib Lib.Framing Lib.Segments Protocol Protocol.Backend Connection Startup

variable {mode : AuthMode}

/-! ### The connection, as reading sees it -/

/-- Two connections that read alike. -/
structure ReadsAlike (first second : Connection RequestMessages) : Prop where
  responses : second.responses = first.responses
  receiver : second.receiver = first.receiver
  pendingResponses : second.pendingResponses = first.pendingResponses

theorem ReadsAlike.refl (connection : Connection RequestMessages) :
    ReadsAlike connection connection := ⟨rfl, rfl, rfl⟩

theorem ReadsAlike.invariant {reader : ReadSide.System RequestMessages}
    {connection : Connection RequestMessages} (alike : ReadsAlike reader.connection connection)
    (holds : ReadSide.Invariant reader) : ReadSide.Invariant { reader with connection } := by
  obtain ⟨routed, routing⟩ := holds
  refine ⟨routed, ?_⟩
  exact {
    senders := by simpa only [alike.responses, alike.receiver] using routing.senders
    received := routing.received
    receivedAlive := routing.receivedAlive
    arrived := by simpa only [alike.pendingResponses] using routing.arrived
    pending := by simpa only [alike.pendingResponses, alike.responses] using routing.pending }

theorem writeMessages_alike (connection : Connection RequestMessages) (channels : Channels)
    (messages : RequestMessages) :
    ReadsAlike connection (connection.writeMessages channels messages).connection := by
  unfold writeMessages
  cases messages with
  | single message =>
      dsimp only
      split <;> exact ⟨rfl, rfl, rfl⟩
  | copyIn stream =>
      dsimp only
      split <;> exact ⟨rfl, rfl, rfl⟩

/-- A turn of `poll_write` takes at most one request from the queue. -/
theorem pollWriteTurn_alike (connection : Connection RequestMessages) (channels : Channels)
    (socket : SocketPoll) :
    ReadsAlike connection (connection.pollWriteTurn channels socket).connection ∨
      ReadsAlike connection.pollRequest.2 (connection.pollWriteTurn channels socket).connection := by
  unfold pollWriteTurn
  split
  · exact .inl (.refl connection)
  · cases socket with
    | failed error => exact .inl (.refl connection)
    | pending => exact .inl (.refl connection)
    | ready =>
        right
        dsimp only
        generalize connection.pollRequest = polled
        obtain ⟨answer, after⟩ := polled
        cases answer with
        | none => exact .refl after
        | some messages =>
            cases messages with
            | some messages => exact writeMessages_alike after channels messages
            | none =>
                dsimp only
                split
                · have written := writeMessages_alike { after with state := .terminating } channels
                    (.single terminateMessage)
                  exact ⟨written.responses, written.receiver, written.pendingResponses⟩
                · exact .refl after

/-- What a step other than a turn of `poll_read` does with the requests and the connection. -/
inductive Moves (write next : WriteSide.System) : Prop where
  | queued (messages : RequestMessages)
      (requests : next.requests = write.requests ++ [⟨messages, write.requests.length⟩])
      (connection : next.connection = { write.connection with
        receiver := write.connection.receiver ++ [⟨messages, write.requests.length⟩] })
  | kept (requests : next.requests = write.requests)
      (alike : ReadsAlike write.connection next.connection)
  | taken (requests : next.requests = write.requests)
      (alike : ReadsAlike write.connection.pollRequest.2 next.connection)

def IsPollRead : WriteSide.Event → Bool
  | .pollRead _ _ => true
  | _ => false

theorem step_moves {write next : WriteSide.System} {event : WriteSide.Event}
    (other : IsPollRead event = false) (stepped : WriteSide.step write event = some next) :
    Moves write next ∧ (write.phase = .ended → next.phase = .ended) := by
  cases event with
  | send message =>
      simp only [WriteSide.step] at stepped
      split at stepped
      · cases stepped
      · cases stepped
        exact ⟨.queued _ rfl rfl, fun ended => ended⟩
  | copyIn =>
      simp only [WriteSide.step] at stepped
      split at stepped
      · cases stepped
      · cases stepped
        exact ⟨.queued _ rfl rfl, fun ended => ended⟩
  | clientDropped =>
      cases stepped
      exact ⟨.kept rfl ⟨rfl, rfl, rfl⟩, fun ended => ended⟩
  | feed number item =>
      simp only [WriteSide.step] at stepped
      split at stepped
      · split at stepped <;> (cases stepped; exact ⟨.kept rfl ⟨rfl, rfl, rfl⟩, fun ended => ended⟩)
      · cases stepped
  | closeSink number =>
      simp only [WriteSide.step] at stepped
      split at stepped
      · cases stepped
        exact ⟨.kept rfl ⟨rfl, rfl, rfl⟩, fun ended => ended⟩
      · cases stepped
  | pollRead stream sender => cases other
  | pollWrite socket =>
      simp only [WriteSide.step] at stepped
      split at stepped
      · next message phase =>
        cases stepped
        refine ⟨?_, fun ended => by rw [phase] at ended; cases ended⟩
        rcases pollWriteTurn_alike write.connection write.channels socket with alike | alike
        · exact .kept rfl alike
        · exact .taken rfl alike
      · cases stepped
  | pollFlush socket =>
      simp only [WriteSide.step] at stepped
      split at stepped
      · next message phase =>
        cases stepped
        exact ⟨.kept rfl ⟨rfl, rfl, rfl⟩, fun ended => by rw [phase] at ended; cases ended⟩
      · cases stepped
  | pollShutdown socket =>
      simp only [WriteSide.step] at stepped
      split at stepped
      · next message phase =>
        cases stepped
        refine ⟨?_, fun ended => by rw [phase] at ended; cases ended⟩
        unfold WriteSide.System.shutdown
        cases message with
        | some message => exact .kept rfl ⟨rfl, rfl, rfl⟩
        | none =>
            dsimp only
            split
            · exact .kept rfl ⟨rfl, rfl, rfl⟩
            · cases socket <;> exact .kept rfl ⟨rfl, rfl, rfl⟩
      · cases stepped

/-- How many requests have been taken from the queue. -/
def takenRequests (write : WriteSide.System) : Nat :=
  write.requests.length - write.connection.receiver.length

theorem pollRequest_receiver (connection : Connection RequestMessages) :
    connection.pollRequest.2.receiver.length ≤ connection.receiver.length := by
  unfold pollRequest
  split
  · exact Nat.le_refl _
  · split
    · next queued => simp [queued]
    · exact Nat.le_refl _

theorem Moves.takenRequests_le {write next : WriteSide.System} (moves : Moves write next) :
    takenRequests write ≤ takenRequests next := by
  unfold takenRequests
  cases moves with
  | queued messages requests connection => simp [requests, connection]
  | kept requests alike => simp [requests, alike.receiver]
  | taken requests alike =>
      rw [requests, alike.receiver]
      have fewer := pollRequest_receiver write.connection
      omega

theorem pollRequest_pendingResponses (connection : Connection RequestMessages) :
    connection.pollRequest.2.pendingResponses = connection.pendingResponses := by
  unfold pollRequest
  split
  · rfl
  · split <;> rfl

theorem Moves.pending {write next : WriteSide.System} (moves : Moves write next) :
    next.connection.pendingResponses = write.connection.pendingResponses := by
  cases moves with
  | queued messages requests connection => simp [connection]
  | kept requests alike => exact alike.pendingResponses
  | taken requests alike =>
      exact alike.pendingResponses.trans (pollRequest_pendingResponses write.connection)

/-- The reading side after such a step. -/
theorem Moves.reads {system : System mode} {write : WriteSide.System}
    (moves : Moves system.write write) (holds : ReadSide.Invariant system.readSide) :
    ReadSide.Invariant { system with write }.readSide := by
  cases moves with
  | queued messages requests connection =>
      obtain ⟨routed, routing⟩ := holds
      have senders := routing.senders
      refine ⟨routed, { routing with
        senders := ?_, arrived := ?_, pending := ?_ }⟩
      · simp only [System.readSide] at senders
        simp only [System.readSide, requests, connection, List.map_append, List.map_cons,
          List.map_nil, List.length_append, List.length_singleton, List.range_succ, ← senders,
          List.append_assoc]
      · simpa only [System.readSide, connection] using routing.arrived
      · simpa only [System.readSide, connection] using routing.pending
  | kept requests alike =>
      have reads := ReadsAlike.invariant alike holds
      simpa only [System.readSide, requests] using reads
  | taken requests alike =>
      have reads := ReadsAlike.invariant alike (ReadSide.pollRequest_invariant holds)
      simpa only [System.readSide, requests] using reads

/-- A request that the server has in front of it has been taken from the queue. -/
theorem Begun.taken {write : WriteSide.System} (holds : WriteSide.Invariant write) {request : Nat}
    (begun : Begun write request) : request < takenRequests write := by
  obtain ⟨finished, part, written⟩ := holds
  have inOrder := written.inOrder
  obtain ⟨inside, reached⟩ := begun
  have requests := written.requests
  have count := congrArg List.length requests
  simp only [List.length_append] at count
  by_contra beyond
  unfold takenRequests at beyond
  -- all that is on the wire belongs to earlier requests
  have earlier : finished ++ WriteSide.current write.connection <+: write.requests.take request := by
    rw [requests]
    refine List.prefix_take_iff.mpr ⟨List.prefix_append _ _, ?_⟩
    rw [List.length_append]
    omega
  obtain ⟨more, split⟩ := earlier
  obtain ⟨otherFinished, otherPart, otherRequests, _, begins, wire⟩ := inOrder.fifo
  have open_ : write.connection.state ≠ .closing := by
    intro closing
    obtain ⟨_, _, empty, _⟩ := written.closed closing
    rw [empty, List.length_nil] at beyond
    omega
  have same : otherFinished = finished := by
    have both := otherRequests.symm.trans requests
    simpa using both
  have shorter := begins.length_le
  rw [position, ← split, wire, same, WriteSide.System.closing, if_neg open_] at reached
  simp only [List.flatMap_append, List.length_append, List.append_nil] at reached
  omega

/-! ### What a server sends unasked -/

/-- The messages that answer no request. -/
inductive Asynchronous : Message → Prop where
  | notice (storage : Bytes) : Asynchronous (.noticeResponse storage)
  | notification (body : NotificationResponseBody) : Asynchronous (.notificationResponse body)
  | parameter (body : ParameterStatusBody) : Asynchronous (.parameterStatus body)

/-- All messages that a parser reads are of a kind. -/
def Yields (parser : BufferM Message) (kind : Message → Prop) : Prop :=
  ∀ body message rest, parser body = .ok (message, rest) → kind message

theorem yields_pure {kind : Message → Prop} {message : Message} (holds : kind message) :
    Yields (pure message) kind := by
  intro body other rest read
  cases read
  exact holds

theorem Yields.bind {Value : Type} {first : BufferM Value} {next : Value → BufferM Message}
    {kind : Message → Prop} (others : ∀ value, Yields (next value) kind) :
    Yields (first >>= next) kind := by
  intro body message rest read
  have steps : Except.bind (first body) (fun done => next done.1 done.2) = .ok (message, rest) :=
    read
  cases one : first body with
  | error error => simp [one, Except.bind] at steps
  | ok done =>
      simp only [one, Except.bind] at steps
      exact others done.1 done.2 message rest steps

theorem Yields.frame {kind : Message → Prop} (frame : Frame mode)
    (yields : Yields (parseMessage mode frame.tag) kind) : kind frame.message := by
  have accepted := frame.accepted
  unfold parseFrame at accepted
  split at accepted
  · cases accepted
  · next message parsed =>
    cases accepted
    exact yields _ _ _ parsed
  · cases accepted

theorem yields_async {tag : UInt8} (async : PostgresCodec.isAsyncTag tag = true) :
    Yields (parseMessage mode tag) Asynchronous := by
  have tags : (tag = noticeResponseTag ∨ tag = notificationResponseTag) ∨
      tag = parameterStatusTag := by simpa [PostgresCodec.isAsyncTag] using async
  rcases tags with (rfl | rfl) | rfl
  · exact Yields.bind fun storage => yields_pure (.notice storage)
  · exact Yields.bind fun processId => Yields.bind fun channel => Yields.bind fun message =>
      yields_pure (.notification _)
  · exact Yields.bind fun name => Yields.bind fun value => yields_pure (.parameter _)

/-! ### A turn of `poll_read` -/

/-- The errors of reading that are not about the answers of the server. -/
inductive Excusable : Error → Prop where
  | closed : Excusable .closed
  | io (cause : IoError) : Excusable (.io cause)
  | parse (cause : IoError) : Excusable (.parse cause)

theorem pollReadAsync_excusable (connection : Connection RequestMessages) {message : Message}
    (asynchronous : Asynchronous message) {error : Error}
    (failed : (connection.pollReadAsync message).result = some (.error error)) :
    Excusable error := by
  cases asynchronous with
  | notice storage =>
      simp only [pollReadAsync] at failed
      split at failed
      · cases failed
        exact .parse _
      · cases failed
  | notification body =>
      simp only [pollReadAsync] at failed
      split at failed
      · cases failed
      all_goals
        cases failed
        exact .parse _
  | parameter body =>
      simp only [pollReadAsync] at failed
      split at failed
      · cases failed
      all_goals
        cases failed
        exact .parse _

theorem pollReadNormal_waiting {connection : Connection RequestMessages} {sender : PollReady}
    {messages : BackendMessages} {requestComplete : Bool} (waiting : connection.responses ≠ [])
    (error : Error) :
    (connection.pollReadNormal sender messages requestComplete).result ≠ some (.error error) := by
  unfold pollReadNormal
  split
  · next none => exact absurd none waiting
  · cases sender <;> simp

/-- What a turn may find: an asynchronous message, or a batch that a request waits for. -/
structure Expected (connection : Connection RequestMessages) (stream : StreamPoll) : Prop where
  async : ∀ message, (connection.pollResponse stream).1 = .item (.async message) →
    Asynchronous message
  normal : ∀ messages requestComplete,
    (connection.pollResponse stream).1 = .item (.normal messages requestComplete) →
      connection.responses ≠ []

theorem pollResponse_responses (connection : Connection RequestMessages) (stream : StreamPoll) :
    (connection.pollResponse stream).2.responses = connection.responses := by
  unfold pollResponse
  split <;> rfl

theorem pollReadTurn_excusable {connection : Connection RequestMessages} {stream : StreamPoll}
    {sender : PollReady} (expected : Expected connection stream) {error : Error}
    (failed : (connection.pollReadTurn stream sender).result = some (.error error)) :
    Excusable error := by
  obtain ⟨async, normal⟩ := expected
  have same := pollResponse_responses connection stream
  unfold pollReadTurn at failed
  generalize connection.pollResponse stream = polled at async normal same failed
  obtain ⟨answer, between⟩ := polled
  cases answer with
  | item item =>
      cases item with
      | async message => exact pollReadAsync_excusable between (async message rfl) failed
      | normal messages requestComplete =>
          have waiting : between.responses ≠ [] := same ▸ normal messages requestComplete rfl
          exact absurd failed (pollReadNormal_waiting waiting error)
  | failed cause =>
      cases failed
      exact .io cause
  | ended =>
      cases failed
      exact .closed
  | pending => cases failed

/-- What a turn puts off again is what it has found put off, or a batch. -/
theorem pollReadTurn_pending (connection : Connection RequestMessages) (stream : StreamPoll)
    (sender : PollReady) (message : Message)
    (pending : .async message ∈
      (connection.pollReadTurn stream sender).connection.pendingResponses) :
    .async message ∈ connection.pendingResponses := by
  have taken : .async message ∈ (connection.pollResponse stream).2.pendingResponses := by
    unfold pollReadTurn at pending
    generalize connection.pollResponse stream = polled at pending
    obtain ⟨answer, between⟩ := polled
    cases answer with
    | item item =>
        cases item with
        | async other =>
            obtain ⟨_, parameters, kept⟩ := ReadSide.pollReadAsync_keeps between other
            simpa [kept] using pending
        | normal messages requestComplete =>
            simp only [pollReadNormal] at pending
            split at pending
            · exact pending
            · cases sender <;> simpa using pending
    | failed cause => exact pending
    | ended => exact pending
    | pending => exact pending
  unfold pollResponse at taken
  split at taken
  · next found => exact found ▸ List.mem_cons_of_mem _ taken
  · exact taken

end OpenGauss.Driver.Session
