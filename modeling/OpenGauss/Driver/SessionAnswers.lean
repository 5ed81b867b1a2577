import OpenGauss.Driver.SessionProperties

/-! In every run, each response channel receives what the server has sent in answer to its request,
and reading never finds a message that nothing has asked for. -/

set_option autoImplicit false

namespace OpenGauss.Driver.Session

open Lib Lib.Framing Lib.Segments Lib.Execution Protocol Protocol.Backend Connection Startup

variable {mode : AuthMode}

/-! ### The invariant -/

/-- The frames that the server has sent: those of the items that have been taken, and those that
are ahead. -/
structure Carried (system : System mode) (parts : List (List (Frame mode)))
    (ahead : List (Frame mode)) : Prop where
  cuts : List.Forall₂ Cut system.taken parts
  sent : system.server.sent = parts.flatten ++ ahead
  mode : system.framed.mode = mode
  bytes : system.framed.bytes ++ system.server.inFlight = encodeAll Frame.bytes ahead

/-- The server answers the requests one after the other, and none that it has not got. -/
structure Served (server : Server mode) (write : WriteSide.System) : Prop where
  answers : ∀ request, server.answers request = segment isReady request (answering server.sent)
  answered : server.answered = (answering server.sent).countP isReady
  taken : ∀ request, server.answers request ≠ [] → request < takenRequests write

structure Invariant (system : System mode) : Prop where
  write : WriteSide.Invariant system.write
  reads : ReadSide.Invariant system.readSide
  served : Served system.server system.write
  carried : ∃ parts ahead, Carried system parts ahead
  pending : ∀ message, .async message ∈ system.write.connection.pendingResponses →
    Asynchronous message
  ended : system.failure.isSome = true → system.write.phase = .ended
  excusable : ∀ error, system.failure = some error → Excusable error

/-- The messages that `connect_raw` has put off. -/
def Notices (delayed : List BackendMessage) : Prop :=
  ∀ item ∈ delayed, ∃ storage, item = .async (.noticeResponse storage)

theorem start_invariant {delayed : List BackendMessage} (parameters : List (String × String))
    (notices : Notices delayed) : Invariant (System.start mode delayed parameters) where
  write := WriteSide.start_invariant delayed parameters
  reads := by
    refine ReadSide.start_invariant parameters fun item member => ?_
    obtain ⟨storage, rfl⟩ := notices item member
    exact ⟨_, rfl⟩
  served := {
    answers := fun request => by cases request <;> rfl
    answered := rfl
    taken := fun request some => absurd rfl some }
  carried := ⟨[], [], .nil, rfl, rfl, rfl⟩
  pending := fun message member => by
    obtain ⟨storage, same⟩ := notices _ member
    cases same
    exact .notice storage
  ended := fun failed => by cases failed
  excusable := fun error failed => by cases failed

/-! ### The steps of the server -/

theorem segment_single {frames : List (Frame mode)} (frame : Frame mode) (request : Nat) :
    segment isReady request (frames ++ [frame]) =
      segment isReady request frames ++
        if request = frames.countP isReady then [frame] else [] := by
  rw [segment_concat]
  split <;> simp

theorem Served.reply {server : Server mode} {write : WriteSide.System} {frame : Frame mode}
    (served : Served server write) (holds : WriteSide.Invariant write)
    (may : server.mayReply write frame) : Served (server.reply frame) write := by
  obtain ⟨answers, answered, taken⟩ := served
  obtain ⟨normal, begun, -⟩ := may
  have sent : answering (server.sent ++ [frame]) = answering server.sent ++ [frame] := by
    simp [normal, answering]
  constructor
  · intro request
    simp only [Server.reply, sent, segment_single, answers, answered]
    split <;> simp
  · cases ready : isReady frame <;> simp [Server.reply, sent, answered, ready]
  · intro request some
    simp only [Server.reply] at some
    split at some
    · next front => exact front ▸ begun.taken holds
    · exact taken request some

theorem Served.notify {server : Server mode} {write : WriteSide.System} {frame : Frame mode}
    (served : Served server write) (async : isAsync frame = true) :
    Served (server.notify frame) write := by
  obtain ⟨answers, answered, taken⟩ := served
  have sent : answering (server.sent ++ [frame]) = answering server.sent := by
    simp [async, answering]
  exact ⟨by simpa [Server.notify, sent] using answers, by simpa [Server.notify, sent] using answered,
    taken⟩

theorem Served.later {server : Server mode} {write next : WriteSide.System}
    (served : Served server write) (more : takenRequests write ≤ takenRequests next) :
    Served server next where
  answers := served.answers
  answered := served.answered
  taken := fun request some => Nat.lt_of_lt_of_le (served.taken request some) more

/-- One more frame on its way. -/
theorem Carried.send {system : System mode} {parts : List (List (Frame mode))}
    {ahead : List (Frame mode)} {server : Server mode} {frame : Frame mode}
    (carried : Carried system parts ahead) (sent : server.sent = system.server.sent ++ [frame])
    (inFlight : server.inFlight = system.server.inFlight ++ frame.bytes) :
    Carried { system with server } parts (ahead ++ [frame]) where
  cuts := carried.cuts
  sent := by simp [sent, carried.sent]
  mode := carried.mode
  bytes := by simp [inFlight, ← List.append_assoc, carried.bytes]

theorem Carried.arrive {system : System mode} {parts : List (List (Frame mode))}
    {ahead : List (Frame mode)} (carried : Carried system parts ahead) (count : Nat) :
    Carried { system with
      framed := { system.framed with
        chunks := system.framed.chunks ++ [system.server.inFlight.take count] }
      server := { system.server with inFlight := system.server.inFlight.drop count } }
      parts ahead where
  cuts := carried.cuts
  sent := carried.sent
  mode := carried.mode
  bytes := by
    have whole := carried.bytes
    simp only [Framed.bytes, List.append_assoc] at whole
    simpa [Framed.bytes] using whole

/-! ### A turn of `poll_read` -/

/-- What a turn finds on the socket. -/
inductive Turned (system : System mode) (ahead : List (Frame mode)) : StreamPoll × Framed → Prop where
  | nothing {stream : StreamPoll} {framed : Framed} (none : itemOf stream = [])
      (mode : framed.mode = mode) (bytes : framed.bytes = system.framed.bytes) :
      Turned system ahead (stream, framed)
  | item {item : BackendMessage} {part rest : List (Frame mode)} {framed : Framed}
      (first : system.write.connection.pendingResponses = []) (cut : Cut item part)
      (split : ahead = part ++ rest) (mode : framed.mode = mode)
      (bytes : framed.bytes ++ system.server.inFlight = encodeAll Frame.bytes rest) :
      Turned system ahead (.item item, framed)

theorem itemOf_idle (idle : ReadSide.Idle) : itemOf (ReadSide.pollStream [] idle) = [] := by
  cases idle <;> rfl

theorem pollStream_turned {system : System mode} {parts : List (List (Frame mode))}
    {ahead : List (Frame mode)} (carried : Carried system parts ahead) (idle : ReadSide.Idle) :
    Turned system ahead (system.pollStream idle) := by
  unfold System.pollStream
  split
  · next first =>
    have polled := pollNext_cut carried.mode carried.bytes
    generalize system.framed.pollNext = result at polled
    cases polled with
    | pending mode bytes =>
        exact .nothing (itemOf_idle idle) mode bytes
    | item cut split mode bytes =>
        exact .item first cut split mode bytes
  · exact .nothing rfl carried.mode rfl

theorem Carried.read {system : System mode} {parts : List (List (Frame mode))}
    {ahead : List (Frame mode)} (carried : Carried system parts ahead) (write : WriteSide.System)
    (idle : ReadSide.Idle) (sender : PollReady) :
    ∃ parts ahead, Carried (system.read write idle sender) parts ahead := by
  have turned := pollStream_turned carried idle
  unfold System.read
  generalize system.pollStream idle = polled at turned
  cases turned with
  | nothing none mode bytes =>
      refine ⟨parts, ahead, ?_, carried.sent, mode, ?_⟩
      · simpa [none] using carried.cuts
      · simpa [bytes] using carried.bytes
  | @item item part rest framed first cut split mode bytes =>
      refine ⟨parts ++ [part], rest, ?_, ?_, mode, bytes⟩
      · exact List.rel_append carried.cuts (.cons cut .nil)
      · simp [carried.sent, split]

theorem pollStream_itemOf (stream : StreamPoll) :
    ∃ idle, ReadSide.pollStream (itemOf stream) idle = stream := by
  cases stream with
  | item message => exact ⟨.pending, rfl⟩
  | failed error => exact ⟨.failed error, rfl⟩
  | ended => exact ⟨.ended, rfl⟩
  | pending => exact ⟨.pending, rfl⟩

theorem itemOf_pollStream {system : System mode} (idle : ReadSide.Idle)
    (later : system.write.connection.pendingResponses ≠ []) :
    itemOf (system.pollStream idle).1 = [] := by
  simp [System.pollStream, later, itemOf]

theorem drop_itemOf (stream : StreamPoll) : (itemOf stream).drop 1 = [] := by
  cases stream <;> rfl

/-- The reading side of a session takes the turn that it takes alone, when its stream holds what the
socket has answered. -/
theorem read_readTurn (system : System mode) (write : WriteSide.System) (idle : ReadSide.Idle)
    (sender : PollReady)
    (connection : write.connection =
      (system.write.connection.pollReadTurn (system.pollStream idle).1 sender).connection)
    (requests : write.requests = system.write.requests) :
    ∃ idle', (system.read write idle sender).readSide =
      ReadSide.readTurn { system.readSide with
        stream := itemOf (system.pollStream idle).1
        arrived := system.taken ++ itemOf (system.pollStream idle).1 } idle' sender := by
  obtain ⟨idle', same⟩ := pollStream_itemOf (system.pollStream idle).1
  refine ⟨idle', ?_⟩
  have read : (system.read write idle sender).readSide =
      ReadSide.settle { system.readSide with
        arrived := system.taken ++ itemOf (system.pollStream idle).1 } []
        (system.write.connection.pollReadTurn (system.pollStream idle).1 sender) := by
    simp only [System.read, System.readSide, ReadSide.settle, connection, requests] <;> rfl
  rw [read, ReadSide.readTurn, same]
  by_cases first : system.write.connection.pendingResponses = []
  · simp [ReadSide.settle, System.readSide, first, drop_itemOf, -List.drop_one]
  · simp [ReadSide.settle, System.readSide, first, itemOf_pollStream idle first]

theorem arrive_invariant {reader : ReadSide.System RequestMessages} (stream : StreamPoll)
    (holds : ReadSide.Invariant reader) (empty : reader.stream = []) :
    ReadSide.Invariant { reader with
      stream := itemOf stream, arrived := reader.arrived ++ itemOf stream } := by
  cases stream with
  | item message =>
      have arrived := ReadSide.step_invariant reader (.arrive message) _ holds rfl
      simpa [empty, itemOf] using arrived
  | _ =>
      obtain ⟨connection, held, channels, requests, arrived, failed⟩ := reader
      obtain rfl : held = [] := empty
      simpa [itemOf] using holds

/-! ### What a turn finds -/

theorem segment_zero_ne_nil {frames : List (Frame mode)} (some : frames ≠ []) :
    segment isReady 0 frames ≠ [] := by
  cases frames with
  | nil => exact absurd rfl some
  | cons frame frames => cases ready : isReady frame <;> simp [Segments.segment, ready]

/-- A batch that has been sent, and not taken yet, is for a request that waits. -/
theorem Invariant.waits {system : System mode} {parts : List (List (Frame mode))}
    {part rest : List (Frame mode)} (holds : Invariant system)
    (unfailed : system.failure = none) (first : system.write.connection.pendingResponses = [])
    (carried : Carried system parts (part ++ rest)) (nonempty : part ≠ [])
    (normal : ∀ frame ∈ part, isAsync frame = false) :
    system.write.connection.responses ≠ [] := by
  obtain ⟨routed, routing⟩ := holds.reads
  obtain ⟨remaining, arrived, left⟩ := routing.arrived
  have none : remaining = [] := by simpa [System.readSide, first] using left unfailed
  have count : routed.countP Prod.snd = (answering parts.flatten).countP isReady := by
    rw [← countP_cut carried.cuts]
    simpa [none, System.readSide] using congrArg (List.countP Prod.snd) arrived.symm
  -- the batch answers the request that is numbered by the answers before it
  have answer : system.server.answers (routed.countP Prod.snd) ≠ [] := by
    have more : segment isReady 0 (part ++ answering rest) ≠ [] :=
      segment_zero_ne_nil (by simp [nonempty])
    have later : answering (parts.flatten ++ (part ++ rest)) =
        answering parts.flatten ++ (part ++ answering rest) := by
      simp [answering_of_none normal]
    rw [holds.served.answers, carried.sent, count, later, segment_append, if_pos (Nat.le_refl _),
      Nat.sub_self]
    exact fun empty => more (List.append_eq_nil_iff.mp empty).2
  have taken := holds.served.taken _ answer
  have senders := congrArg List.length routing.senders
  simp only [System.readSide, List.length_append, List.length_map, List.length_range] at senders
  intro empty
  simp only [empty, List.length_nil, Nat.zero_add] at senders
  unfold takenRequests at taken
  omega

theorem Invariant.expected {system : System mode} (holds : Invariant system)
    (unfailed : system.failure = none) (idle : ReadSide.Idle) :
    Expected system.write.connection (system.pollStream idle).1 := by
  obtain ⟨parts, ahead, carried⟩ := holds.carried
  cases put : system.write.connection.pendingResponses with
  | nil =>
      have turned := pollStream_turned carried idle
      generalize system.pollStream idle = polled at turned
      have answer : (system.write.connection.pollResponse polled.1).1 = polled.1 := by
        simp [pollResponse, put]
      cases turned with
      | nothing none mode bytes =>
          constructor
          · intro message found
            obtain rfl := answer.symm.trans found
            cases none
          · intro messages requestComplete found
            obtain rfl := answer.symm.trans found
            cases none
      | item first cut split mode bytes =>
          cases cut with
          | @async frame async =>
              constructor
              · intro message found
                cases answer.symm.trans found
                exact Yields.frame frame (yields_async async)
              · intro messages requestComplete found
                cases answer.symm.trans found
          | normal nonempty normal onlyLast =>
              constructor
              · intro message found
                cases answer.symm.trans found
              · intro messages requestComplete found
                exact holds.waits unfailed first (split ▸ carried) nonempty normal
  | cons item pendingResponses =>
      have answer (stream : StreamPoll) :
          (system.write.connection.pollResponse stream).1 = .item item := by
        simp [pollResponse, put]
      obtain ⟨routed, routing⟩ := holds.reads
      have pending := routing.pending unfailed
      constructor
      · intro message found
        cases (answer _).symm.trans found
        exact holds.pending message (put ▸ List.mem_cons_self)
      · intro messages requestComplete found
        cases (answer _).symm.trans found
        rcases pending with only | ⟨_, _, _, waiting⟩
        · obtain ⟨message, impossible⟩ := only _ (put ▸ List.mem_cons_self)
          cases impossible
        · exact waiting

/-! ### The steps -/

/-- A step of the writing side that reading does not see. -/
theorem Invariant.own {system : System mode} {write : WriteSide.System} (holds : Invariant system)
    (written : WriteSide.Invariant write) (moves : Moves system.write write)
    (stays : system.write.phase = .ended → write.phase = .ended) :
    Invariant { system with write } where
  write := written
  reads := moves.reads holds.reads
  served := holds.served.later moves.takenRequests_le
  carried := by
    obtain ⟨parts, ahead, carried⟩ := holds.carried
    exact ⟨parts, ahead, ⟨carried.cuts, carried.sent, carried.mode, carried.bytes⟩⟩
  pending := fun message member => holds.pending message (moves.pending ▸ member)
  ended := fun failed => stays (holds.ended failed)
  excusable := holds.excusable

theorem Invariant.read {system : System mode} {write : WriteSide.System} {idle : ReadSide.Idle}
    {sender : PollReady} (holds : Invariant system) (reading : system.write.phase = .reading)
    (active : system.write.connection.state = .active)
    (possible : sender = .hungUp → ReadSide.frontAlive system.readSide = false)
    (stepped : WriteSide.step system.write (.pollRead (system.pollStream idle).1 sender) =
      some write) :
    Invariant (system.read write idle sender) := by
  have unfailed : system.failure = none := by
    cases failed : system.failure with
    | none => rfl
    | some error =>
        have ended := holds.ended (by simp [failed])
        cases reading.symm.trans ended
  have written := WriteSide.step_invariant _ _ _ holds.write stepped
  have after : write = system.write.read (system.pollStream idle).1 sender := by
    simpa [WriteSide.step, reading] using stepped.symm
  have turn : write.connection =
      (system.write.connection.pollReadTurn (system.pollStream idle).1 sender).connection := by
    simp [after, WriteSide.System.read, active]
  have requests : write.requests = system.write.requests := by
    simp [after, WriteSide.System.read, active]
  have phase (error : Error) (failed : (system.write.connection.pollReadTurn
      (system.pollStream idle).1 sender).result = some (.error error)) : write.phase = .ended := by
    simp [after, WriteSide.System.read, active, failed]
  have failure (error : Error) : (system.read write idle sender).failure = some error →
      (system.write.connection.pollReadTurn (system.pollStream idle).1 sender).result =
        some (.error error) := by
    simp only [System.read]
    split
    · next found => simp [found]
    · simp
  have receiver := (WriteSide.pollReadTurn_reads system.write.connection
    (system.pollStream idle).1 sender).receiver
  exact {
    write := written
    reads := by
      obtain ⟨idle', same⟩ := read_readTurn system write idle sender turn requests
      exact same ▸ ReadSide.readTurn_invariant
        (arrive_invariant (system.pollStream idle).1 holds.reads rfl) unfailed possible
    served := by
      refine holds.served.later (Nat.le_of_eq ?_)
      show takenRequests system.write = takenRequests write
      simp [takenRequests, requests, turn, receiver]
    carried := by
      obtain ⟨parts, ahead, carried⟩ := holds.carried
      exact carried.read write idle sender
    pending := fun message member =>
      holds.pending message (pollReadTurn_pending _ _ _ message (turn ▸ member))
    ended := fun failed => by
      obtain ⟨error, found⟩ := Option.isSome_iff_exists.mp failed
      exact phase error (failure error found)
    excusable := fun error found =>
      pollReadTurn_excusable (holds.expected unfailed idle) (failure error found) }

theorem step_invariant (system : System mode) (event : Event mode) (next : System mode)
    (holds : Invariant system) (stepped : step system event = some next) : Invariant next := by
  cases event with
  | own event =>
      have other : IsPollRead event = false := by
        cases event with
        | pollRead stream sender => cases stepped
        | _ => rfl
      have moved : (WriteSide.step system.write event).bind
          (fun write => some { system with write }) = some next := by
        cases event with
        | pollRead stream sender => cases other
        | _ => exact stepped
      obtain ⟨write, own, same⟩ := Option.bind_eq_some_iff.mp moved
      cases same
      obtain ⟨moves, stays⟩ := step_moves other own
      exact holds.own (WriteSide.step_invariant _ _ _ holds.write own) moves stays
  | pollRead idle sender =>
      simp only [step] at stepped
      split at stepped
      · cases stepped
      · next possible =>
        obtain ⟨write, own, same⟩ := Option.bind_eq_some_iff.mp stepped
        have reading : system.write.phase = .reading := by
          simp only [WriteSide.step] at own
          split at own
          · assumption
          · cases own
        split at same
        · next active =>
          cases same
          refine holds.read reading active ?_ own
          rintro rfl
          simpa using possible
        · next inactive =>
          cases same
          have after : write = { system.write with phase := .writing none } := by
            simpa [WriteSide.step, reading, WriteSide.System.read, inactive] using own.symm
          subst after
          refine holds.own (WriteSide.step_invariant _ _ _ holds.write own) ?_ ?_
          · exact .kept rfl ⟨rfl, rfl, rfl⟩
          · intro ended
            cases reading.symm.trans ended
  | hangUp request =>
      cases stepped
      have reads := ReadSide.step_invariant system.readSide (.hangUp request) _ holds.reads rfl
      exact { holds with
        reads
        carried := by
          obtain ⟨parts, ahead, carried⟩ := holds.carried
          exact ⟨parts, ahead, ⟨carried.cuts, carried.sent, carried.mode, carried.bytes⟩⟩ }
  | reply frame =>
      simp only [step] at stepped
      split at stepped
      · next may =>
        cases stepped
        obtain ⟨parts, ahead, carried⟩ := holds.carried
        exact { holds with
          served := holds.served.reply holds.write may
          carried := ⟨parts, _, carried.send rfl rfl⟩ }
      · cases stepped
  | notify frame =>
      simp only [step] at stepped
      split at stepped
      · next async =>
        cases stepped
        obtain ⟨parts, ahead, carried⟩ := holds.carried
        exact { holds with
          served := holds.served.notify async
          carried := ⟨parts, _, carried.send rfl rfl⟩ }
      · cases stepped
  | arrive count =>
      cases stepped
      obtain ⟨parts, ahead, carried⟩ := holds.carried
      exact { holds with
        served := ⟨holds.served.answers, holds.served.answered, holds.served.taken⟩
        carried := ⟨parts, ahead, carried.arrive count⟩ }

/-! ### Whole runs -/

theorem share_mono {routed taken : List ReadSide.Batch} (request : Nat)
    (part : routed <+: taken) : ReadSide.share request routed <+: ReadSide.share request taken :=
  (segment_mono Prod.snd request part).map _

/-- Nothing is put off, or on its way. -/
structure Drained (system : System mode) : Prop where
  unfailed : system.failure = none
  pending : system.write.connection.pendingResponses = []
  bytes : system.framed.bytes = []
  inFlight : system.server.inFlight = []

instance (system : System mode) : Decidable (Drained system) :=
  decidable_of_iff (system.failure.isNone ∧ system.write.connection.pendingResponses.isEmpty ∧
      system.framed.bytes.isEmpty ∧ system.server.inFlight.isEmpty)
    ⟨fun ⟨unfailed, pending, bytes, inFlight⟩ => ⟨by simpa using unfailed, by simpa using pending,
        by simpa using bytes, by simpa using inFlight⟩,
      fun ⟨unfailed, pending, bytes, inFlight⟩ => by simp [unfailed, pending, bytes, inFlight]⟩

/-- The batches that a response channel has received hold the first frames of the answer, and in
the end all of them. -/
theorem Invariant.received {system : System mode} (holds : Invariant system) (request : Nat) :
    ∃ batches : List (List (Frame mode)),
      (system.responses request).received = batches.map batchOf ∧
        batches.flatten <+: system.server.answers request ∧
        (Drained system → (system.responses request).alive = true →
          batches.flatten = system.server.answers request) := by
  obtain ⟨parts, ahead, carried⟩ := holds.carried
  obtain ⟨routed, routing⟩ := holds.reads
  obtain ⟨rest, arrived, left⟩ := routing.arrived
  obtain ⟨all, shared, frames⟩ := share_batches carried.cuts request
  have whole : system.server.answers request =
      segment isReady request (answering (parts.flatten ++ ahead)) := by
    rw [holds.served.answers, carried.sent]
  have received : (system.responses request).received <+:
      ReadSide.share request (ReadSide.normals system.taken) :=
    (routing.received request).trans (share_mono request ⟨rest, arrived.symm⟩)
  rw [shared] at received
  obtain ⟨later, split⟩ := received
  obtain ⟨batches, others, rfl, same, -⟩ := List.map_eq_append_iff.mp split.symm
  refine ⟨batches, same.symm, ?_, ?_⟩
  · have more : segment isReady request (answering parts.flatten) <+:
        segment isReady request (answering (parts.flatten ++ ahead)) := by
      rw [answering_append]
      exact segment_mono isReady request (List.prefix_append ..)
    rw [whole]
    refine List.IsPrefix.trans ?_ (frames ▸ more)
    simp
  · rintro ⟨unfailed, pending, bytes, inFlight⟩ alive
    have none : rest = [] := by simpa [System.readSide, pending] using left unfailed
    have drained : ahead = [] := by
      cases ahead with
      | nil => rfl
      | cons frame frames =>
          have empty := carried.bytes
          rw [bytes, inFlight, encodeAll_cons] at empty
          exact absurd (List.append_eq_nil_iff.mp empty.symm).1 (Frame.bytes_ne_nil frame)
    have taken : ReadSide.normals system.taken = routed := by
      simpa [System.readSide, none] using arrived
    have full : (system.responses request).received =
        ReadSide.share request (ReadSide.normals system.taken) := by
      rw [taken]
      exact routing.receivedAlive request alive
    have rest : others = [] := by
      have lengths := congrArg List.length (full.trans shared)
      rw [← same] at lengths
      simpa using lengths
    rw [whole, drained, List.append_nil, ← frames, rest, List.append_nil]

/-- In every run, what the response channel of a request has received are the first messages of
those that the server has sent in answer to this request, whatever else it has sent. They are all of
them once nothing is put off or on its way, unless the receiver is gone or reading has failed. -/
theorem execute_answers {delayed : List BackendMessage} {parameters : List (String × String)}
    {events : List (Event mode)} {final : System mode} (notices : Notices delayed)
    (run : execute step (System.start mode delayed parameters) events = some final)
    (request : Nat) :
    ∃ messages, collected (final.responses request).received = .ok messages ∧
      messages <+: (final.server.answers request).map (·.message) ∧
      (Drained final → (final.responses request).alive = true →
        messages = (final.server.answers request).map (·.message)) := by
  have holds := invariant step step_invariant run (start_invariant parameters notices)
  obtain ⟨batches, received, part, whole⟩ := holds.received request
  refine ⟨_, received ▸ collected_batches batches, part.map _, ?_⟩
  intro drained alive
  rw [whole drained alive]

def syncRequest : FrontendMessage := .raw [83, 0, 0, 0, 4]

def readyFrame (status : UInt8) : Frame .standard :=
  ⟨90, [status], .readyForQuery status, by simp, rfl⟩

def completeFrame : Frame .standard := ⟨67, [66, 0], .commandComplete [66], by decide, rfl⟩

/-- The task finds nothing to read, and writes one request. -/
def taskTurn : List (Event .standard) :=
  [.pollRead .pending .ready, .own (.pollWrite .ready), .own (.pollWrite .ready),
    .own (.pollFlush .ready), .own (.pollShutdown .ready)]

/-- Two requests, of which the second is answered in two batches. -/
def answeredEvents : List (Event .standard) :=
  [.own (.send syncRequest)] ++ taskTurn ++
    [.reply (readyFrame 73), .own (.send syncRequest), .arrive 3] ++ taskTurn ++
    [.reply completeFrame, .arrive 3, .pollRead .pending .ready, .arrive 7,
      .pollRead .pending .ready, .reply (readyFrame 84), .arrive 6, .pollRead .pending .ready]

theorem execute_answers_two :
    ∃ final, execute step (System.start .standard [] []) answeredEvents = some final ∧
      collected (final.responses 1).received =
        .ok [.commandComplete [66], .readyForQuery 84] := by
  have evaluated : (execute step (System.start .standard [] []) answeredEvents).any (fun final =>
      decide (Drained final) && (final.responses 1).alive &&
        decide ((final.server.answers 1).map (·.message) =
          [.commandComplete [66], .readyForQuery 84])) = true := by
    decide +kernel
  obtain ⟨final, run, facts⟩ := (Option.any_eq_true ..).mp evaluated
  simp only [Bool.and_eq_true, decide_eq_true_eq] at facts
  obtain ⟨⟨drained, alive⟩, answers⟩ := facts
  obtain ⟨messages, collects, -, whole⟩ :=
    execute_answers (fun _ member => absurd member List.not_mem_nil) run 1
  refine ⟨final, run, ?_⟩
  rw [collects, whole drained alive, answers]

/-- In every run, reading fails only because the stream fails or ends, or because an asynchronous
message has a body that cannot be read: it finds no message without a request, and no other
asynchronous message. -/
theorem execute_excusable {delayed : List BackendMessage} {parameters : List (String × String)}
    {events : List (Event mode)} {final : System mode} {error : Error} (notices : Notices delayed)
    (run : execute step (System.start mode delayed parameters) events = some final)
    (failed : final.failure = some error) : Excusable error :=
  (invariant step step_invariant run (start_invariant parameters notices)).excusable error failed

/-- The stream ends while a request waits. -/
theorem execute_excusable_ended :
    ∃ final, execute step (System.start .standard [] [])
        ([.own (.send syncRequest)] ++ taskTurn ++ [.pollRead .ended .ready]) = some final ∧
      final.failure = some .closed ∧ Excusable .closed := by
  have evaluated : (execute step (System.start .standard [] [])
      ([.own (.send syncRequest)] ++ taskTurn ++ [.pollRead .ended .ready])).any (fun final =>
        decide (final.failure = some .closed)) = true := by
    decide +kernel
  obtain ⟨final, run, failed⟩ := (Option.any_eq_true ..).mp evaluated
  have ended := of_decide_eq_true failed
  exact ⟨final, run, ended,
    execute_excusable (fun _ member => absurd member List.not_mem_nil) run ended⟩

end OpenGauss.Driver.Session
