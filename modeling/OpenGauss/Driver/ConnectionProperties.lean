import OpenGauss.Driver.Connection
import OpenGauss.Lib.Segments

/-! Every batch goes to the request it answers: the invariant of the read side
of a connection, and what it says about whole runs. -/

set_option autoImplicit false

namespace OpenGauss.Driver.ReadSide

open Protocol Protocol.Backend Connection Lib.Execution Lib.Segments

variable {Messages : Type}

/-- A batch, with its mark of completing a request. -/
abbrev Batch := BackendMessages × Bool

/-- The batches among the items of the codec, in order. -/
def normals (items : List BackendMessage) : List Batch :=
  items.filterMap fun
    | .normal messages requestComplete => some (messages, requestComplete)
    | .async _ => none

/-- The batches between the completing batch number `request - 1`, exclusive,
and the completing batch number `request`. -/
def share (request : Nat) (batches : List Batch) : List BackendMessages :=
  (segment Prod.snd request batches).map Prod.fst

/-- Only asynchronous messages wait to be taken. -/
def OnlyAsync (items : List BackendMessage) : Prop :=
  ∀ item ∈ items, ∃ message, item = .async message

@[simp] theorem normals_append (first second : List BackendMessage) :
    normals (first ++ second) = normals first ++ normals second :=
  List.filterMap_append

@[simp] theorem normals_async (message : Message) (items : List BackendMessage) :
    normals (.async message :: items) = normals items := rfl

@[simp] theorem normals_normal (messages : BackendMessages) (requestComplete : Bool)
    (items : List BackendMessage) :
    normals (.normal messages requestComplete :: items) =
      (messages, requestComplete) :: normals items := rfl

@[simp] theorem normals_nil : normals [] = [] := rfl

theorem OnlyAsync.normals {items : List BackendMessage} (only : OnlyAsync items) :
    normals items = [] := by
  induction items with
  | nil => rfl
  | cons item items ih =>
      obtain ⟨message, rfl⟩ := only item (List.mem_cons_self ..)
      exact ih fun other member => only other (List.mem_cons_of_mem _ member)

theorem share_concat (request : Nat) (batches : List Batch) (batch : Batch) :
    share request (batches ++ [batch]) =
      if request = batches.countP Prod.snd then share request batches ++ [batch.1]
      else share request batches := by
  rw [share, segment_concat]
  split
  · rw [List.map_append, List.map_singleton]
    rfl
  · rfl

/-- The batches taken off the stream so far, `routed`, and where the others are. -/
structure Routing (system : System Messages) (routed : List Batch) : Prop where
  /-- The requests answered, those waiting for a response and those waiting to
  be sent are all requests, in order. -/
  senders : List.range (routed.countP Prod.snd) ++
    (system.connection.responses.map (·.sender) ++
      system.connection.receiver.map (·.sender)) = List.range system.requests
  received : ∀ request, (system.channels request).received <+: share request routed
  receivedAlive : ∀ request, (system.channels request).alive = true →
    (system.channels request).received = share request routed
  arrived : ∃ rest, normals system.arrived = routed ++ rest ∧
    (system.failed = none →
      rest = normals system.connection.pendingResponses ++ normals system.stream)
  /-- What is put off is asynchronous, or one batch of the request in front. -/
  pending : system.failed = none →
    OnlyAsync system.connection.pendingResponses ∨
      ∃ messages requestComplete,
        system.connection.pendingResponses = [.normal messages requestComplete] ∧
          system.connection.responses ≠ []

def Invariant (system : System Messages) : Prop := ∃ routed, Routing system routed

theorem start_invariant {delayed : List BackendMessage} (parameters : List (String × String))
    (only : OnlyAsync delayed) :
    Invariant (System.start delayed parameters : System Messages) := by
  refine ⟨[], ?_⟩
  refine { senders := rfl, received := ?_, receivedAlive := ?_, arrived := ?_, pending := ?_ }
  · intro request
    exact List.nil_prefix
  · intro request alive
    rfl
  · exact ⟨[], rfl, fun _ => by rw [System.start, Connection.new, only.normals]; rfl⟩
  · intro unfailed
    exact .inl only

/-- The request in front is the one numbered by the completing batches so far. -/
theorem Routing.front {system : System Messages} {routed : List Batch} {response : Response}
    {responses : List Response} (routing : Routing system routed)
    (waiting : system.connection.responses = response :: responses) :
    response.sender = routed.countP Prod.snd := by
  have senders := congrArg (fun requests => requests[routed.countP Prod.snd]?) routing.senders
  simp only [waiting, List.map_cons, List.cons_append] at senders
  rw [List.getElem?_append_right (by simp)] at senders
  simp only [List.length_range, Nat.sub_self, List.getElem?_cons_zero] at senders
  obtain ⟨_, same⟩ := List.getElem?_eq_some_iff.mp senders.symm
  rw [List.getElem_range] at same
  exact same.symm

/-- The queue of waiting requests after the batch of the request in front. -/
theorem Routing.senders_concat {system : System Messages} {routed : List Batch}
    {response : Response} {responses : List Response} (batch : Batch)
    (routing : Routing system routed)
    (waiting : system.connection.responses = response :: responses) :
    List.range ((routed ++ [batch]).countP Prod.snd) ++
      ((if batch.2 then responses else response :: responses).map (·.sender) ++
        system.connection.receiver.map (·.sender)) = List.range system.requests := by
  have front := routing.front waiting
  have senders := routing.senders
  rw [waiting, List.map_cons] at senders
  rw [List.countP_append, List.countP_singleton]
  cases complete : batch.2 with
  | false => simpa using senders
  | true =>
      simp only [if_true, List.range_succ]
      rw [← senders, ← front]
      simp

theorem deliver_other {channels : Nat → Channel} {sender request : Nat}
    (messages : BackendMessages) (other : request ≠ sender) :
    deliver channels (some (sender, messages)) request = channels request := by
  simp [deliver, other]

theorem deliver_alive {channels : Nat → Channel} {sender : Nat} (messages : BackendMessages)
    (alive : (channels sender).alive = true) :
    deliver channels (some (sender, messages)) sender =
      { channels sender with received := (channels sender).received ++ [messages] } := by
  simp [deliver, alive]

theorem deliver_gone {channels : Nat → Channel} {sender : Nat} (messages : BackendMessages)
    (gone : (channels sender).alive = false) :
    deliver channels (some (sender, messages)) sender = channels sender := by
  simp [deliver, gone]

/-- What the channels hold after a batch has been given to the request in front. -/
theorem deliver_share {channels : Nat → Channel} {routed : List Batch} (batch : Batch)
    (received : ∀ request, (channels request).received <+: share request routed)
    (receivedAlive : ∀ request, (channels request).alive = true →
      (channels request).received = share request routed) (request : Nat) :
    let channels' := deliver channels (some (routed.countP Prod.snd, batch.1))
    (channels' request).received <+: share request (routed ++ [batch]) ∧
      ((channels' request).alive = true →
        (channels' request).received = share request (routed ++ [batch])) := by
  intro channels'
  rw [share_concat]
  by_cases front : request = routed.countP Prod.snd
  · rw [if_pos front]
    subst front
    cases alive : (channels (routed.countP Prod.snd)).alive with
    | true =>
        simp only [channels', deliver_alive batch.1 alive, receivedAlive _ alive]
        exact ⟨List.prefix_rfl, fun _ => trivial⟩
    | false =>
        simp only [channels', deliver_gone batch.1 alive, alive, Bool.false_eq_true,
          false_implies, and_true]
        exact (received _).trans (List.prefix_append ..)
  · rw [if_neg front]
    simp only [channels', deliver_other batch.1 front]
    exact ⟨received request, receivedAlive request⟩

/-- What the channels hold when the batch of a request that is gone is dropped. -/
theorem dropped_share {channels : Nat → Channel} {routed : List Batch} (batch : Batch)
    (gone : (channels (routed.countP Prod.snd)).alive = false)
    (received : ∀ request, (channels request).received <+: share request routed)
    (receivedAlive : ∀ request, (channels request).alive = true →
      (channels request).received = share request routed) (request : Nat) :
    (channels request).received <+: share request (routed ++ [batch]) ∧
      ((channels request).alive = true →
        (channels request).received = share request (routed ++ [batch])) := by
  have delivered := deliver_share batch received receivedAlive request
  by_cases front : request = routed.countP Prod.snd
  · subst front
    simpa only [deliver_gone batch.1 gone] using delivered
  · simpa only [deliver_other batch.1 front] using delivered

theorem pollReadAsync_keeps (connection : Connection Messages) (message : Message) :
    (connection.pollReadAsync message).sent = none ∧
      ∃ parameters, (connection.pollReadAsync message).connection =
        { connection with parameters } := by
  cases message with
  | noticeResponse storage =>
      rw [pollReadAsync]
      cases DbError.parse storage with
      | error error => exact ⟨rfl, _, rfl⟩
      | ok error => exact ⟨rfl, _, rfl⟩
  | notificationResponse body =>
      rw [pollReadAsync]
      cases getStr body.channel with
      | error error => exact ⟨rfl, _, rfl⟩
      | ok channel =>
          cases getStr body.message with
          | error error => exact ⟨rfl, _, rfl⟩
          | ok payload => exact ⟨rfl, _, rfl⟩
  | parameterStatus body =>
      rw [pollReadAsync]
      cases getStr body.name with
      | error error => exact ⟨rfl, _, rfl⟩
      | ok name =>
          cases getStr body.value with
          | error error => exact ⟨rfl, _, rfl⟩
          | ok value => exact ⟨rfl, _, rfl⟩
  | _ => exact ⟨rfl, _, rfl⟩

private theorem Routing.settle_async {system : System Messages} {routed : List Batch}
    {pendingResponses stream : List BackendMessage} {message : Message}
    (routing : Routing system routed) (unfailed : system.failed = none)
    (conserved : normals system.connection.pendingResponses ++ normals system.stream =
      normals pendingResponses ++ normals stream)
    (only : OnlyAsync pendingResponses) :
    Routing (settle system stream
      ({ system.connection with pendingResponses }.pollReadAsync message)) routed := by
  obtain ⟨unsent, parameters, kept⟩ :=
    pollReadAsync_keeps { system.connection with pendingResponses } message
  obtain ⟨rest, arrived, remaining⟩ := routing.arrived
  refine { senders := ?_, received := ?_, receivedAlive := ?_, arrived := ?_, pending := ?_ }
  · simpa only [settle, kept] using routing.senders
  · simpa only [settle, unsent, deliver] using routing.received
  · simpa only [settle, unsent, deliver] using routing.receivedAlive
  · refine ⟨rest, arrived, fun _ => ?_⟩
    simp only [settle, kept]
    exact (remaining unfailed).trans conserved
  · intro _
    simp only [settle, kept]
    exact .inl only

private theorem Routing.settle_normal {system : System Messages} {routed : List Batch}
    {stream : List BackendMessage} {messages : BackendMessages} {requestComplete : Bool}
    {sender : PollReady}
    (routing : Routing system routed) (unfailed : system.failed = none)
    (conserved : normals system.connection.pendingResponses ++ normals system.stream =
      (messages, requestComplete) :: normals stream)
    (gone : sender = .hungUp → frontAlive system = false) :
    Invariant (settle system stream
      ({ system.connection with pendingResponses := [] }.pollReadNormal sender messages
        requestComplete)) := by
  obtain ⟨rest, arrived, remaining⟩ := routing.arrived
  have taken := (remaining unfailed).trans conserved
  cases waiting : system.connection.responses with
  | nil =>
      -- no request: the connection fails, and what has been routed stays
      refine ⟨routed, ?_⟩
      simp only [settle, pollReadNormal, waiting]
      refine { senders := ?_, received := routing.received,
               receivedAlive := routing.receivedAlive, arrived := ?_, pending := ?_ }
      · simpa only [waiting] using routing.senders
      · exact ⟨rest, arrived, by simp⟩
      · simp
  | cons response responses =>
      have front := routing.front waiting
      have routedArrived :
          normals system.arrived = (routed ++ [(messages, requestComplete)]) ++ normals stream := by
        rw [arrived, taken, List.append_assoc]
        rfl
      cases sender with
      | ready =>
          have shares := deliver_share (messages, requestComplete) routing.received
            routing.receivedAlive
          refine ⟨routed ++ [(messages, requestComplete)], ?_⟩
          simp only [settle, pollReadNormal, waiting, front]
          refine { senders := ?_, received := fun request => (shares request).1,
                   receivedAlive := fun request => (shares request).2,
                   arrived := ⟨_, routedArrived, fun _ => rfl⟩, pending := fun _ => .inl ?_ }
          · exact routing.senders_concat _ waiting
          · simp [OnlyAsync]
      | hungUp =>
          have frontGone : (system.channels (routed.countP Prod.snd)).alive = false := by
            have frontGone := gone rfl
            simpa only [frontAlive, waiting, front] using frontGone
          have shares := dropped_share (messages, requestComplete) frontGone routing.received
            routing.receivedAlive
          refine ⟨routed ++ [(messages, requestComplete)], ?_⟩
          simp only [settle, pollReadNormal, waiting]
          refine { senders := ?_, received := fun request => (shares request).1,
                   receivedAlive := fun request => (shares request).2,
                   arrived := ⟨_, routedArrived, fun _ => rfl⟩, pending := fun _ => .inl ?_ }
          · exact routing.senders_concat _ waiting
          · simp [OnlyAsync]
      | pending =>
          -- put off: the same request stays in front, and the batch is still to be taken
          refine ⟨routed, ?_⟩
          simp only [settle, pollReadNormal, waiting]
          refine { senders := ?_, received := routing.received,
                   receivedAlive := routing.receivedAlive, arrived := ⟨rest, arrived, ?_⟩,
                   pending := fun _ => .inr ⟨messages, requestComplete, rfl, by simp⟩ }
          · simpa only [waiting] using routing.senders
          · intro _
            rw [taken]
            rfl

/-- A turn without an item to take changes nothing but the outcome. -/
private theorem Routing.settle_idle {system : System Messages} {routed : List Batch}
    {result : Option (Except Error (Option AsyncMessage))}
    (routing : Routing system routed) (unfailed : system.failed = none) :
    Routing (settle system system.stream { connection := system.connection, result }) routed := by
  obtain ⟨rest, arrived, remaining⟩ := routing.arrived
  exact { senders := routing.senders
          received := routing.received
          receivedAlive := routing.receivedAlive
          arrived := ⟨rest, arrived, fun _ => remaining unfailed⟩
          pending := fun _ => routing.pending unfailed }

/-- What a turn does with the item it has taken. -/
private def takeItem (connection : Connection Messages) (sender : PollReady) :
    BackendMessage → Turn Messages
  | .async message => connection.pollReadAsync message
  | .normal messages requestComplete => connection.pollReadNormal sender messages requestComplete

private theorem readTurn_retry {system : System Messages} {item : BackendMessage}
    {pendingResponses : List BackendMessage} (idle : Idle) (sender : PollReady)
    (waiting : system.connection.pendingResponses = item :: pendingResponses) :
    readTurn system idle sender =
      settle system system.stream
        (takeItem { system.connection with pendingResponses } sender item) := by
  cases item <;> simp [readTurn, pollReadTurn, pollResponse, waiting, takeItem]

private theorem readTurn_item {system : System Messages} {item : BackendMessage}
    {stream : List BackendMessage} (idle : Idle) (sender : PollReady)
    (nothing : system.connection.pendingResponses = [])
    (arriving : system.stream = item :: stream) :
    readTurn system idle sender =
      settle system stream
        (takeItem { system.connection with pendingResponses := [] } sender item) := by
  have same : { system.connection with pendingResponses := [] } = system.connection := by
    rw [← nothing]
  rw [same]
  cases item <;>
    simp [readTurn, pollReadTurn, pollResponse, pollStream, nothing, arriving, takeItem]

private theorem readTurn_idle {system : System Messages} (idle : Idle) (sender : PollReady)
    (nothing : system.connection.pendingResponses = []) (empty : system.stream = []) :
    ∃ result, readTurn system idle sender =
      settle system system.stream { connection := system.connection, result } := by
  cases idle <;>
    exact ⟨_, by simp only [readTurn, pollReadTurn, pollResponse, pollStream, nothing, empty,
      if_true, List.drop_nil]; rfl⟩

theorem readTurn_invariant {system : System Messages} {idle : Idle} {sender : PollReady}
    (holds : Invariant system) (unfailed : system.failed = none)
    (gone : sender = .hungUp → frontAlive system = false) :
    Invariant (readTurn system idle sender) := by
  obtain ⟨routed, routing⟩ := holds
  cases waiting : system.connection.pendingResponses with
  | cons item pendingResponses =>
      rw [readTurn_retry idle sender waiting]
      rcases routing.pending unfailed with only | ⟨messages, requestComplete, one, _⟩
      · obtain ⟨message, rfl⟩ := only item (waiting ▸ List.mem_cons_self ..)
        refine ⟨routed, routing.settle_async unfailed (by simp [waiting]) ?_⟩
        intro other member
        exact only other (waiting ▸ List.mem_cons_of_mem _ member)
      · obtain ⟨rfl, rfl⟩ := List.cons.inj (waiting.symm.trans one)
        exact routing.settle_normal unfailed (by simp [waiting]) gone
  | nil =>
      cases arriving : system.stream with
      | nil =>
          obtain ⟨result, turned⟩ := readTurn_idle idle sender waiting arriving
          exact turned ▸ ⟨routed, routing.settle_idle unfailed⟩
      | cons item stream =>
          rw [readTurn_item idle sender waiting arriving]
          cases item with
          | async message =>
              refine ⟨routed, routing.settle_async unfailed (by simp [waiting, arriving]) ?_⟩
              simp [OnlyAsync]
          | normal messages requestComplete =>
              exact routing.settle_normal unfailed (by simp [waiting, arriving]) gone

theorem pollRequest_invariant {system : System Messages} (holds : Invariant system) :
    Invariant { system with connection := system.connection.pollRequest.2 } := by
  obtain ⟨routed, routing⟩ := holds
  refine ⟨routed, ?_⟩
  cases held : system.connection.pendingRequest with
  | some messages =>
      simp only [pollRequest, held]
      exact { routing with }
  | none =>
      cases queued : system.connection.receiver with
      | nil =>
          simp only [pollRequest, held, queued]
          exact { routing with }
      | cons request receiver =>
          simp only [pollRequest, held, queued]
          refine { senders := ?_, received := routing.received,
                   receivedAlive := routing.receivedAlive, arrived := routing.arrived,
                   pending := ?_ }
          · simpa [queued] using routing.senders
          · intro unfailed
            rcases routing.pending unfailed with only | ⟨messages, complete, one, _⟩
            · exact .inl only
            · exact .inr ⟨messages, complete, one, by simp⟩

theorem step_invariant (system : System Messages) (event : Event Messages)
    (next : System Messages) (holds : Invariant system) (stepped : step system event = some next) :
    Invariant next := by
  cases event with
  | send messages =>
      simp only [step] at stepped
      split at stepped
      · cases stepped
      · cases stepped
        obtain ⟨routed, routing⟩ := holds
        refine ⟨routed, { routing with senders := ?_ }⟩
        have senders := routing.senders
        simp only [List.map_append, List.map_cons, List.map_nil, List.range_succ, ← senders,
          List.append_assoc]
  | clientDropped =>
      cases stepped
      obtain ⟨routed, routing⟩ := holds
      exact ⟨routed, { routing with }⟩
  | pollRequest =>
      simp only [step] at stepped
      split at stepped
      · cases stepped
      · cases stepped
        exact pollRequest_invariant holds
  | holdRequest messages =>
      simp only [step] at stepped
      split at stepped
      · cases stepped
      · cases stepped
        obtain ⟨routed, routing⟩ := holds
        exact ⟨routed, { routing with }⟩
  | terminate =>
      simp only [step] at stepped
      split at stepped
      · split at stepped
        · cases stepped
          obtain ⟨routed, routing⟩ := holds
          exact ⟨routed, { routing with }⟩
        · cases stepped
      · cases stepped
  | arrive message =>
      cases stepped
      obtain ⟨routed, routing⟩ := holds
      obtain ⟨rest, arrived, remaining⟩ := routing.arrived
      refine ⟨routed, { routing with arrived := ?_ }⟩
      refine ⟨rest ++ normals [message], ?_, fun unfailed => ?_⟩
      · rw [normals_append, arrived, List.append_assoc]
      · rw [remaining unfailed, normals_append, List.append_assoc]
  | pollRead idle sender =>
      simp only [step] at stepped
      split at stepped
      · cases stepped
      · rename_i active
        split at stepped
        · cases stepped
        · rename_i possible
          cases stepped
          refine readTurn_invariant holds ?_ ?_
          · simp only [Bool.or_eq_true, not_or] at active
            simpa using active.1
          · rintro rfl
            simpa using possible
  | hangUp channel =>
      cases stepped
      obtain ⟨routed, routing⟩ := holds
      refine ⟨routed, { routing with received := ?_, receivedAlive := ?_ }⟩
      · intro request
        dsimp only
        split
        · exact routing.received request
        · exact routing.received request
      · intro request alive
        dsimp only at alive ⊢
        split at alive
        · cases alive
        · rename_i other
          rw [if_neg other]
          exact routing.receivedAlive request alive

/-- In every run, a request whose receiver is alive has been handed exactly its
share of the batches taken off the stream so far, and one whose receiver is gone
a first part of its own share. As long as the connection has not failed, the
other batches are put off or in the stream, in order; so when both are empty,
every living request has its share of all batches that have arrived. -/
theorem execute_routes_batches {delayed : List BackendMessage}
    {parameters : List (String × String)} {events : List (Event Messages)}
    {final : System Messages} (only : OnlyAsync delayed)
    (run : execute step (System.start delayed parameters) events = some final) :
    ∃ routed rest, normals final.arrived = routed ++ rest ∧
      (∀ request, (final.channels request).alive = true →
        (final.channels request).received = share request routed) ∧
      (∀ request, (final.channels request).received <+: share request routed) ∧
      (final.failed = none →
        rest = normals final.connection.pendingResponses ++ normals final.stream) ∧
      (final.failed = none → final.connection.pendingResponses = [] → final.stream = [] →
        ∀ request, (final.channels request).alive = true →
          (final.channels request).received = share request (normals final.arrived)) := by
  obtain ⟨routed, routing⟩ := invariant step step_invariant run (start_invariant parameters only)
  obtain ⟨rest, arrived, remaining⟩ := routing.arrived
  refine ⟨routed, rest, arrived, routing.receivedAlive, routing.received, remaining, ?_⟩
  intro unfailed nothing empty request alive
  have taken := remaining unfailed
  rw [nothing, empty, normals_nil, List.append_nil] at taken
  rw [arrived, taken, List.append_nil]
  exact routing.receivedAlive request alive

/-- The first request is put off once and goes away before its last batch; the
second one gets its own batch. -/
theorem execute_routes_batches_hangUp :
    ∃ final : System Unit,
      execute step (System.start [] [])
        [.send (), .pollRead .pending .ready, .send (), .pollRequest, .pollRequest,
          .arrive (.normal ⟨[1], .openGauss⟩ false), .pollRead .pending .pending,
          .arrive (.normal ⟨[2], .openGauss⟩ true), .pollRead .pending .ready, .hangUp 0,
          .pollRead .pending .hungUp, .arrive (.normal ⟨[3], .openGauss⟩ true),
          .pollRead .pending .ready] = some final ∧
      (final.channels 1).received = [⟨[3], .openGauss⟩] ∧
      (final.channels 1).received = share 1 (normals final.arrived) := by
  have evaluated : ((execute step (System.start [] [])
      [.send (), .pollRead .pending .ready, .send (), .pollRequest, .pollRequest,
        .arrive (.normal ⟨[1], .openGauss⟩ false), .pollRead .pending .pending,
        .arrive (.normal ⟨[2], .openGauss⟩ true), .pollRead .pending .ready, .hangUp 0,
        .pollRead .pending .hungUp, .arrive (.normal ⟨[3], .openGauss⟩ true),
        .pollRead .pending .ready] : Option (System Unit)).any fun final =>
      decide ((final.channels 1).received = [⟨[3], .openGauss⟩]) && (final.channels 1).alive &&
        final.failed.isNone && final.connection.pendingResponses.isEmpty &&
        final.stream.isEmpty) = true := by
    decide +kernel
  obtain ⟨final, run, facts⟩ := (Option.any_eq_true ..).mp evaluated
  simp only [Bool.and_eq_true, decide_eq_true_eq, Option.isNone_iff_eq_none,
    List.isEmpty_iff] at facts
  obtain ⟨⟨⟨⟨received, alive⟩, unfailed⟩, nothing⟩, empty⟩ := facts
  obtain ⟨_, _, _, _, _, _, drained⟩ := execute_routes_batches (by simp [OnlyAsync]) run
  exact ⟨final, run, received, drained unfailed nothing empty 1 alive⟩

end OpenGauss.Driver.ReadSide
