import OpenGauss.Lib.Execution

/-! The synchronous client (`opengauss`, `connection.rs` and `notifications.rs`): a call
drives the connection's stream until it has its answer, and notifications that arrive
meanwhile are queued. What the stream and the future of the call answer when they are polled
is an input of the step that polls them. -/

set_option autoImplicit false

namespace OpenGauss.Sync

open Lib.Execution

variable {Notification DbError Error : Type}

inductive AsyncMessage (Notification DbError : Type) where
  | notice (notice : DbError)
  | notification (notification : Notification)
  | other
  deriving DecidableEq, Repr

/-- What the connection's stream answers to `poll_next`. -/
inductive PollNext (Notification DbError Error : Type) where
  | message (message : AsyncMessage Notification DbError)
  | failed (error : Error)
  | ended
  | pending
  deriving DecidableEq, Repr

inductive Poll (Value : Type) where
  | ready (value : Value)
  | pending
  deriving DecidableEq, Repr

/-- `Connection`; `noticed` are the calls of the notice callback. -/
structure Connection (Notification DbError : Type) where
  notifications : List Notification
  noticed : List DbError
  deriving DecidableEq, Repr

/-- How the loop of `poll_block_on` goes on. -/
inductive Loop (Error : Type) where
  | again
  | done (done : Bool)
  | failed (error : Error)
  deriving DecidableEq, Repr

def Connection.turn (connection : Connection Notification DbError) :
    PollNext Notification DbError Error → Connection Notification DbError × Loop Error
  | .message (.notification notification) =>
      ({ connection with notifications := connection.notifications ++ [notification] }, .again)
  | .message (.notice notice) =>
      ({ connection with noticed := connection.noticed ++ [notice] }, .again)
  | .message .other => (connection, .again)
  | .failed error => (connection, .failed error)
  | .ended => (connection, .done true)
  | .pending => (connection, .done false)

/-- `VecDeque::pop_front`. -/
def popFront : List Notification → Option Notification × List Notification
  | [] => (none, [])
  | notification :: notifications => (some notification, notifications)

/-- What a call returns. -/
inductive Answer (Notification Error : Type) where
  | next (result : Except Error (Option Notification))
  | finished (result : Except Error Unit)
  deriving DecidableEq, Repr

/-- The iterators. The deadline of `TimeoutIter` is not modelled: whether its delay has
elapsed is what the delay answers when it is polled. -/
inductive Iterator where
  | iter
  | blockingIter
  | timeoutIter
  deriving DecidableEq, Repr

/-- A call on the client: `next` of an iterator, or `block_on` of a request. -/
inductive Call where
  | next (iterator : Iterator)
  | blockOn
  deriving DecidableEq, Repr

/-- The closure of `Iter::next`. -/
def iterNext (notifications : List Notification) :
    Poll (Answer Notification Error) × List Notification :=
  let (notification, notifications) := popFront notifications
  (.ready (.next (.ok notification)), notifications)

/-- The closure of `BlockingIter::next`. -/
def blockingIterNext (notifications : List Notification) (done : Bool) :
    Poll (Answer Notification Error) × List Notification :=
  match popFront notifications with
  | (some notification, notifications) => (.ready (.next (.ok (some notification))), notifications)
  | (none, notifications) =>
      (if done then .ready (.next (.ok none)) else .pending, notifications)

/-- The closure of `TimeoutIter::next`, with the answer of its delay. -/
def timeoutIterNext (delay : Poll (Except Error Unit)) (notifications : List Notification)
    (done : Bool) : Poll (Answer Notification Error) × List Notification :=
  match popFront notifications with
  | (some notification, notifications) => (.ready (.next (.ok (some notification))), notifications)
  | (none, notifications) =>
      if done then (.ready (.next (.ok none)), notifications)
      else
        match delay with
        | .pending => (.pending, notifications)
        | .ready _ => (.ready (.next (.ok none)), notifications)

/-- The closure of `block_on`, with the answer of its future. -/
def blockOnPoll (future : Poll (Except Error Unit)) (notifications : List Notification) :
    Poll (Answer Notification Error) × List Notification :=
  match future with
  | .pending => (.pending, notifications)
  | .ready result => (.ready (.finished result), notifications)

/-- The closure that a call has given to `poll_block_on`. -/
def Call.poll (call : Call) (future : Poll (Except Error Unit))
    (notifications : List Notification) (done : Bool) :
    Poll (Answer Notification Error) × List Notification :=
  match call with
  | .next .iter => iterNext notifications
  | .next .blockingIter => blockingIterNext notifications done
  | .next .timeoutIter => timeoutIterNext future notifications done
  | .blockOn => blockOnPoll future notifications

/-- A client: its connection, the call that is waiting inside of `poll_block_on`, and what
the calls have returned so far. -/
structure Client (Notification DbError Error : Type) where
  connection : Connection Notification DbError
  waiting : Option Call
  returned : List (Answer Notification Error)
  deriving DecidableEq, Repr

def Client.new : Client Notification DbError Error := ⟨⟨[], []⟩, none, []⟩

inductive Event (Notification DbError Error : Type) where
  | call (call : Call)
  | poll (stream : PollNext Notification DbError Error) (future : Poll (Except Error Unit))
  deriving DecidableEq, Repr

def Client.answer (client : Client Notification DbError Error)
    (answer : Answer Notification Error) : Client Notification DbError Error :=
  { client with waiting := none, returned := client.returned ++ [answer] }

/-- The closure of the waiting call is polled. -/
def Client.pollClosure (client : Client Notification DbError Error) (call : Call)
    (future : Poll (Except Error Unit)) (done : Bool) : Client Notification DbError Error :=
  let (polled, notifications) := call.poll future client.connection.notifications done
  let client := { client with connection := { client.connection with notifications } }
  match polled with
  | .pending => client
  | .ready answer => client.answer answer

def Call.failed (error : Error) : Call → Answer Notification Error
  | .next _ => .next (.error error)
  | .blockOn => .finished (.error error)

/-- The beginning of a call: `next` of an iterator looks into the queue first. -/
def Client.start (client : Client Notification DbError Error) :
    Call → Client Notification DbError Error
  | .blockOn => { client with waiting := some .blockOn }
  | .next iterator =>
      match popFront client.connection.notifications with
      | (some notification, notifications) =>
          { client with connection := { client.connection with notifications } }.answer
            (.next (.ok (some notification)))
      | (none, _) => { client with waiting := some (.next iterator) }

/-- One step: a call begins when none is waiting, or the stream is polled for the one that
is. -/
def step (client : Client Notification DbError Error) :
    Event Notification DbError Error → Option (Client Notification DbError Error)
  | .call call => if client.waiting.isSome then none else some (client.start call)
  | .poll stream future =>
      client.waiting.map fun call =>
        let (connection, loop) := client.connection.turn stream
        let client := { client with connection }
        match loop with
        | .again => client
        | .failed error => client.answer (call.failed error)
        | .done done => client.pollClosure call future done

/-- `Notifications::len`. -/
def Client.len (client : Client Notification DbError Error) : Nat :=
  client.connection.notifications.length

/-! ### Conservation -/

/-- The notification that arrives in an event. -/
def Event.arrival : Event Notification DbError Error → List Notification
  | .poll (.message (.notification notification)) _ => [notification]
  | _ => []

/-- The notification that an answer hands out. -/
def Answer.handed : Answer Notification Error → List Notification
  | .next (.ok notification) => notification.toList
  | _ => []

/-- What the stream has yielded. -/
def received (events : List (Event Notification DbError Error)) : List Notification :=
  events.flatMap Event.arrival

/-- What the iterators have handed out. -/
def Client.handed (client : Client Notification DbError Error) : List Notification :=
  client.returned.flatMap Answer.handed

/-- What has been handed out or is queued, in order. -/
def Client.owned (client : Client Notification DbError Error) : List Notification :=
  client.handed ++ client.connection.notifications

def Poll.handed : Poll (Answer Notification Error) → List Notification
  | .ready answer => answer.handed
  | .pending => []

theorem popFront_conserves (notifications : List Notification) :
    (popFront notifications).1.toList ++ (popFront notifications).2 = notifications := by
  cases notifications with
  | nil => rfl
  | cons notification notifications => rfl

/-- A closure takes from the queue what it returns, and nothing else. -/
theorem Call.poll_conserves (call : Call) (future : Poll (Except Error Unit))
    (notifications : List Notification) (done : Bool) :
    (call.poll future notifications done).1.handed ++
      (call.poll future notifications done).2 = notifications := by
  cases call with
  | blockOn => cases future <;> rfl
  | next iterator =>
      cases iterator with
      | iter => exact popFront_conserves notifications
      | blockingIter =>
          cases notifications with
          | nil => cases done <;> rfl
          | cons notification notifications => rfl
      | timeoutIter =>
          cases notifications with
          | nil =>
              cases done with
              | true => rfl
              | false => cases future <;> rfl
          | cons notification notifications => rfl

@[simp] theorem Client.handed_answer (client : Client Notification DbError Error)
    (answer : Answer Notification Error) :
    (client.answer answer).handed = client.handed ++ answer.handed := by
  rw [handed, Client.answer, List.flatMap_append, List.flatMap_singleton, handed]

theorem Client.owned_answer (client : Client Notification DbError Error)
    (answer : Answer Notification Error) :
    (client.answer answer).owned =
      client.handed ++ answer.handed ++ client.connection.notifications := by
  rw [owned, handed_answer]
  rfl

theorem Client.owned_pollClosure (client : Client Notification DbError Error) (call : Call)
    (future : Poll (Except Error Unit)) (done : Bool) :
    (client.pollClosure call future done).owned = client.owned := by
  have conserved := call.poll_conserves future client.connection.notifications done
  rw [Client.pollClosure]
  cases polled : call.poll future client.connection.notifications done with
  | mk outcome rest =>
      rw [polled] at conserved
      cases outcome with
      | pending => exact congrArg (client.handed ++ ·) conserved
      | ready answer =>
          dsimp only
          rw [owned_answer, owned, ← conserved, List.append_assoc]
          rfl

theorem Client.owned_start (client : Client Notification DbError Error) (call : Call) :
    (client.start call).owned = client.owned := by
  cases call with
  | blockOn => rfl
  | next iterator =>
      have conserved := popFront_conserves client.connection.notifications
      rw [Client.start]
      cases popped : popFront client.connection.notifications with
      | mk notification rest =>
          rw [popped] at conserved
          cases notification with
          | none => rfl
          | some notification =>
              dsimp only
              rw [owned_answer, owned, ← conserved, List.append_assoc]
              rfl

theorem Connection.turn_notifications (connection : Connection Notification DbError)
    (stream : PollNext Notification DbError Error) (future : Poll (Except Error Unit)) :
    (connection.turn stream).1.notifications =
      connection.notifications ++ Event.arrival (.poll stream future) := by
  cases stream with
  | message message =>
      cases message with
      | notification notification => rfl
      | notice notice => exact (List.append_nil _).symm
      | other => exact (List.append_nil _).symm
  | failed error => exact (List.append_nil _).symm
  | ended => exact (List.append_nil _).symm
  | pending => exact (List.append_nil _).symm

/-- A step adds what arrives in it. -/
theorem owned_step {client next : Client Notification DbError Error}
    {event : Event Notification DbError Error} (stepped : step client event = some next) :
    next.owned = client.owned ++ event.arrival := by
  cases event with
  | call call =>
      rw [step] at stepped
      split at stepped
      · cases stepped
      · obtain rfl := Option.some.inj stepped
        rw [Client.owned_start]
        exact (List.append_nil _).symm
  | poll stream future =>
      obtain ⟨call, waiting, rfl⟩ := Option.map_eq_some_iff.mp stepped
      have queued := client.connection.turn_notifications stream future
      cases turned : client.connection.turn stream with
      | mk connection loop =>
          rw [turned] at queued
          have grown : client.handed ++ connection.notifications =
              client.owned ++ Event.arrival (.poll stream future) := by
            rw [queued, Client.owned, List.append_assoc]
          cases loop with
          | again => exact grown
          | done done =>
              refine Eq.trans ?_ grown
              exact Client.owned_pollClosure _ call future done
          | failed error =>
              refine Eq.trans ?_ grown
              have nothing : (call.failed error : Answer Notification Error).handed = [] := by
                cases call <;> rfl
              refine (Client.owned_answer _ _).trans ?_
              rw [nothing, List.append_nil]
              rfl

theorem owned_execute {client final : Client Notification DbError Error}
    {events : List (Event Notification DbError Error)}
    (run : execute step client events = some final) :
    final.owned = client.owned ++ received events := by
  induction events generalizing client with
  | nil =>
      rw [execute_nil, Option.some.injEq] at run
      subst run
      exact (List.append_nil _).symm
  | cons event events ih =>
      obtain ⟨next, stepped, later⟩ := (execute_cons step).mp run
      rw [ih later, owned_step stepped, List.append_assoc]
      rfl

/-- An iterator hands out what is queued, one notification a call. -/
theorem execute_calls (iterator : Iterator) {queued : List Notification}
    {client : Client Notification DbError Error} (idle : client.waiting = none)
    (queue : client.connection.notifications = queued) :
    ∃ final, execute step client (List.replicate queued.length (.call (.next iterator))) =
        some final ∧ final.waiting = none ∧ final.handed = client.handed ++ queued ∧
      final.connection.notifications = [] := by
  induction queued generalizing client with
  | nil => exact ⟨client, rfl, idle, (List.append_nil _).symm, queue⟩
  | cons notification queued ih =>
      have called : step client (.call (.next iterator)) =
          some ({ client with
            connection := { client.connection with notifications := queued } }.answer
              (.next (.ok (some notification)))) := by
        rw [step, idle, Client.start, queue]
        rfl
      obtain ⟨final, run, rest, handed, empty⟩ := @ih ({ client with
          connection := { client.connection with notifications := queued } }.answer
            (.next (.ok (some notification)))) rfl rfl
      refine ⟨final, (execute_cons step).mpr ⟨_, called, run⟩, rest, ?_, empty⟩
      rw [handed, Client.handed_answer, List.append_assoc]
      rfl

/-- Over every run, the notifications that the iterators have handed out and those that are
queued are the ones that have arrived, in order and each once. -/
theorem notifications_conserved {events : List (Event Notification DbError Error)}
    {client : Client Notification DbError Error}
    (run : execute step Client.new events = some client) :
    client.handed <+: received events ∧
      client.handed ++ client.connection.notifications = received events ∧
      client.handed.length + client.len = (received events).length ∧
      (∀ event next, step client event = some next → next.handed = client.handed →
        next.connection.notifications = client.connection.notifications ++ event.arrival) ∧
      (client.waiting = none → ∀ iterator, ∃ final,
        execute step client (List.replicate client.len (.call (.next iterator))) = some final ∧
          final.handed = received events ∧ final.len = 0) := by
  have owned : client.handed ++ client.connection.notifications = received events :=
    owned_execute run
  refine ⟨⟨_, owned⟩, owned, ?_, ?_, ?_⟩
  · rw [← owned, List.length_append]
    rfl
  · intro event next stepped nothing
    have more := owned_step stepped
    rw [Client.owned, Client.owned, nothing, List.append_assoc] at more
    exact List.append_cancel_left more
  · intro idle iterator
    obtain ⟨final, drained, -, handed, empty⟩ := execute_calls iterator idle rfl
    refine ⟨final, drained, handed.trans owned, ?_⟩
    rw [Client.len, empty]
    rfl

/-- Two notifications arrive, the one for a request, the other for an iterator that fails. -/
def twoArrivals : List (Event Nat Unit Unit) :=
  [.call .blockOn, .poll (.message (.notification 1)) .pending, .poll .pending (.ready (.ok ())),
    .call (.next .iter), .call (.next .timeoutIter), .poll .pending (.ready (.ok ())),
    .call (.next .blockingIter), .poll (.message (.notification 2)) .pending,
    .poll (.failed ()) .pending]

theorem notifications_conserved_two :
    ∃ client, execute step Client.new twoArrivals = some client ∧ client.handed = [1] ∧
      client.len = 1 ∧ client.handed <+: [1, 2] := by
  have run : ∃ client, execute step Client.new twoArrivals = some client ∧ client.handed = [1] ∧
      client.len = 1 := ⟨_, rfl, rfl, rfl⟩
  obtain ⟨client, run, handed, len⟩ := run
  exact ⟨client, run, handed, len, (notifications_conserved run).1⟩

end OpenGauss.Sync
