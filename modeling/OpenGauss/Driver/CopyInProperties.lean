import OpenGauss.Driver.CopyIn
import OpenGauss.Lib.Execution
import Mathlib.Data.List.Nodup

/-! One `ReadyForQuery` for every request, when every copy enters copy-in mode. -/

set_option autoImplicit false

namespace OpenGauss.Driver.CopyIn

open Connection Lib.Execution

/-! ### The messages on the wire -/

/-- Where in the messages of a request a place of the wire is. -/
inductive Phase where
  | between
  | extended (request : Nat)
  | copyExecute (request : Nat)
  | copySync (request : Nat)
  | copyData (request : Nat)
  | copyTail (request : Nat)

/-- One message of the wire, with the request that it is the last one of. -/
inductive Next : Phase → Sent → List Nat → Phase → Prop where
  | query (request : Nat) : Next .between ⟨request, false, .query⟩ [request] .between
  | first (request : Nat) {message : FrontendMessage} (extended : isExtended message = true) :
      Next .between ⟨request, false, message⟩ [] (.extended request)
  | more (request : Nat) {message : FrontendMessage} (extended : isExtended message = true) :
      Next (.extended request) ⟨request, false, message⟩ [] (.extended request)
  | sync (request : Nat) : Next .between ⟨request, false, .sync⟩ [request] .between
  | lastSync (request : Nat) : Next (.extended request) ⟨request, false, .sync⟩ [request] .between
  | copyBind (request : Nat) : Next .between ⟨request, true, .bind⟩ [] (.copyExecute request)
  | copyExecute (request : Nat) :
      Next (.copyExecute request) ⟨request, true, .execute⟩ [] (.copySync request)
  | copySync (request : Nat) :
      Next (.copySync request) ⟨request, true, .sync⟩ [] (.copyData request)
  | copyData (request : Nat) :
      Next (.copyData request) ⟨request, true, .copyData⟩ [] (.copyData request)
  | copyDone (request : Nat) :
      Next (.copyData request) ⟨request, true, .copyDone⟩ [] (.copyTail request)
  | copyFail (request : Nat) :
      Next (.copyData request) ⟨request, true, .copyFail⟩ [] (.copyTail request)
  | copyEnd (request : Nat) : Next (.copyTail request) ⟨request, true, .sync⟩ [request] .between

/-- The wire from one phase to another, with the requests that end on it. -/
inductive Walk : Phase → List Sent → List Nat → Phase → Prop where
  | nil (phase : Phase) : Walk phase [] [] phase
  | cons {first second last : Phase} {sent : Sent} {wire : List Sent} {ended later : List Nat}
      (next : Next first sent ended second) (walk : Walk second wire later last) :
      Walk first (sent :: wire) (ended ++ later) last

theorem Walk.append {first second last : Phase} {wire more : List Sent} {ended later : List Nat}
    (walk : Walk first wire ended second) (continued : Walk second more later last) :
    Walk first (wire ++ more) (ended ++ later) last := by
  induction walk with
  | nil => exact continued
  | cons next _ ih =>
      rw [List.cons_append, List.append_assoc]
      exact .cons next (ih continued)

theorem walk_extended (request : Nat) (messages : List FrontendMessage)
    (extended : ∀ message ∈ messages, isExtended message = true) :
    Walk (.extended request) (sent request false (messages ++ [.sync])) [request] .between := by
  induction messages with
  | nil => exact .cons (.lastSync request) (.nil _)
  | cons message messages ih =>
      have rest := ih fun other member => extended other (List.mem_cons_of_mem _ member)
      exact .cons (.more request (extended message (List.mem_cons_self ..))) rest

theorem walk_single (request : Nat) (single : Single) :
    Walk .between (sent request false single.messages) [request] .between := by
  cases single with
  | query => exact .cons (.query request) (.nil _)
  | extended messages =>
      have extended : ∀ message ∈ messages.filter isExtended, isExtended message = true :=
        fun message member => (List.mem_filter.mp member).2
      rw [Single.messages]
      cases kept : messages.filter isExtended with
      | nil => exact .cons (.sync request) (.nil _)
      | cons message rest =>
          rw [kept] at extended
          exact .cons (.first request (extended message (List.mem_cons_self ..)))
            (walk_extended request rest fun other member =>
              extended other (List.mem_cons_of_mem _ member))

theorem walk_copyInPrefix (request : Nat) :
    Walk .between (sent request true copyInPrefix) [] (.copyData request) :=
  .cons (.copyBind request) (.cons (.copyExecute request) (.cons (.copySync request) (.nil _)))

theorem walk_copyData (request : Nat) :
    Walk (.copyData request) (sent request true [.copyData]) [] (.copyData request) :=
  .cons (.copyData request) (.nil _)

theorem walk_copyDone (request : Nat) :
    Walk (.copyData request) (sent request true [.copyDone, .sync]) [request] .between :=
  .cons (.copyDone request) (.cons (.copyEnd request) (.nil _))

theorem walk_copyFail (request : Nat) :
    Walk (.copyData request) (sent request true [.copyFail, .sync]) [request] .between :=
  .cons (.copyFail request) (.cons (.copyEnd request) (.nil _))

/-! ### The server along the wire -/

/-- The modes the server can be in at a place of the wire. -/
def Agrees : Phase → Mode → Prop
  | .between, mode | .copyExecute _, mode => mode = .normal
  | .extended _, mode | .copyTail _, mode => mode = .normal ∨ mode = .skipping
  | .copySync _, mode => mode = .copyIn
  | .copyData _, mode => mode = .copyIn ∨ mode = .skipping

/-- Copy-in mode is entered by the `Execute` of `copy_in` and by nothing else. -/
def EntersCopyIn (front : Sent) (outcome : Outcome) : Prop :=
  (front.copy = true → front.message = .bind → outcome ≠ .fails) ∧
    (outcome = .entersCopyIn ↔ front.copy = true ∧ front.message = .execute)

/-- The server answers the last message of a request, and no other one. -/
theorem Next.serve {first second : Phase} {front : Sent} {ended : List Nat} {mode : Mode}
    {outcome : Outcome} (next : Next first front ended second) (agrees : Agrees first mode)
    (enters : EntersCopyIn front outcome) :
    Agrees second (mode.serve front.message outcome).1 ∧
      ended = if (mode.serve front.message outcome).2 then [front.request] else [] := by
  cases next with
  | query request | sync request =>
      obtain rfl : mode = .normal := agrees
      exact ⟨rfl, rfl⟩
  | @first request message extended =>
      obtain rfl : mode = .normal := agrees
      have plain : outcome ≠ .entersCopyIn := fun entered => by simpa using enters.2.mp entered
      cases message <;> cases outcome <;> simp_all [Agrees, Mode.serve, isExtended]
  | @more request message extended =>
      have plain : outcome ≠ .entersCopyIn := fun entered => by simpa using enters.2.mp entered
      rcases agrees with rfl | rfl <;> cases message <;> cases outcome <;>
        simp_all [Agrees, Mode.serve, isExtended]
  | lastSync request | copyEnd request =>
      rcases agrees with rfl | rfl
      · exact ⟨rfl, rfl⟩
      · exact ⟨rfl, rfl⟩
  | copyBind request =>
      obtain rfl : mode = .normal := agrees
      have succeeded := enters.1 rfl rfl
      simp [Agrees, Mode.serve, succeeded]
  | copyExecute request =>
      obtain rfl : mode = .normal := agrees
      obtain rfl := enters.2.mpr ⟨rfl, rfl⟩
      exact ⟨rfl, rfl⟩
  | copySync request =>
      obtain rfl : mode = .copyIn := agrees
      exact ⟨.inl rfl, rfl⟩
  | copyData request =>
      rcases agrees with rfl | rfl
      · by_cases failed : outcome = .fails <;> simp [Agrees, Mode.serve, failed]
      · exact ⟨.inr rfl, rfl⟩
  | copyDone request =>
      rcases agrees with rfl | rfl
      · by_cases failed : outcome = .fails <;> simp [Agrees, Mode.serve, failed]
      · exact ⟨.inr rfl, rfl⟩
  | copyFail request =>
      rcases agrees with rfl | rfl
      · exact ⟨.inr rfl, rfl⟩
      · exact ⟨.inr rfl, rfl⟩

/-! ### The invariant -/

/-- The items of a channel after its first message. -/
def Tail (items : List CopyInMessage) : Prop :=
  ∀ item ∈ items, item = .message [.copyData] ∨ item = .done

/-- A request that waits to be written. -/
def Queued (channels : Nat → Channel) : RequestMessages → Prop
  | .single _ _ => True
  | .copyIn receiver =>
      receiver.done = false ∧ ∃ tail,
        (channels receiver.request).items = .message copyInPrefix :: tail ∧ Tail tail

/-- The pending request, at the end of what has been written. -/
def Held (channels : Nat → Channel) (written : Phase) : Option RequestMessages → Prop
  | none => written = .between
  | some (.single _ _) => False
  | some (.copyIn ⟨_, true⟩) => written = .between
  | some (.copyIn ⟨request, false⟩) => written = .copyData request ∧ Tail (channels request).items

/-- The request whose last message is not written yet. -/
def unfinished : Option RequestMessages → List Nat
  | some (.copyIn ⟨request, false⟩) => [request]
  | _ => []

def number : RequestMessages → Nat
  | .single request _ => request
  | .copyIn receiver => receiver.request

structure Aligned (system : System) (served written : Phase) (ended : List Nat) : Prop where
  walk : Walk served system.wire ended written
  agrees : Agrees served system.mode
  held : Held system.channels written system.connection.pendingRequest
  queued : ∀ request ∈ system.connection.receiver, Queued system.channels request.messages
  /-- The answered requests, those on the wire, the pending one and the waiting
  ones are all requests, in order. -/
  conserved : system.ready ++ (ended ++ (unfinished system.connection.pendingRequest ++
    system.connection.receiver.map fun request => number request.messages)) =
      List.range system.requests

def Invariant (system : System) : Prop :=
  ∃ served written ended, Aligned system served written ended

theorem start_invariant : Invariant {} :=
  ⟨.between, .between, [],
    { walk := .nil _
      agrees := rfl
      held := rfl
      queued := fun _ member => by cases member
      conserved := rfl }⟩

theorem Tail.append {items : List CopyInMessage} {item : CopyInMessage} (tail : Tail items)
    (added : item = .message [.copyData] ∨ item = .done) : Tail (items ++ [item]) := by
  intro other member
  rcases List.mem_append.mp member with old | new
  · exact tail other old
  · exact (List.mem_singleton.mp new) ▸ added

/-- What a sink does to its channel: nothing to the items, or one more. -/
def Grows (before after : Channel) : Prop :=
  after.items = before.items ∨
    ∃ item, (item = .message [.copyData] ∨ item = .done) ∧ after.items = before.items ++ [item]

theorem Grows.tail {before after : Channel} (grows : Grows before after)
    (tail : Tail before.items) : Tail after.items := by
  rcases grows with same | ⟨item, added, same⟩
  · exact same ▸ tail
  · exact same ▸ tail.append added

theorem Grows.prefixed {before after : Channel} {tail : List CopyInMessage}
    (grows : Grows before after) (items : before.items = .message copyInPrefix :: tail)
    (ok : Tail tail) :
    ∃ tail, after.items = .message copyInPrefix :: tail ∧ Tail tail := by
  rcases grows with same | ⟨item, added, same⟩
  · exact ⟨tail, same.trans items, ok⟩
  · exact ⟨tail ++ [item], by rw [same, items, List.cons_append], ok.append added⟩

theorem updateChannel_self (channels : Nat → Channel) (request : Nat) (channel : Channel) :
    updateChannel channels request channel request = channel := if_pos rfl

theorem updateChannel_other {channels : Nat → Channel} {request other : Nat} (channel : Channel)
    (differ : other ≠ request) : updateChannel channels request channel other = channels other :=
  if_neg differ

theorem Queued.update {channels : Nat → Channel} {request : Nat} {channel : Channel}
    {messages : RequestMessages} (queued : Queued channels messages)
    (kept : number messages = request → Grows (channels request) channel) :
    Queued (updateChannel channels request channel) messages := by
  cases messages with
  | single other single => trivial
  | copyIn receiver =>
      obtain ⟨notDone, tail, items, ok⟩ := queued
      refine ⟨notDone, ?_⟩
      by_cases same : receiver.request = request
      · subst same
        rw [updateChannel_self]
        exact (kept rfl).prefixed items ok
      · rw [updateChannel_other channel same]
        exact ⟨tail, items, ok⟩

theorem Held.update {channels : Nat → Channel} {request : Nat} {channel : Channel}
    {written : Phase} {pending : Option RequestMessages} (held : Held channels written pending)
    (kept : request ∈ unfinished pending → Grows (channels request) channel) :
    Held (updateChannel channels request channel) written pending := by
  match pending, held with
  | none, held => exact held
  | some (.copyIn ⟨_, true⟩), held => exact held
  | some (.copyIn ⟨other, false⟩), ⟨at_, tail⟩ =>
      refine ⟨at_, ?_⟩
      by_cases same : other = request
      · subst same
        rw [updateChannel_self]
        exact (kept (List.mem_singleton_self _)).tail tail
      · rw [updateChannel_other channel same]
        exact tail

/-- A sink keeps the invariant, whatever it does to its channel. -/
theorem setChannel_invariant {system : System} {request : Nat} {channel : Channel}
    (holds : Invariant system) (grows : Grows (system.channels request) channel) :
    Invariant (system.setChannel request channel) := by
  obtain ⟨served, written, ended, aligned⟩ := holds
  refine ⟨served, written, ended, { aligned with held := ?_, queued := ?_ }⟩
  · exact aligned.held.update fun _ => grows
  · exact fun other member => (aligned.queued other member).update fun _ => grows

theorem Aligned.number_lt {system : System} {served written : Phase} {ended : List Nat}
    (aligned : Aligned system served written ended) :
    (∀ request ∈ unfinished system.connection.pendingRequest, request < system.requests) ∧
      ∀ request ∈ system.connection.receiver, number request.messages < system.requests := by
  have inRange (request : Nat) (member : request ∈ system.ready ++ (ended ++
      (unfinished system.connection.pendingRequest ++
        system.connection.receiver.map fun request => number request.messages))) :
      request < system.requests := List.mem_range.mp (aligned.conserved ▸ member)
  refine ⟨fun request member => inRange request ?_, fun request member => inRange _ ?_⟩
  · simp [member]
  · simp only [List.mem_append, List.mem_map]
    exact .inr (.inr (.inr ⟨request, member, rfl⟩))

/-- A new request takes the next number. -/
theorem Aligned.send {system : System} {served written : Phase} {ended : List Nat}
    {messages : RequestMessages} (aligned : Aligned system served written ended)
    (numbered : number messages = system.requests) (channel : Channel)
    (queued : Queued (updateChannel system.channels system.requests channel) messages) :
    Aligned ((system.send messages).setChannel system.requests channel) served written ended := by
  obtain ⟨pendingBelow, waitingBelow⟩ := aligned.number_lt
  refine { walk := aligned.walk, agrees := aligned.agrees, held := ?_, queued := ?_,
           conserved := ?_ }
  · exact aligned.held.update fun member => absurd (pendingBelow _ member) (Nat.lt_irrefl _)
  · intro request member
    rcases List.mem_append.mp member with old | new
    · exact (aligned.queued request old).update fun same =>
        absurd (same ▸ waitingBelow request old) (Nat.lt_irrefl _)
    · obtain rfl := List.mem_singleton.mp new
      exact queued
  · change _ = List.range (system.requests + 1)
    rw [List.range_succ, ← aligned.conserved]
    simp [System.send, System.setChannel, numbered]

theorem request_invariant {system : System} (single : Single) (holds : Invariant system) :
    Invariant (system.send (.single system.requests single)) := by
  obtain ⟨served, written, ended, aligned⟩ := holds
  have channels : updateChannel system.channels system.requests
      (system.channels system.requests) = system.channels := by
    funext other
    by_cases same : other = system.requests
    · rw [same, updateChannel_self]
    · exact updateChannel_other _ same
  have numbered : number (.single system.requests single) = system.requests := rfl
  have queued : Queued (updateChannel system.channels system.requests
      (system.channels system.requests)) (.single system.requests single) := trivial
  have sent := aligned.send numbered (system.channels system.requests) queued
  rw [System.setChannel] at sent
  change Aligned { system.send _ with channels := updateChannel system.channels _ _ } _ _ _ at sent
  rw [channels] at sent
  exact ⟨served, written, ended, sent⟩

theorem copyIn_invariant {system : System} (holds : Invariant system) :
    Invariant ((system.send (.copyIn ⟨system.requests, false⟩)).setChannel system.requests
      { items := [.message copyInPrefix] }) := by
  obtain ⟨served, written, ended, aligned⟩ := holds
  have numbered : number (.copyIn ⟨system.requests, false⟩) = system.requests := rfl
  refine ⟨served, written, ended, aligned.send numbered _ ⟨rfl, [], ?_, ?_⟩⟩
  · rw [updateChannel_self]
  · exact fun item member => by cases member

/-! ### Writing -/

/-- A copy that is not over, as `poll_request` hands it out: nothing of it is
written, or its data is next. -/
def Taken (channel : Channel) (written : Phase) (request : Nat) : Prop :=
  (written = .between ∧ ∃ tail, channel.items = .message copyInPrefix :: tail ∧ Tail tail) ∨
    written = .copyData request ∧ Tail channel.items

/-- What a poll of the stream of a copy gives continues the wire. -/
inductive Continues (written : Phase) (request : Nat) : Polled → Prop where
  | last {messages : List FrontendMessage} (items : List CopyInMessage)
      (walk : Walk written (sent request true messages) [request] .between) :
      Continues written request (.ready (some messages) items true)
  | more {messages : List FrontendMessage} {items : List CopyInMessage}
      (walk : Walk written (sent request true messages) [] (.copyData request))
      (tail : Tail items) : Continues written request (.ready (some messages) items false)
  | pending (at_ : written = .copyData request) : Continues written request .pending

theorem Taken.poll {channel : Channel} {written : Phase} {request : Nat}
    (taken : Taken channel written request) :
    Continues written request (pollNext channel false) := by
  obtain ⟨rfl, tail, items, ok⟩ | ⟨rfl, ok⟩ := taken
  · have polled : pollNext channel false = .ready (some copyInPrefix) tail false := by
      simp [pollNext, items]
    exact polled ▸ .more (walk_copyInPrefix request) ok
  · cases items : channel.items with
    | nil =>
        by_cases dropped : channel.sink = .dropped
        · have polled : pollNext channel false = .ready (some [.copyFail, .sync]) [] true := by
            simp [pollNext, items, dropped]
          exact polled ▸ .last [] (walk_copyFail request)
        · have polled : pollNext channel false = .pending := by
            simp [pollNext, items, dropped]
          exact polled ▸ .pending rfl
    | cons item rest =>
        rw [items] at ok
        have restOk : Tail rest := fun other member => ok other (List.mem_cons_of_mem _ member)
        rcases ok item (List.mem_cons_self ..) with rfl | rfl
        · have polled : pollNext channel false = .ready (some [.copyData]) rest false := by
            simp [pollNext, items]
          exact polled ▸ .more (walk_copyData request) restOk
        · have polled : pollNext channel false =
              .ready (some [.copyDone, .sync]) rest true := by
            simp [pollNext, items]
          exact polled ▸ .last rest (walk_copyDone request)

/-- The requests waiting to be written keep their channels when another
request's channel is read. -/
theorem queued_others {system : System} {request : Nat} {before : List Nat}
    (queued : ∀ request ∈ system.connection.receiver, Queued system.channels request.messages)
    (distinct : (before ++ ([request] ++
      system.connection.receiver.map fun request => number request.messages)).Nodup)
    (channel : Channel) :
    ∀ other ∈ system.connection.receiver,
      Queued (updateChannel system.channels request channel) other.messages := by
  intro other member
  have waiting : number other.messages ∈
      system.connection.receiver.map fun request => number request.messages :=
    List.mem_map.mpr ⟨other, member, rfl⟩
  have apart : request ∉ system.connection.receiver.map fun request => number request.messages :=
    (List.nodup_cons.mp (List.nodup_append.mp distinct).2.1).1
  exact (queued other member).update fun same => absurd (same ▸ waiting) apart

/-- The rest of a turn that has got a copy that is not over. -/
theorem writeMessages_copy_invariant {system : System} {request : Nat}
    {served written : Phase} {ended : List Nat}
    (walk : Walk served system.wire ended written) (agrees : Agrees served system.mode)
    (queued : ∀ request ∈ system.connection.receiver, Queued system.channels request.messages)
    (taken : Taken (system.channels request) written request)
    (conserved : system.ready ++ (ended ++ ([request] ++
      system.connection.receiver.map fun request => number request.messages)) =
        List.range system.requests) :
    Invariant (system.writeMessages (.copyIn ⟨request, false⟩)) := by
  have distinct : ((system.ready ++ ended) ++ ([request] ++
      system.connection.receiver.map fun request => number request.messages)).Nodup := by
    rw [List.append_assoc, conserved]
    exact List.nodup_range
  have others := queued_others queued distinct
  have polled := taken.poll
  rw [System.writeMessages]
  generalize pollNext (system.channels request) false = answer at polled
  cases polled with
  | @last messages items continued =>
      refine ⟨served, .between, ended ++ [request],
        { walk := walk.append continued, agrees := agrees, held := rfl, queued := others _,
          conserved := ?_ }⟩
      simpa [unfinished] using conserved
  | @more messages items continued ok =>
      have walk := walk.append continued
      rw [List.append_nil] at walk
      refine ⟨served, .copyData request, ended,
        { walk, agrees := agrees, held := ⟨rfl, ?_⟩, queued := others _, conserved }⟩
      change Tail (updateChannel system.channels request _ request).items
      rw [updateChannel_self]
      exact ok
  | pending at_ =>
      subst at_
      obtain ⟨impossible, _⟩ | ⟨_, ok⟩ := taken
      · cases impossible
      · exact ⟨served, .copyData request, ended,
          { walk, agrees := agrees, held := ⟨rfl, ok⟩, queued, conserved }⟩

theorem write_invariant {system : System} (holds : Invariant system) :
    Invariant system.write := by
  have kept := holds
  obtain ⟨served, written, ended, walk, agrees, held, queued, conserved⟩ := holds
  rw [System.write, pollRequest]
  match pending : system.connection.pendingRequest with
  | none =>
      rw [pending] at held conserved
      obtain rfl : written = .between := held
      match waiting : system.connection.receiver with
      | [] => cases system.connection.receiverClosed <;> exact kept
      | ⟨.single request single, sender⟩ :: rest =>
          rw [waiting] at queued conserved
          refine ⟨served, .between, ended ++ [request],
            { walk := walk.append (walk_single request single), agrees, held := rfl,
              queued := fun other member => queued other (List.mem_cons_of_mem _ member),
              conserved := ?_ }⟩
          rw [List.append_assoc]
          exact conserved
      | ⟨.copyIn ⟨request, done⟩, sender⟩ :: rest =>
          rw [waiting] at queued conserved
          obtain ⟨notDone, items⟩ := queued _ (List.mem_cons_self ..)
          obtain rfl : done = false := notDone
          exact writeMessages_copy_invariant walk agrees
            (fun other member => queued other (List.mem_cons_of_mem _ member))
            (.inl ⟨rfl, items⟩) conserved
  | some (.single request single) =>
      rw [pending] at held
      exact held.elim
  | some (.copyIn ⟨request, true⟩) =>
      rw [pending] at held conserved
      exact ⟨served, written, ended, { walk, agrees, held, queued, conserved }⟩
  | some (.copyIn ⟨request, false⟩) =>
      rw [pending] at held conserved
      exact writeMessages_copy_invariant walk agrees queued (.inr held) conserved

/-! ### Serving and reading -/

instance (front : Sent) (outcome : Outcome) : Decidable (EntersCopyIn front outcome) :=
  inferInstanceAs (Decidable (_ ∧ _))

/-- The condition on the outcomes the server has for the messages it takes. -/
def Guard (system : System) : Event → Prop
  | .serve outcome => ∀ front ∈ system.wire.head?, EntersCopyIn front outcome
  | _ => True

instance (system : System) : (event : Event) → Decidable (Guard system event)
  | .serve outcome => inferInstanceAs (Decidable (∀ front ∈ system.wire.head?, EntersCopyIn front outcome))
  | .request _ | .copyIn | .data _ | .finish _ | .drop _ | .write | .read => .isTrue trivial

theorem serve_invariant {system next : System} {outcome : Outcome} (holds : Invariant system)
    (enters : Guard system (.serve outcome)) (served : system.serve outcome = some next) :
    Invariant next := by
  obtain ⟨first, written, ended, walk, agrees, held, queued, conserved⟩ := holds
  rw [System.serve] at served
  cases wire : system.wire with
  | nil => simp [wire] at served
  | cons front rest =>
      rw [wire] at walk
      cases walk with
      | @cons _ second _ _ _ now later step walk =>
          obtain ⟨agrees, answered⟩ := step.serve agrees (enters front (by rw [wire]; rfl))
          simp only [wire, Option.some.injEq] at served
          subst served
          refine ⟨second, written, later, { walk, agrees, held, queued, conserved := ?_ }⟩
          rw [← conserved]
          subst answered
          split <;> simp [*]

/-- The senders in the two queues of the connection, and what it has read. -/
structure Answered (system : System) : Prop where
  matched : system.matched = (List.range system.matched.length).map fun request => (some request, request)
  senders : List.range system.matched.length ++
    (system.connection.responses.map (fun response => response.sender) ++
      system.connection.receiver.map fun request => request.sender) = List.range system.requests

theorem start_answered : Answered {} := ⟨rfl, rfl⟩

theorem send_answered {system : System} (messages : RequestMessages) (answered : Answered system) :
    Answered (system.send messages) := by
  refine { answered with senders := ?_ }
  change _ = List.range (system.requests + 1)
  rw [List.range_succ, ← answered.senders]
  simp [System.send]

theorem writeMessages_answered {system : System} (messages : RequestMessages)
    (answered : Answered system) : Answered (system.writeMessages messages) := by
  obtain ⟨matched, senders⟩ := answered
  cases messages with
  | single request single => exact ⟨matched, senders⟩
  | copyIn receiver =>
      rw [System.writeMessages]
      cases pollNext (system.channels receiver.request) receiver.done with
      | pending => exact ⟨matched, senders⟩
      | ready messages items done => cases messages <;> exact ⟨matched, senders⟩

theorem write_answered {system : System} (answered : Answered system) : Answered system.write := by
  obtain ⟨matched, senders⟩ := answered
  rw [System.write, pollRequest]
  match system.connection.pendingRequest with
  | some messages => exact writeMessages_answered messages ⟨matched, senders⟩
  | none =>
      match waiting : system.connection.receiver with
      | [] => cases system.connection.receiverClosed <;> exact ⟨matched, senders⟩
      | request :: rest =>
          rw [waiting] at senders
          refine writeMessages_answered request.messages ⟨matched, ?_⟩
          rw [← senders]
          simp

theorem serve_answered {system next : System} {outcome : Outcome} (answered : Answered system)
    (served : system.serve outcome = some next) : Answered next := by
  rw [System.serve] at served
  cases wire : system.wire with
  | nil => simp [wire] at served
  | cons front rest =>
      simp only [wire, Option.some.injEq] at served
      subst served
      exact ⟨answered.matched, answered.senders⟩

/-- Where all numbers stand in order, each one is its own place. -/
private theorem eq_place {numbers after : List Nat} {place request count : Nat}
    (all : numbers ++ after = List.range count) (got : numbers[place]? = some request) :
    request = place := by
  obtain ⟨below, at_⟩ := List.getElem?_eq_some_iff.mp got
  have whole : (List.range count)[place]? = some request := by
    rw [← all, List.getElem?_append_left below, got]
  obtain ⟨_, at_⟩ := List.getElem?_eq_some_iff.mp whole
  rw [← at_, List.getElem_range]

/-- The batch goes to the request in front, the one it belongs to. -/
theorem read_keeps {system next : System} (holds : Invariant system) (answered : Answered system)
    (read : system.read = some next) : Invariant next ∧ Answered next := by
  obtain ⟨served, written, ended, aligned⟩ := holds
  rw [System.read] at read
  cases unread : system.ready[system.matched.length]? with
  | none => simp [unread] at read
  | some request =>
      have caused : request = system.matched.length := eq_place aligned.conserved unread
      cases waiting : system.connection.responses with
      | nil =>
          have below := (List.getElem?_eq_some_iff.mp unread).1
          have taken := congrArg List.length answered.senders
          have solved := congrArg List.length aligned.conserved
          simp only [waiting, List.map_nil, List.nil_append, List.length_append, List.length_range,
            List.length_map] at taken solved
          omega
      | cons response rest =>
          have senders := answered.senders
          rw [waiting, List.map_cons, List.cons_append, List.append_cons] at senders
          have front : response.sender = system.matched.length := by
            refine eq_place senders ?_
            rw [List.getElem?_append_right (Nat.le_of_eq List.length_range), List.length_range,
              Nat.sub_self, List.getElem?_cons_zero]
          simp only [unread, pollReadNormal, waiting, if_true, Option.some.injEq] at read
          subst read
          refine ⟨⟨served, written, ended, { aligned with }⟩, ?_, ?_⟩
          · simp only [Option.map_some, List.length_append, List.length_singleton, List.range_succ,
              List.map_append, List.map_singleton, front, caused]
            rw [← answered.matched]
          · simp only [List.length_append, List.length_singleton, List.range_succ, ← senders,
              front]

theorem step_keeps (system : System) (event : Event) (next : System)
    (holds : Invariant system ∧ Answered system) (guard : Guard system event)
    (stepped : step system event = some next) : Invariant next ∧ Answered next := by
  obtain ⟨invariant, answered⟩ := holds
  cases event with
  | request single =>
      obtain rfl := Option.some.inj stepped
      exact ⟨request_invariant single invariant, send_answered _ answered⟩
  | copyIn =>
      obtain rfl := Option.some.inj stepped
      have sent := send_answered (.copyIn ⟨system.requests, false⟩) answered
      exact ⟨copyIn_invariant invariant, sent.matched, sent.senders⟩
  | data request =>
      rw [step] at stepped
      split at stepped
      · obtain rfl := Option.some.inj stepped
        exact ⟨setChannel_invariant invariant (.inr ⟨_, .inl rfl, rfl⟩), answered.matched,
          answered.senders⟩
      · cases stepped
  | finish request =>
      rw [step] at stepped
      split at stepped
      · obtain rfl := Option.some.inj stepped
        exact ⟨setChannel_invariant invariant (.inr ⟨_, .inr rfl, rfl⟩), answered.matched,
          answered.senders⟩
      · cases stepped
  | drop request =>
      obtain rfl := Option.some.inj stepped
      exact ⟨setChannel_invariant invariant (.inl rfl), answered.matched, answered.senders⟩
  | write =>
      obtain rfl := Option.some.inj stepped
      exact ⟨write_invariant invariant, write_answered answered⟩
  | serve outcome => exact ⟨serve_invariant invariant guard stepped, serve_answered answered stepped⟩
  | read => exact read_keeps invariant answered stepped

/-! ### Runs -/

/-- The requests that are not wholly on their way to the server yet. -/
def System.waiting (system : System) : List Nat :=
  unfinished system.connection.pendingRequest ++
    system.connection.receiver.map fun request => number request.messages

theorem Next.ended_on_wire {first second : Phase} {front : Sent} {ended : List Nat}
    (next : Next first front ended second) : ∀ request ∈ ended, request = front.request := by
  cases next <;> simp

theorem Walk.ended_on_wire {first last : Phase} {wire : List Sent} {ended : List Nat}
    (walk : Walk first wire ended last) :
    ∀ request ∈ ended, ∃ sent ∈ wire, sent.request = request := by
  induction walk with
  | nil => exact fun request member => by cases member
  | cons next walk ih =>
      intro request member
      rcases List.mem_append.mp member with front | later
      · exact ⟨_, List.mem_cons_self .., (next.ended_on_wire request front).symm⟩
      · obtain ⟨sent, on, same⟩ := ih request later
        exact ⟨sent, List.mem_cons_of_mem _ on, same⟩

/-- Every request causes one `ReadyForQuery`, in the order of the requests, and
gets the batch that it ends. -/
def Matched (system : System) : Prop :=
  system.ready <+: List.range system.requests ∧
    (∀ request < system.requests, request ∉ system.waiting →
      (∀ sent ∈ system.wire, sent.request ≠ request) → system.ready.count request = 1) ∧
    ∀ pair ∈ system.matched, pair.1 = some pair.2

instance (system : System) : Decidable (Matched system) := inferInstanceAs (Decidable (_ ∧ _))

theorem matched_of_invariant {system : System} (holds : Invariant system)
    (answered : Answered system) : Matched system := by
  obtain ⟨served, written, ended, aligned⟩ := holds
  refine ⟨⟨_, aligned.conserved⟩, fun request below notWaiting notOnWire => ?_, ?_⟩
  · have once := List.nodup_iff_count_eq_one.mp List.nodup_range request (List.mem_range.mpr below)
    rw [← aligned.conserved, List.count_append] at once
    have later : (ended ++ system.waiting).count request = 0 := by
      refine List.count_eq_zero.mpr fun member => ?_
      rcases List.mem_append.mp member with onWire | waiting
      · obtain ⟨sent, on, same⟩ := aligned.walk.ended_on_wire request onWire
        exact notOnWire sent on same
      · exact notWaiting waiting
    rw [System.waiting] at later
    omega
  · intro pair member
    rw [answered.matched] at member
    obtain ⟨request, _, rfl⟩ := List.mem_map.mp member
    rfl

/-- When the `Execute` of every `copy_in` enters copy-in mode, and no other one
does, the requests and their responses stay aligned. -/
theorem execute_matched {events : List Event} {final : System}
    (run : execute step {} events = some final) (enters : Along step Guard {} events) :
    Matched final := by
  obtain ⟨invariant, answered⟩ :=
    invariant_along step step_keeps run enters ⟨start_invariant, start_answered⟩
  exact matched_of_invariant invariant answered

/-- One copy is finished, and one dropped before its data; a query fails on the way. -/
private def copies : List Event :=
  [.copyIn, .write, .request (.extended [.parse, .bind, .execute]), .serve .succeeds,
    .serve .entersCopyIn, .serve .succeeds, .data 0, .finish 0, .write, .write, .drop 0, .copyIn,
    .write, .write, .serve .succeeds, .serve .succeeds, .serve .succeeds, .read, .serve .fails,
    .serve .succeeds, .serve .succeeds, .serve .succeeds, .write, .drop 2, .write, .serve .succeeds,
    .serve .entersCopyIn, .serve .succeeds, .serve .succeeds, .serve .succeeds, .read, .read]

theorem execute_matched_copies :
    ∃ final, execute step {} copies = some final ∧ final.ready = [0, 1, 2] ∧ Matched final := by
  have ran : (execute step {} copies).any fun final => final.ready = [0, 1, 2] := by
    decide +kernel
  obtain ⟨final, run, ready⟩ := (Option.any_eq_true ..).mp ran
  have enters : Along step Guard {} copies := by decide +kernel
  exact ⟨final, run, of_decide_eq_true ready, execute_matched run enters⟩

/-- The `Execute` of a copy fails, and so its future ends and drops the channel;
the query behind it is given the second answer to the copy. -/
private def failedExecute : List Event :=
  [.copyIn, .request .query, .write, .serve .succeeds, .serve .fails, .serve .succeeds, .read,
    .drop 0, .write, .write, .write, .serve .succeeds, .serve .succeeds, .read]

theorem not_matched_failedExecute :
    ¬ ∀ (events : List Event) (final : System),
      execute step {} events = some final → Matched final := by
  intro matched
  have ran : (execute step {} failedExecute).any fun final =>
      final.matched = [(some 0, 0), (some 1, 0)] := by decide +kernel
  obtain ⟨final, run, wrong⟩ := (Option.any_eq_true ..).mp ran
  have wrong := of_decide_eq_true wrong
  have same := (matched failedExecute final run).2.2 (some 1, 0) (by simp [wrong])
  cases same

end OpenGauss.Driver.CopyIn
