import OpenGauss.Driver.CopyInSink
import OpenGauss.Lib.Execution

/-! The data of a copy arrives as it was given to the sink, unless an item too
large for a message is sent behind others that still are in the buffer. -/

set_option autoImplicit false

namespace OpenGauss.Driver.CopyInSink

open Lib Protocol Protocol.Backend FrontendBuffer

/-! ### What an operation does to the sink -/

/-- The sink after a message: the data is in the channel, the buffer empty. -/
def pushed (self : CopyInSink) (data : CopyData) : CopyInSink where
  sender := { self.sender with
    queue := self.sender.queue ++ [.message (.copyData data)]
    parked := decide (self.sender.buffer < self.sender.queue.length + 1) }
  buf := []
  state := self.state

/-- The item makes a message too large together with the buffer. -/
def Oversized (self : CopyInSink) (item : Bytes) : Prop :=
  4096 < item.length ∧ 2147483647 < self.buf.length + item.length + 4

instance (self : CopyInSink) (item : Bytes) : Decidable (self.Oversized item) := instDecidableAnd

theorem new_ok {buf : Bytes} {data : CopyData} (made : CopyData.new buf = .ok data) :
    data.buf = buf := by
  unfold CopyData.new at made
  split at made
  · cases made
    rfl
  · cases made

theorem new_error {buf : Bytes} {error : IoError} (refused : CopyData.new buf = .error error) :
    2147483647 < buf.length + 4 := by
  unfold CopyData.new at refused
  split at refused
  · cases refused
  · next large => exact Nat.lt_of_not_le large

theorem pollReady_unparked {self : CopyInSink} (ready : self.pollReady = .ready (.ok ())) :
    self.sender.parked = false := by
  obtain ⟨⟨buffer, queue, parked, senderGone, receiverGone⟩, buf, state⟩ := self
  cases parked with
  | false => rfl
  | true => cases senderGone <;> cases receiverGone <;> cases ready

/-- What `start_send` answers and leaves. -/
inductive Started (self : CopyInSink) (item : Bytes) : Except Error Unit → CopyInSink → Prop where
  | buffered (small : (self.buf ++ item).length ≤ 4096) :
      Started self item (.ok ()) { self with buf := self.buf ++ item }
  | sent (data : CopyData) (same : data.buf = self.buf ++ item)
      (heard : self.sender.receiverGone = false) : Started self item (.ok ()) (self.pushed data)
  /-- The buffer is lost with the item. -/
  | refused (error : Error)
      (reason : self.sender.receiverGone = true ∨ self.sender.parked = true ∨
        self.Oversized item) :
      Started self item (.error error) { self with buf := [] }

theorem sendData_started {self : CopyInSink} {item : Bytes}
    (opened : self.sender.senderGone = false)
    (large : 2147483647 < (self.buf ++ item).length + 4 → self.Oversized item) :
    Started self item ({ self with buf := [] }.sendData (self.buf ++ item)).1
      ({ self with buf := [] }.sendData (self.buf ++ item)).2 := by
  unfold sendData
  cases made : CopyData.new (self.buf ++ item) with
  | error error => exact .refused _ (.inr (.inr (large (new_error made))))
  | ok message =>
      obtain ⟨⟨buffer, queue, parked, senderGone, receiverGone⟩, buf, state⟩ := self
      cases opened
      cases parked with
      | true => exact .refused _ (.inr (.inl rfl))
      | false =>
          cases receiverGone with
          | true => exact .refused _ (.inl rfl)
          | false => exact .sent message (new_ok made) rfl

theorem startSend_started {self : CopyInSink} (item : Bytes)
    (opened : self.sender.senderGone = false) (bounded : self.buf.length ≤ 4096) :
    Started self item (self.startSend item).1 (self.startSend item).2 := by
  unfold startSend
  by_cases large : 4096 < item.length
  · have sends := sendData_started opened fun tooLarge =>
      ⟨large, by rwa [List.length_append] at tooLarge⟩
    rw [if_pos large]
    by_cases empty : self.buf.isEmpty = true
    · have clear : { self with buf := [] } = self := by
        rw [← List.isEmpty_iff.mp empty]
      rw [if_pos empty]
      rwa [clear, List.isEmpty_iff.mp empty] at sends
    · rw [if_neg empty]
      exact sends
  · rw [if_neg large]
    dsimp only
    by_cases long : 4096 < (self.buf ++ item).length
    · rw [if_pos long]
      refine sendData_started opened fun tooLarge => ?_
      rw [List.length_append] at tooLarge
      omega
    · rw [if_neg long]
      exact .buffered (Nat.le_of_not_lt long)

/-- What `poll_flush` leaves. -/
inductive Flushed (self : CopyInSink) : CopyInSink → Prop where
  | same : Flushed self self
  | sent (data : CopyData) (same : data.buf = self.buf)
      (opened : self.sender.senderGone = false) (heard : self.sender.receiverGone = false) :
      Flushed self (self.pushed data)

theorem pollFlush_flushed {self : CopyInSink} (bounded : self.buf.length ≤ 4096) :
    Flushed self self.pollFlush.2 ∧
      (self.pollFlush.1 = .ready (.ok ()) → self.pollFlush.2.buf = []) := by
  unfold pollFlush
  by_cases empty : self.buf.isEmpty = true
  · rw [if_pos empty]
    exact ⟨.same, fun _ => List.isEmpty_iff.mp empty⟩
  · rw [if_neg empty]
    obtain ⟨⟨buffer, queue, parked, senderGone, receiverGone⟩, buf, state⟩ := self
    cases senderGone with
    | true => exact ⟨.same, fun impossible => (by cases impossible)⟩
    | false =>
        cases receiverGone with
        | true => exact ⟨.same, fun impossible => (by cases impossible)⟩
        | false =>
            cases parked with
            | true => exact ⟨.same, fun impossible => (by cases impossible)⟩
            | false =>
                cases made : CopyData.new buf with
                | error error =>
                    have large := new_error made
                    dsimp only at bounded
                    omega
                | ok data =>
                    simp only [pollReady, Channel.pollReady, sendData, made]
                    exact ⟨.sent data (new_ok made) rfl rfl, fun _ => rfl⟩

/-- The sink after `Done`. -/
def finished (self : CopyInSink) : CopyInSink where
  sender := { self.sender with
    queue := self.sender.queue ++ [.done]
    parked := decide (self.sender.buffer < self.sender.queue.length + 1)
    senderGone := true }
  buf := self.buf
  state := .reading

/-- What `poll_finish` leaves of an active sink. -/
inductive Finishing (self : CopyInSink) : CopyInSink → Prop where
  | flushed {after : CopyInSink} (flush : Flushed self after) : Finishing self after
  | handedOver {between : CopyInSink} (flush : Flushed self between) (empty : between.buf = [])
      (opened : between.sender.senderGone = false)
      (heard : between.sender.receiverGone = false) : Finishing self between.finished

theorem pollReading_same (self : CopyInSink) (response : Poll (Except Error Message)) :
    (self.pollReading response).2 = self := by
  unfold pollReading
  split <;> rfl

theorem pollFinish_finishing {self : CopyInSink} (response : Poll (Except Error Message))
    (active : self.state = .active) (bounded : self.buf.length ≤ 4096) :
    Finishing self (self.pollFinish response).2 := by
  obtain ⟨flush, empties⟩ := pollFlush_flushed bounded
  unfold pollFinish
  rw [active]
  dsimp only
  unfold pollActive
  cases flushes : self.pollFlush with
  | mk answer between =>
      rw [flushes] at flush empties
      cases answer with
      | pending => exact .flushed flush
      | ready answer =>
          cases answer with
          | error error => exact .flushed flush
          | ok done =>
              have empty := empties rfl
              obtain ⟨⟨buffer, queue, parked, senderGone, receiverGone⟩, buf, state⟩ := between
              cases senderGone with
              | true => exact .flushed flush
              | false =>
                  cases receiverGone with
                  | true => exact .flushed flush
                  | false =>
                      cases parked with
                      | true => exact .flushed flush
                      | false =>
                          have handed := Finishing.handedOver flush empty rfl rfl
                          rw [← pollReading_same (finished _) response] at handed
                          exact handed

/-! ### What the two ends of the channel have seen -/

/-- The data of the messages that carry some. -/
def payload : List FrontendMessage → Bytes
  | [] => []
  | .raw _ :: messages => payload messages
  | .copyData data :: messages => data.buf ++ payload messages

/-- The statement, and the data after it. -/
def stream (head : Bytes) (datas : List CopyData) : List FrontendMessage :=
  .raw head :: datas.map .copyData

@[simp] theorem payload_append (first second : List FrontendMessage) :
    payload (first ++ second) = payload first ++ payload second := by
  induction first with
  | nil => rfl
  | cons message messages ih =>
      cases message with
      | raw buf => exact ih
      | copyData data =>
          rw [List.cons_append, payload, payload, ih, List.append_assoc]

theorem payload_stream (head : Bytes) (datas : List CopyData) (data : CopyData) :
    payload (stream head (datas ++ [data])) = payload (stream head datas) ++ data.buf := by
  rw [stream, stream, List.map_append, ← List.cons_append, payload_append]
  exact congrArg _ (List.append_nil _)

/-- `poll_finish` has handed over `Done`: the sink is not active any more. -/
def System.HandedOver (system : System) : Prop := system.sink.state ≠ .active

instance (system : System) : Decidable system.HandedOver := instDecidableNot

/-- What ends the stream. -/
def System.terminator (system : System) : FrontendMessage :=
  if system.HandedOver then copyDoneMessage else copyFailMessage

/-- What the sink has put into the channel. -/
def System.sent (system : System) (head : Bytes) (datas : List CopyData) : List CopyInMessage :=
  (stream head datas).map .message ++ if system.HandedOver then [.done] else []

/-- The sink has put the statement, `datas` and perhaps `Done` into the channel. -/
structure Carried (head : Bytes) (system : System) (datas : List CopyData) : Prop where
  /-- What has been accepted is in the channel or in the buffer. -/
  data : system.sink.sender.receiverGone = false →
    payload (stream head datas) ++ system.sink.buf = system.accepted.flatten
  before : payload (stream head datas) <+: system.accepted.flatten
  bounded : system.sink.buf.length ≤ 4096
  handedOver : system.HandedOver →
    payload (stream head datas) = system.accepted.flatten ∧
      system.sink.sender.senderGone = true
  /-- Closing a sender never has to wait. -/
  settled : system.sink.state ≠ .closing
  closed : system.sink.sender.senderGone = true → system.HandedOver ∨ system.dropped = true
  parked : system.ready = true → system.sink.sender.parked = true → system.sink.buf = []
  /-- A stream that goes on has given what is no longer in the channel. -/
  going : system.done = false →
    ∃ lost, system.sent head datas =
        system.received.map .message ++ system.sink.sender.queue ++ lost ∧
      (system.sink.sender.receiverGone = false → lost = [])
  ended : system.done = true →
    system.received = stream head datas ++ [system.terminator] ∧
      system.sink.sender.queue = [] ∧ system.sink.sender.senderGone = true

theorem start_carried (head : Bytes) : Carried head (.start head) [] where
  data := fun _ => rfl
  before := List.prefix_refl _
  bounded := Nat.zero_le _
  handedOver := fun handed => absurd rfl handed
  settled := fun impossible => (by cases impossible)
  closed := fun impossible => (by cases impossible)
  parked := fun impossible => (by cases impossible)
  going := fun _ => ⟨[], rfl, fun _ => rfl⟩
  ended := fun impossible => (by cases impossible)

section

variable {head : Bytes} {system : System} {datas : List CopyData}

theorem Carried.active (carried : Carried head system datas)
    (opened : system.sink.sender.senderGone = false) : system.sink.state = .active := by
  apply Classical.byContradiction
  intro handed
  have gone := (carried.handedOver handed).2
  rw [opened] at gone
  cases gone

theorem Carried.unfinished (carried : Carried head system datas)
    (opened : system.sink.sender.senderGone = false) : system.done = false := by
  cases done : system.done with
  | false => rfl
  | true =>
      have gone := (carried.ended done).2.2
      rw [opened] at gone
      cases gone

theorem sent_active (active : system.sink.state = .active) :
    system.sent head datas = (stream head datas).map .message := by
  have going : ¬system.HandedOver := fun handed => handed active
  rw [System.sent, if_neg going, List.append_nil]

/-- The buffer, or the buffer and an item behind it, has gone into the channel. -/
theorem Carried.pushed (carried : Carried head system datas) {data : CopyData} {ready : Bool}
    {accepted : List Bytes} (opened : system.sink.sender.senderGone = false)
    (heard : system.sink.sender.receiverGone = false)
    (whole : accepted.flatten = payload (stream head datas) ++ data.buf) :
    Carried head { system with sink := system.sink.pushed data, ready, accepted }
      (datas ++ [data]) where
  data := fun _ => by
    rw [payload_stream, whole]
    exact List.append_nil _
  before := by
    have same := whole.trans (payload_stream head datas data).symm
    exact same ▸ List.prefix_rfl
  bounded := Nat.zero_le _
  handedOver := fun handed => absurd (carried.active opened) handed
  settled := carried.settled
  closed := fun gone => absurd (opened.symm.trans gone) Bool.false_ne_true
  parked := fun _ _ => rfl
  going := fun going => by
    have active := carried.active opened
    obtain ⟨lost, sent, none⟩ := carried.going going
    have nothing := none heard
    subst nothing
    refine ⟨[], ?_, fun _ => rfl⟩
    rw [sent_active active, List.append_nil] at sent
    rw [sent_active (by exact active), stream, List.map_append, ← List.cons_append,
      List.map_append, List.append_nil]
    change (stream head datas).map CopyInMessage.message ++ _ = _
    rw [sent, List.append_assoc]
    rfl
  ended := fun done => absurd ((carried.unfinished opened).symm.trans done) Bool.false_ne_true

theorem Carried.flushed (carried : Carried head system datas) {after : CopyInSink}
    (flush : Flushed system.sink after) :
    ∃ datas, Carried head { system with sink := after } datas := by
  cases flush with
  | same => exact ⟨datas, carried⟩
  | sent data same opened heard =>
      have whole := (carried.data heard).symm
      rw [← same] at whole
      exact ⟨_, carried.pushed opened heard whole⟩

/-- `Done` has gone into the channel behind an empty buffer. -/
theorem Carried.finished (carried : Carried head system datas) (empty : system.sink.buf = [])
    (opened : system.sink.sender.senderGone = false)
    (heard : system.sink.sender.receiverGone = false) :
    Carried head { system with sink := system.sink.finished } datas where
  data := carried.data
  before := carried.before
  bounded := carried.bounded
  handedOver := fun _ => by
    have whole := carried.data heard
    rw [empty, List.append_nil] at whole
    exact ⟨whole, rfl⟩
  settled := fun impossible => (by cases impossible)
  closed := fun _ => .inl (fun impossible => (by cases impossible))
  parked := fun _ _ => empty
  going := fun going => by
    have active := carried.active opened
    obtain ⟨lost, sent, none⟩ := carried.going going
    have nothing := none heard
    subst nothing
    refine ⟨[], ?_, fun _ => rfl⟩
    rw [sent_active active, List.append_nil] at sent
    rw [List.append_nil]
    change (stream head datas).map CopyInMessage.message ++ [CopyInMessage.done] =
      _ ++ (_ ++ [CopyInMessage.done])
    rw [sent, List.append_assoc]
  ended := fun done => absurd ((carried.unfinished opened).symm.trans done) Bool.false_ne_true

theorem Carried.finishing (carried : Carried head system datas)
    (response : Poll (Except Error Message)) :
    ∃ datas, Carried head { system with sink := (system.sink.pollFinish response).2 } datas := by
  cases state : system.sink.state with
  | active =>
      have finishing := pollFinish_finishing response state carried.bounded
      generalize (system.sink.pollFinish response).2 = after at finishing
      cases finishing with
      | flushed flush => exact carried.flushed flush
      | handedOver flush empty opened heard =>
          obtain ⟨datas, between⟩ := carried.flushed flush
          exact ⟨datas, between.finished empty opened heard⟩
  | closing => exact absurd state carried.settled
  | reading =>
      have same : (system.sink.pollFinish response).2 = system.sink := by
        unfold pollFinish
        rw [state]
        exact pollReading_same _ _
      rw [same]
      exact ⟨datas, carried⟩

/-- An item that is not lost with the buffer in front of it. -/
def Whole (system : System) : Event → Prop
  | .startSend item => system.sink.buf ≠ [] → ¬system.sink.Oversized item
  | _ => True

instance (system : System) : (event : Event) → Decidable (Whole system event)
  | .startSend item =>
      inferInstanceAs (Decidable (system.sink.buf ≠ [] → ¬system.sink.Oversized item))
  | .pollReady | .pollFlush | .pollFinish _ | .drop | .receive | .hangUp => .isTrue trivial

/-- An item joins what has been accepted, or is refused with an empty buffer. -/
theorem Carried.started (carried : Carried head system datas) {item : Bytes}
    {answer : Except Error Unit} {after : CopyInSink}
    (starts : Started system.sink item answer after)
    (opened : system.sink.sender.senderGone = false) (ready : system.ready = true)
    (whole : system.sink.buf ≠ [] → ¬system.sink.Oversized item) :
    ∃ datas, Carried head { system with
      sink := after
      ready := false
      accepted := if answer = .ok () then system.accepted ++ [item] else system.accepted }
        datas := by
  have joined : (system.accepted ++ [item]).flatten = system.accepted.flatten ++ item := by
    rw [List.flatten_append, List.flatten_singleton]
  cases starts with
  | buffered small =>
      rw [if_pos rfl]
      exact ⟨datas, {
        carried with
        data := fun heard => by
          rw [joined, ← carried.data heard, List.append_assoc]
        before := by
          rw [joined]
          exact carried.before.trans (List.prefix_append ..)
        bounded := small
        handedOver := fun handed => absurd (carried.active opened) handed
        parked := fun impossible => (by cases impossible) }⟩
  | sent data same heard =>
      rw [if_pos rfl]
      refine ⟨_, carried.pushed opened heard ?_⟩
      rw [joined, ← carried.data heard, same, List.append_assoc]
  | refused error reason =>
      rw [if_neg (fun impossible => (by cases impossible))]
      by_cases heard : system.sink.sender.receiverGone = true
      · exact ⟨datas, {
          carried with
          data := fun unheard => absurd (heard.symm.trans unheard) (by decide)
          bounded := Nat.zero_le _
          parked := fun impossible => (by cases impossible) }⟩
      · have empty : system.sink.buf = [] := by
          rcases reason with gone | parked | large
          · exact absurd gone heard
          · exact carried.parked ready parked
          · apply Classical.byContradiction
            intro filled
            exact whole filled large
        have same : { system.sink with buf := [] } = system.sink := by rw [← empty]
        rw [same]
        exact ⟨datas, { carried with parked := fun impossible => (by cases impossible) }⟩

/-! ### What the connection takes -/

theorem message_injective {first second : List FrontendMessage}
    (same : first.map CopyInMessage.message = second.map CopyInMessage.message) :
    first = second :=
  (List.map_inj_right fun _ _ equal => by cases equal; rfl).mp same

theorem done_not_message (messages : List FrontendMessage) :
    CopyInMessage.done ∉ messages.map CopyInMessage.message := by
  intro member
  obtain ⟨message, _, impossible⟩ := List.mem_map.mp member
  cases impossible

theorem message_before_done {first second : List FrontendMessage} {rest : List CopyInMessage}
    (same : first.map CopyInMessage.message ++ [.done] =
      second.map CopyInMessage.message ++ .done :: rest) : first = second ∧ rest = [] := by
  induction first generalizing second with
  | nil =>
      cases second with
      | nil =>
          cases same
          exact ⟨rfl, rfl⟩
      | cons message messages => cases same
  | cons message messages ih =>
      cases second with
      | nil => cases same
      | cons other others =>
          rw [List.map_cons, List.map_cons, List.cons_append, List.cons_append,
            List.cons.injEq] at same
          obtain ⟨equal, rest⟩ := ih same.2
          cases same.1
          exact ⟨by rw [equal], rest⟩

/-- A message is taken out of the channel. -/
theorem Carried.taken (carried : Carried head system datas) {message : FrontendMessage}
    {queue : List CopyInMessage} (queued : system.sink.sender.queue = .message message :: queue)
    (going : system.done = false) :
    Carried head { system with
      sink := { system.sink with sender := { system.sink.sender with queue, parked := false } }
      received := system.received ++ [message] } datas where
  data := carried.data
  before := carried.before
  bounded := carried.bounded
  handedOver := carried.handedOver
  settled := carried.settled
  closed := carried.closed
  parked := fun _ impossible => (by cases impossible)
  going := fun _ => by
    obtain ⟨lost, sent, none⟩ := carried.going going
    rw [queued] at sent
    refine ⟨lost, ?_, none⟩
    change system.sent head datas = _
    rw [sent, List.map_append]
    simp only [List.append_assoc]
    rfl
  ended := fun done => absurd (going.symm.trans done) Bool.false_ne_true

/-- `Done` is taken out of the channel. -/
theorem Carried.taken_done (carried : Carried head system datas) {queue : List CopyInMessage}
    (queued : system.sink.sender.queue = .done :: queue) (going : system.done = false)
    (heard : system.sink.sender.receiverGone = false) :
    Carried head { system with
      sink := { system.sink with sender := { system.sink.sender with queue, parked := false } }
      done := true
      received := system.received ++ [copyDoneMessage] } datas := by
  obtain ⟨lost, sent, none⟩ := carried.going going
  rw [queued, none heard, List.append_nil, System.sent] at sent
  have handed : system.HandedOver := by
    apply Classical.byContradiction
    intro active
    rw [if_neg active, List.append_nil] at sent
    apply done_not_message (stream head datas)
    rw [sent]
    exact List.mem_append_right _ List.mem_cons_self
  rw [if_pos handed] at sent
  obtain ⟨received, nothing⟩ := message_before_done sent
  exact {
    data := carried.data
    before := carried.before
    bounded := carried.bounded
    handedOver := carried.handedOver
    settled := carried.settled
    closed := carried.closed
    parked := fun _ impossible => (by cases impossible)
    going := fun impossible => (by cases impossible)
    ended := fun _ => by
      refine ⟨?_, nothing, (carried.handedOver handed).2⟩
      have ending : system.terminator = copyDoneMessage := if_pos handed
      change _ = stream head datas ++ [system.terminator]
      rw [ending, ← received] }

/-- The channel is found empty, and the sink gone. -/
theorem Carried.taken_end (carried : Carried head system datas)
    (queued : system.sink.sender.queue = []) (going : system.done = false)
    (heard : system.sink.sender.receiverGone = false)
    (gone : system.sink.sender.senderGone = true) :
    Carried head { system with done := true, received := system.received ++ [copyFailMessage] }
      datas := by
  obtain ⟨lost, sent, none⟩ := carried.going going
  rw [queued, none heard, List.append_nil, List.append_nil, System.sent] at sent
  have active : ¬system.HandedOver := by
    intro handed
    rw [if_pos handed] at sent
    apply done_not_message system.received
    rw [← sent]
    exact List.mem_append_right _ List.mem_cons_self
  rw [if_neg active, List.append_nil] at sent
  exact {
    carried with
    going := fun impossible => (by cases impossible)
    ended := fun _ => by
      refine ⟨?_, queued, gone⟩
      have ending : system.terminator = copyFailMessage := if_neg active
      change _ = stream head datas ++ [system.terminator]
      rw [ending, ← message_injective sent] }

theorem Carried.receive (carried : Carried head system datas) {next : System}
    (stepped : step system .receive = some next) : Carried head next datas := by
  obtain ⟨⟨⟨buffer, queue, parked, senderGone, receiverGone⟩, buf, state⟩, dropped, ready, done,
    accepted, received⟩ := system
  cases receiverGone with
  | true => cases stepped
  | false =>
      cases done with
      | true =>
          cases stepped
          exact carried
      | false =>
          cases queue with
          | nil =>
              cases senderGone with
              | true =>
                  cases stepped
                  exact carried.taken_end rfl rfl rfl rfl
              | false =>
                  cases stepped
                  exact carried
          | cons item queue =>
              cases item with
              | message message =>
                  cases stepped
                  exact carried.taken rfl rfl
              | done =>
                  cases stepped
                  exact carried.taken_done rfl rfl rfl

/-! ### Every run -/

def Invariant (head : Bytes) (system : System) : Prop := ∃ datas, Carried head system datas

theorem step_invariant (head : Bytes) (system : System) (event : Event) (next : System)
    (holds : Invariant head system) (whole : Whole system event)
    (stepped : step system event = some next) : Invariant head next := by
  obtain ⟨datas, carried⟩ := holds
  cases event with
  | pollReady =>
      simp only [step] at stepped
      split at stepped
      · cases stepped
      · cases stepped
        refine ⟨datas, { carried with parked := fun ready parked => ?_ }⟩
        have free := pollReady_unparked (of_decide_eq_true ready)
        exact absurd (free.symm.trans parked) Bool.false_ne_true
  | startSend item =>
      simp only [step] at stepped
      split at stepped
      · cases stepped
      · next allowed =>
          cases stepped
          simp only [Bool.or_eq_true, Bool.not_eq_true', decide_eq_true_eq, not_or,
            Bool.not_eq_true, Bool.not_eq_false, Decidable.not_not] at allowed
          obtain ⟨⟨alive, ready⟩, active⟩ := allowed
          have opened : system.sink.sender.senderGone = false := by
            apply Bool.eq_false_iff.mpr
            intro gone
            rcases carried.closed gone with handed | dropped
            · exact handed active
            · exact Bool.false_ne_true (alive.symm.trans dropped)
          exact carried.started (startSend_started item opened carried.bounded) opened ready whole
  | pollFlush =>
      simp only [step] at stepped
      split at stepped
      · cases stepped
      · cases stepped
        exact carried.flushed (pollFlush_flushed carried.bounded).1
  | pollFinish response =>
      simp only [step] at stepped
      split at stepped
      · cases stepped
      · cases stepped
        exact carried.finishing response
  | drop =>
      cases stepped
      exact ⟨datas, { carried with
        handedOver := fun handed => ⟨(carried.handedOver handed).1, rfl⟩
        closed := fun _ => .inr rfl
        ended := fun done => ⟨(carried.ended done).1, (carried.ended done).2.1, rfl⟩ }⟩
  | receive => exact ⟨datas, carried.receive stepped⟩
  | hangUp =>
      cases stepped
      exact ⟨datas, { carried with
        data := fun heard => (by cases heard)
        going := fun going => by
          obtain ⟨lost, sent, _⟩ := carried.going going
          refine ⟨system.sink.sender.queue ++ lost, ?_, fun heard => (by cases heard)⟩
          change system.sent head datas = _ ++ [] ++ _
          rw [sent, List.append_nil, List.append_assoc]
        ended := fun done => ⟨(carried.ended done).1, rfl, (carried.ended done).2.2⟩ }⟩

end

theorem messages_prefix {first second : List FrontendMessage} {rest ending : List CopyInMessage}
    (same : second.map CopyInMessage.message ++ ending =
      first.map CopyInMessage.message ++ rest)
    (ends : ∀ item ∈ ending, item = .done) : first <+: second := by
  induction first generalizing second with
  | nil => exact List.nil_prefix
  | cons message messages ih =>
      cases second with
      | nil =>
          rw [List.map_nil, List.nil_append] at same
          have impossible := ends (.message message) (same ▸ List.mem_cons_self)
          cases impossible
      | cons other others =>
          rw [List.map_cons, List.map_cons, List.cons_append, List.cons_append,
            List.cons.injEq] at same
          cases same.1
          exact (List.prefix_cons_inj message).mpr (ih same.2)

theorem payload_mono {first second : List FrontendMessage} (before : first <+: second) :
    payload first <+: payload second := by
  obtain ⟨rest, rfl⟩ := before
  rw [payload_append]
  exact List.prefix_append ..

theorem Carried.received_prefix {head : Bytes} {system : System} {datas : List CopyData}
    (carried : Carried head system datas) (going : system.done = false) :
    system.received <+: stream head datas := by
  obtain ⟨lost, sent, _⟩ := carried.going going
  rw [List.append_assoc, System.sent] at sent
  apply messages_prefix sent
  intro item member
  split at member
  · exact List.mem_singleton.mp member
  · exact absurd member List.not_mem_nil

/-- What holds of a copy at any time. -/
structure Intact (head : Bytes) (system : System) : Prop where
  /-- The data arrives in order, and none that has not been accepted. -/
  inOrder : payload system.received <+: system.accepted.flatten
  /-- It comes behind the statement and before the only terminator. -/
  terminated : ∃ datas,
    if system.done then system.received = stream head datas ++ [system.terminator]
    else system.received <+: stream head datas
  /-- All of it has arrived with the terminator of a finished copy. -/
  complete : system.done = true → system.HandedOver →
    payload system.received = system.accepted.flatten
  /-- What is still under way is not cut short, repeated or finished twice. -/
  underWay : system.done = false → system.sink.sender.receiverGone = false →
    ∃ datas, system.received.map .message ++ system.sink.sender.queue = system.sent head datas ∧
      payload (stream head datas) ++ system.sink.buf = system.accepted.flatten

theorem payload_terminator (system : System) : payload [system.terminator] = [] := by
  unfold System.terminator
  split <;> rfl

theorem Carried.intact {head : Bytes} {system : System} {datas : List CopyData}
    (carried : Carried head system datas) : Intact head system where
  inOrder := by
    cases done : system.done with
    | true =>
        rw [(carried.ended done).1, payload_append, payload_terminator, List.append_nil]
        exact carried.before
    | false =>
        exact (payload_mono (carried.received_prefix done)).trans carried.before
  terminated := by
    refine ⟨datas, ?_⟩
    cases done : system.done with
    | true =>
        rw [if_pos rfl]
        exact (carried.ended done).1
    | false =>
        rw [if_neg Bool.false_ne_true]
        exact carried.received_prefix done
  complete := fun done handed => by
    rw [(carried.ended done).1, payload_append, payload_terminator, List.append_nil]
    exact (carried.handedOver handed).1
  underWay := fun going heard => by
    obtain ⟨lost, sent, none⟩ := carried.going going
    rw [none heard, List.append_nil] at sent
    exact ⟨datas, sent.symm, carried.data heard⟩

/-- In a run that sends no item too large for a message behind a filled buffer,
the data of the copy arrives as it was accepted. -/
theorem execute_intact (head : Bytes) {events : List Event} {final : System}
    (run : Execution.execute step (.start head) events = some final)
    (whole : Execution.Along step Whole (.start head) events) : Intact head final := by
  have holds : Invariant head final :=
    Execution.invariant_along step (step_invariant head) run whole ⟨[], start_carried head⟩
  obtain ⟨_, carried⟩ := holds
  exact carried.intact

/-- Two items, a flush between them, and a finish that has to wait. -/
def finishedEvents : List Event :=
  [.pollReady, .startSend [7], .pollFlush, .receive, .pollReady, .startSend [8, 9],
    .pollFinish .pending, .receive, .pollFinish .pending, .receive, .receive]

theorem execute_intact_finished :
    ∃ final, Execution.execute step (.start [1]) finishedEvents = some final ∧
      final.done = true ∧ final.HandedOver ∧ Intact [1] final := by
  refine ⟨_, rfl, ?_, ?_, @execute_intact [1] finishedEvents _ rfl ?_⟩
  · decide +kernel
  · decide +kernel
  · decide +kernel

theorem startSend_oversized {self : CopyInSink} {item : Bytes} (filled : self.buf ≠ [])
    (large : self.Oversized item) :
    self.startSend item =
      (.error (.encode ⟨.invalidInput, "message length overflow"⟩), { self with buf := [] }) := by
  have refused : ¬(self.buf ++ item).length + 4 ≤ 2147483647 := by
    rw [List.length_append]
    exact Nat.not_le.mpr large.2
  have made : CopyData.new (self.buf ++ item) =
      .error ⟨.invalidInput, "message length overflow"⟩ := if_neg refused
  rw [startSend, if_pos large.1, if_neg (fun empty => filled (List.isEmpty_iff.mp empty)), sendData,
    made]

/-- A byte, and an item too large for a message behind it. -/
def oversizedEvents (item : Bytes) : List Event :=
  [.pollReady, .startSend [7], .pollReady, .startSend item, .pollFinish .pending, .receive, .receive]

theorem execute_oversized {item : Bytes} (large : 2147483647 < item.length) :
    ∃ final, Execution.execute step (.start []) (oversizedEvents item) = some final ∧
      final.done = true ∧ final.HandedOver ∧ final.accepted = [[7]] ∧
      payload final.received = [] := by
  let filled : CopyInSink :=
    { sender := { buffer := 1, queue := [.message (.raw [])] }, buf := [7] }
  have oversized : filled.Oversized item :=
    ⟨by omega, by change 2147483647 < 1 + item.length + 4; omega⟩
  have refused := startSend_oversized (fun impossible => (by cases impossible)) oversized
  have lost : step { sink := filled, ready := true, accepted := [[7]] } (.startSend item) =
      some { sink := { filled with buf := [] }, accepted := [[7]] } := by
    simp only [step, refused]
    rfl
  have cons {system next final : System} {event : Event} {events : List Event}
      (stepped : step system event = some next)
      (later : Execution.execute step next events = some final) :
      Execution.execute step system (event :: events) = some final :=
    (Execution.execute_cons step).mpr ⟨next, stepped, later⟩
  refine ⟨_, cons rfl (cons rfl (cons rfl (cons lost rfl))), ?_, ?_, ?_, ?_⟩
  · decide +kernel
  · decide +kernel
  · rfl
  · decide +kernel

/-- An item of `2 ^ 31` bytes is refused, and the byte in front of it is lost. -/
theorem not_intact_oversized :
    ¬∀ (head : Bytes) (events : List Event) (final : System),
      Execution.execute step (.start head) events = some final → Intact head final := by
  intro always
  have large : 2147483647 < (List.replicate (2 ^ 31) (0 : UInt8)).length := by
    rw [List.length_replicate]
    decide
  obtain ⟨final, run, done, handed, accepted, received⟩ := execute_oversized large
  have complete := (always [] _ final run).complete done handed
  rw [received, accepted] at complete
  cases complete

end OpenGauss.Driver.CopyInSink
