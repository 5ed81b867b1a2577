import Mathlib.Data.List.Basic

/-! Bounded channels with one sending half (`futures_channel::mpsc`): a sender
may always put one item more than the buffer holds, and is parked by it until
the receiver takes the next item. -/

set_option autoImplicit false

namespace OpenGauss.Lib

inductive Poll (Value : Type) where
  | ready (value : Value)
  | pending
  deriving DecidableEq, Repr

inductive SendError where
  | full
  | disconnected
  deriving DecidableEq, Repr

structure Channel (Item : Type) where
  buffer : Nat
  queue : List Item := []
  parked : Bool := false
  senderGone : Bool := false
  receiverGone : Bool := false
  deriving DecidableEq

namespace Channel

variable {Item : Type}

/-- `Sender::poll_ready`. -/
def pollReady (self : Channel Item) : Poll (Except SendError Unit) :=
  if self.senderGone || self.receiverGone then .ready (.error .disconnected)
  else if self.parked then .pending
  else .ready (.ok ())

/-- `Sender::start_send`. -/
def startSend (self : Channel Item) (item : Item) : Except SendError (Channel Item) :=
  if self.senderGone then .error .disconnected
  else if self.parked then .error .full
  else if self.receiverGone then .error .disconnected
  else
    .ok { self with
      queue := self.queue ++ [item]
      parked := decide (self.buffer < self.queue.length + 1) }

/-- `Sink::poll_flush` of a sender: flushed, too, once the receiver is gone. -/
def pollFlush (self : Channel Item) : Poll (Except SendError Unit) :=
  match self.pollReady with
  | .ready _ => .ready (.ok ())
  | .pending => .pending

/-- `Sink::poll_close` of a sender, and the drop of one. -/
def closeSender (self : Channel Item) : Channel Item := { self with senderGone := true }

/-- `Receiver::poll_next`. -/
def pollNext (self : Channel Item) : Poll (Option Item) × Channel Item :=
  match self.queue with
  | item :: queue => (.ready (some item), { self with queue, parked := false })
  | [] => (if self.senderGone then .ready none else .pending, self)

/-- The drop of a receiver. -/
def closeReceiver (self : Channel Item) : Channel Item :=
  { self with queue := [], receiverGone := true }

/-- What a successful send requires and does. -/
theorem startSend_ok {self after : Channel Item} {item : Item}
    (sent : self.startSend item = .ok after) :
    self.senderGone = false ∧ self.receiverGone = false ∧
      after = { self with
        queue := self.queue ++ [item]
        parked := decide (self.buffer < self.queue.length + 1) } := by
  obtain ⟨buffer, queue, parked, senderGone, receiverGone⟩ := self
  cases senderGone with
  | true => cases sent
  | false =>
      cases parked with
      | true => cases sent
      | false =>
          cases receiverGone with
          | true => cases sent
          | false =>
              cases sent
              exact ⟨rfl, rfl, rfl⟩

/-- A sender that is ready sends. -/
theorem startSend_of_ready {self : Channel Item} (item : Item)
    (ready : self.pollReady = .ready (.ok ())) :
    self.startSend item = .ok { self with
      queue := self.queue ++ [item]
      parked := decide (self.buffer < self.queue.length + 1) } := by
  obtain ⟨buffer, queue, parked, senderGone, receiverGone⟩ := self
  cases senderGone with
  | true => cases ready
  | false =>
      cases receiverGone with
      | true => cases ready
      | false =>
          cases parked with
          | true => cases ready
          | false => rfl

end Channel

end OpenGauss.Lib
