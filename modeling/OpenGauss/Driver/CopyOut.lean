import OpenGauss.Driver.CodecProperties
import OpenGauss.Driver.Error

/-! The answers to a request (`tokio-opengauss`, `client.rs`), and the stream of the data of a
`COPY ... TO STDOUT` (`copy_out.rs`). -/

set_option autoImplicit false

namespace OpenGauss.Driver

open Protocol Protocol.Backend Lib.Framing

/-- `Responses`: the batch that is being read, and the batches that come through the channel
before it is closed. -/
structure Responses where
  cur : BackendMessages
  receiver : List BackendMessages
  deriving DecidableEq, Repr

namespace Responses

/-- The loop of `Responses::poll_next`. -/
def next (cur : BackendMessages) (receiver : List BackendMessages) :
    Except Error Message × Responses :=
  match cur.next with
  | (.error error, cur) => (.error (.parse error), ⟨cur, receiver⟩)
  | (.ok (some (.errorResponse body)), cur) => (.error (.ofBody body), ⟨cur, receiver⟩)
  | (.ok (some message), cur) => (.ok message, ⟨cur, receiver⟩)
  | (.ok none, cur) =>
      match receiver with
      | [] => (.error .closed, ⟨cur, []⟩)
      | messages :: receiver => next messages receiver

def pollNext (responses : Responses) : Except Error Message × Responses :=
  next responses.cur responses.receiver

/-- The bytes that are left to read. -/
def size (responses : Responses) : Nat :=
  responses.cur.buf.length + (responses.receiver.map fun messages => messages.buf.length).sum

end Responses

structure CopyOutStream where
  responses : Responses
  deriving DecidableEq, Repr

/-- `CopyOutStream::poll_next`; `none` is the end of the stream. -/
def CopyOutStream.pollNext (stream : CopyOutStream) : Option (Except Error Bytes) × CopyOutStream :=
  match stream.responses.pollNext with
  | (.error error, responses) => (some (.error error), ⟨responses⟩)
  | (.ok (.copyData body), responses) => (some (.ok body), ⟨responses⟩)
  | (.ok .copyDone, responses) => (none, ⟨responses⟩)
  | (.ok _, responses) => (some (.error .unexpectedMessage), ⟨responses⟩)

/-! ### Every message is shorter than what it is read from -/

theorem BackendMessages.next_shorter {messages rest : BackendMessages} {message : Message}
    (read : messages.next = (.ok (some message), rest)) : rest.buf.length < messages.buf.length := by
  rw [BackendMessages.next] at read
  cases framed messages.buf with
  | incomplete short =>
      rw [parseWithMode_of_incomplete messages.mode short] at read
      cases read
  | invalid len field small =>
      rw [parseWithMode_of_invalid messages.mode field small] at read
      cases read
  | complete len whole =>
      rw [parseWithMode_of_complete messages.mode whole] at read
      obtain ⟨_, rfl⟩ := Prod.mk.inj read
      have inside := whole.2.2
      rw [List.length_drop]
      omega

theorem Responses.size_lt_size {cur rest : BackendMessages} {receiver : List BackendMessages}
    (shorter : rest.buf.length < cur.buf.length) :
    (Responses.mk rest receiver).size < (Responses.mk cur receiver).size :=
  Nat.add_lt_add_right shorter _

theorem Responses.next_shorter {cur : BackendMessages} {receiver : List BackendMessages}
    {message : Message} {rest : Responses} (read : next cur receiver = (.ok message, rest)) :
    rest.size < (Responses.mk cur receiver).size := by
  induction receiver generalizing cur with
  | nil =>
      rw [next] at read
      split at read
      · cases read
      · cases read
      · next found =>
          obtain ⟨_, rfl⟩ := Prod.mk.inj read
          exact size_lt_size (BackendMessages.next_shorter found)
      · cases read
  | cons messages receiver ih =>
      rw [next] at read
      split at read
      · cases read
      · cases read
      · next found =>
          obtain ⟨_, rfl⟩ := Prod.mk.inj read
          exact size_lt_size (BackendMessages.next_shorter found)
      · have later := ih read
        simp only [size, List.map_cons, List.sum_cons] at later ⊢
        omega

theorem CopyOutStream.pollNext_shorter {stream rest : CopyOutStream} {chunk : Bytes}
    (read : stream.pollNext = (some (.ok chunk), rest)) :
    rest.responses.size < stream.responses.size := by
  rw [pollNext] at read
  split at read
  · cases read
  · next found =>
      obtain ⟨_, rfl⟩ := Prod.mk.inj read
      exact Responses.next_shorter found
  · cases read
  · cases read

/-! ### The answers to come -/

variable {mode : AuthMode}

/-- The batches of these frames are what is left to read. -/
structure Responses.Holds (responses : Responses) (batch : List (Frame mode))
    (later : List (List (Frame mode))) : Prop where
  cur : responses.cur = ⟨encodeAll Frame.bytes batch, mode⟩
  receiver : responses.receiver = later.map fun batch => ⟨encodeAll Frame.bytes batch, mode⟩

/-- The messages that are left to read, however they are batched. -/
def Responses.Ahead (mode : AuthMode) (responses : Responses) (messages : List Message) : Prop :=
  ∃ (batch : List (Frame mode)) (later : List (List (Frame mode))),
    responses.Holds batch later ∧ messages = (batch ++ later.flatten).map (·.message)

theorem BackendMessages.next_frames (frame : Frame mode) (frames : List (Frame mode)) :
    BackendMessages.next ⟨encodeAll Frame.bytes (frame :: frames), mode⟩ =
      (.ok (some frame.message), ⟨encodeAll Frame.bytes frames, mode⟩) := by
  rw [BackendMessages.next, encodeAll_cons, Frame.parse_append]

theorem BackendMessages.next_nil :
    BackendMessages.next ⟨encodeAll Frame.bytes ([] : List (Frame mode)), mode⟩ =
      (.ok none, ⟨[], mode⟩) := rfl

/-- With every answer read, the channel is closed. -/
theorem Responses.pollNext_nil {responses : Responses} (ahead : responses.Ahead mode []) :
    ∃ rest, responses.pollNext = (.error .closed, rest) ∧ rest.Ahead mode [] := by
  obtain ⟨batch, later, ⟨cur, receiver⟩, none⟩ := ahead
  rw [pollNext, cur, receiver]
  obtain ⟨rfl, empty⟩ := List.append_eq_nil_iff.mp (List.map_eq_nil_iff.mp none.symm)
  clear none cur receiver
  induction later with
  | nil => exact ⟨⟨⟨[], mode⟩, []⟩, rfl, [], [], ⟨rfl, rfl⟩, rfl⟩
  | cons batch later ih =>
      obtain ⟨rfl, empty⟩ := List.append_eq_nil_iff.mp empty
      exact ih empty

theorem Responses.next_message {cur rest : BackendMessages} {receiver : List BackendMessages}
    {message : Message} (read : cur.next = (.ok (some message), rest))
    (harmless : ∀ body, message ≠ .errorResponse body) :
    next cur receiver = (.ok message, ⟨rest, receiver⟩) := by
  rw [next.eq_def, read]
  split
  · next impossible => cases impossible
  · next found =>
      cases found
      exact absurd rfl (harmless _)
  · next found =>
      cases found
      rfl
  · next impossible => cases impossible

/-- The answers are read one after the other, but for an error. -/
theorem Responses.pollNext_cons {responses : Responses} {message : Message}
    {messages : List Message} (ahead : responses.Ahead mode (message :: messages))
    (harmless : ∀ body, message ≠ .errorResponse body) :
    ∃ rest, responses.pollNext = (.ok message, rest) ∧ rest.Ahead mode messages := by
  obtain ⟨batch, later, ⟨cur, receiver⟩, whole⟩ := ahead
  rw [pollNext, cur, receiver]
  clear cur receiver
  induction later generalizing batch with
  | nil =>
      cases batch with
      | nil => cases whole
      | cons frame batch =>
          obtain ⟨rfl, rfl⟩ := List.cons.inj whole
          exact ⟨_, next_message (BackendMessages.next_frames frame batch) harmless, batch, [],
            ⟨rfl, rfl⟩, rfl⟩
  | cons following later ih =>
      cases batch with
      | nil => exact ih following whole
      | cons frame batch =>
          obtain ⟨rfl, rfl⟩ := List.cons.inj whole
          exact ⟨_, next_message (BackendMessages.next_frames frame batch) harmless, batch,
            following :: later, ⟨rfl, rfl⟩, rfl⟩

theorem CopyOutStream.pollNext_copyData {stream : CopyOutStream} {chunk : Bytes}
    {messages : List Message} (ahead : stream.responses.Ahead mode (.copyData chunk :: messages)) :
    ∃ rest, stream.pollNext = (some (.ok chunk), rest) ∧ rest.responses.Ahead mode messages := by
  obtain ⟨rest, read, ahead⟩ := Responses.pollNext_cons ahead (by simp)
  exact ⟨⟨rest⟩, by rw [pollNext, read], ahead⟩

theorem CopyOutStream.pollNext_copyDone {stream : CopyOutStream} {messages : List Message}
    (ahead : stream.responses.Ahead mode (.copyDone :: messages)) :
    ∃ rest, stream.pollNext = (none, rest) ∧ rest.responses.Ahead mode messages := by
  obtain ⟨rest, read, ahead⟩ := Responses.pollNext_cons ahead (by simp)
  exact ⟨⟨rest⟩, by rw [pollNext, read], ahead⟩

/-- What the stream answers with is not for it. -/
inductive Foreign : Message → Prop where
  | commandComplete (tag : Bytes) : Foreign (.commandComplete tag)
  | readyForQuery (status : UInt8) : Foreign (.readyForQuery status)

/-- Behind its end the stream answers with errors only. -/
theorem CopyOutStream.pollNext_foreign {stream : CopyOutStream} {messages : List Message}
    (ahead : stream.responses.Ahead mode messages) (foreign : ∀ message ∈ messages, Foreign message) :
    ∃ error rest later, stream.pollNext = (some (.error error), rest) ∧
      rest.responses.Ahead mode later ∧ later <:+ messages := by
  cases messages with
  | nil =>
      obtain ⟨rest, read, ahead⟩ := Responses.pollNext_nil ahead
      exact ⟨.closed, ⟨rest⟩, [], by rw [pollNext, read], ahead, List.suffix_rfl⟩
  | cons message messages =>
      cases foreign message List.mem_cons_self with
      | commandComplete tag =>
          obtain ⟨rest, read, ahead⟩ := Responses.pollNext_cons ahead (by simp)
          exact ⟨.unexpectedMessage, ⟨rest⟩, messages, by rw [pollNext, read], ahead,
            List.suffix_cons _ _⟩
      | readyForQuery status =>
          obtain ⟨rest, read, ahead⟩ := Responses.pollNext_cons ahead (by simp)
          exact ⟨.unexpectedMessage, ⟨rest⟩, messages, by rw [pollNext, read], ahead,
            List.suffix_cons _ _⟩

end OpenGauss.Driver
