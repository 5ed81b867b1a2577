import OpenGauss.Driver.CodecProperties
import OpenGauss.Driver.Startup

/-! Nothing gets lost when a connection takes over the stream of its startup: a
batch never reaches beyond a `ReadyForQuery`, so the one that is dropped is
empty by then. -/

set_option autoImplicit false

namespace OpenGauss.Driver.Startup

open Protocol Protocol.Backend Connection Lib.Framing PostgresCodec

variable {mode : AuthMode} {Messages : Type}

/-! ### The framed stream, by the frames ahead of it -/

/-- The framed stream holds, or is going to hold, exactly these frames. -/
structure Framed.Ahead (framed : Framed) (frames : List (Frame mode)) : Prop where
  mode : framed.mode = mode
  bytes : framed.bytes = encodeAll Frame.bytes frames

theorem decode_prefix {buffer : Bytes} {frames : List (Frame mode)}
    (arrived : buffer <+: encodeAll Frame.bytes frames) :
    (decode mode buffer = (.ok none, buffer) ∧
        (buffer = encodeAll Frame.bytes frames → frames = [])) ∨
      ∃ item part rest left, decode mode buffer = (.ok (some item), left) ∧ Carries item part ∧
        part ≠ [] ∧ frames = part ++ rest ∧ buffer = encodeAll Frame.bytes part ++ left := by
  obtain ⟨done, rest, tail, rfl, received, unfinished⟩ :=
    split_prefix Frame.bytes frames buffer arrived
  have decoded := decode_frames done rest tail unfinished
  rw [← received] at decoded
  cases found : nextItem done with
  | none =>
      have nothing := nextItem_eq_none found
      subst nothing
      have same : buffer = tail := received
      subst same
      left
      simp only [found] at decoded
      refine ⟨decoded, ?_⟩
      intro whole
      have nothing : encodeAll Frame.bytes ([] ++ rest) =
          encodeAll Frame.bytes ([] : List (Frame mode)) ++ buffer := whole.symm
      exact (unfinished.whole Frame.bytes nothing).1
  | some result =>
      obtain ⟨item, later⟩ := result
      obtain ⟨part, carries, nonempty, rfl⟩ := nextItem_carries found
      right
      simp only [found] at decoded
      refine ⟨item, part, later ++ rest, _, decoded, carries, nonempty, by simp, ?_⟩
      rw [received, encodeAll_append, List.append_assoc]

/-- Polling gives the item at the front, or waits when there are no frames. -/
theorem pollFramed_frames (chunks : List Bytes) (buffer : Bytes) (frames : List (Frame mode))
    (whole : buffer ++ chunks.flatten = encodeAll Frame.bytes frames) :
    (frames = [] ∧ (pollFramed mode buffer chunks).1 = .pending) ∨
      ∃ item part rest, (pollFramed mode buffer chunks).1 = .item item ∧ Carries item part ∧
        part ≠ [] ∧ frames = part ++ rest ∧ (pollFramed mode buffer chunks).2.Ahead rest := by
  have arrived : buffer <+: encodeAll Frame.bytes frames := whole ▸ List.prefix_append _ _
  induction chunks generalizing buffer with
  | nil =>
      rw [List.flatten_nil, List.append_nil] at whole
      rcases decode_prefix arrived with ⟨decoded, finished⟩ |
        ⟨item, part, rest, left, decoded, carries, nonempty, rfl, split⟩
      · left
        exact ⟨finished whole, by simp only [pollFramed, decoded]⟩
      · right
        refine ⟨item, part, rest, by simp only [pollFramed, decoded], carries, nonempty, rfl, ?_⟩
        simp only [pollFramed, decoded]
        refine ⟨rfl, ?_⟩
        rw [split, encodeAll_append, List.append_cancel_left_eq] at whole
        simpa [Framed.bytes] using whole
  | cons chunk chunks ih =>
      rw [List.flatten_cons] at whole
      rcases decode_prefix arrived with ⟨decoded, -⟩ |
        ⟨item, part, rest, left, decoded, carries, nonempty, rfl, split⟩
      · simp only [pollFramed, decoded]
        rw [← List.append_assoc] at whole
        exact ih (buffer ++ chunk) whole (whole ▸ List.prefix_append _ _)
      · right
        refine ⟨item, part, rest, by simp only [pollFramed, decoded], carries, nonempty, rfl, ?_⟩
        simp only [pollFramed, decoded]
        refine ⟨rfl, ?_⟩
        rw [split, encodeAll_append, List.append_assoc, List.append_cancel_left_eq] at whole
        simpa [Framed.bytes] using whole

theorem Framed.Ahead.pollNext {framed : Framed} {frames : List (Frame mode)}
    (ahead : framed.Ahead frames) :
    (frames = [] ∧ framed.pollNext.1 = .pending) ∨
      ∃ item part rest, framed.pollNext.1 = .item item ∧ Carries item part ∧
        part ≠ [] ∧ frames = part ++ rest ∧ framed.pollNext.2.Ahead rest := by
  have polled := pollFramed_frames framed.chunks framed.buffer frames ahead.bytes
  rw [Framed.pollNext, ahead.mode]
  exact polled

/-! ### The startup stream -/

/-- The stream has these frames left of its batch, and is going to read those
from the framed stream below. -/
structure StartupStream.Holds (stream : StartupStream) (batch later : List (Frame mode)) :
    Prop where
  buf : stream.buf.buf = encodeAll Frame.bytes batch
  mode : batch ≠ [] → stream.buf.mode = mode
  onlyLast : ∀ frame ∈ batch.dropLast, frame.tag ≠ readyForQueryTag
  inner : stream.inner.Ahead later

/-- The stream is going to hand out these frames, and after a `ReadyForQuery`
they are all in the framed stream below. -/
def StartupStream.Ahead (stream : StartupStream) (frames : List (Frame mode)) : Prop :=
  ∃ batch later, stream.Holds batch later ∧ frames = batch ++ later

theorem StartupStream.Holds.next_cons {stream : StartupStream} {frame : Frame mode}
    {batch later : List (Frame mode)} (holds : stream.Holds (frame :: batch) later) :
    stream.buf.next = (.ok (some frame.message), ⟨encodeAll Frame.bytes batch, mode⟩) := by
  rw [BackendMessages.next, holds.mode (List.cons_ne_nil _ _), holds.buf, encodeAll_cons,
    Frame.parse_append]

theorem StartupStream.Holds.next_nil {stream : StartupStream} {later : List (Frame mode)}
    (holds : stream.Holds [] later) : stream.buf.next = (.ok none, stream.buf) := by
  have empty : stream.buf.buf = [] := holds.buf
  rw [BackendMessages.next, empty, parse_nil]
  simp [← empty]

/-- A `ReadyForQuery` is the last of its batch. -/
theorem StartupStream.Holds.ready_last {stream : StartupStream} {frame : Frame mode}
    {batch later : List (Frame mode)} (holds : stream.Holds (frame :: batch) later)
    (ready : frame.tag = readyForQueryTag) : batch = [] := by
  cases batch with
  | nil => rfl
  | cons second batch => exact absurd ready (holds.onlyLast frame (by simp))

/-- What the stream is after a message of its batch. -/
theorem StartupStream.Holds.advance {stream : StartupStream} {frame : Frame mode}
    {batch later : List (Frame mode)} (holds : stream.Holds (frame :: batch) later) :
    { stream with buf := ⟨encodeAll Frame.bytes batch, mode⟩ : StartupStream }.Holds batch later where
  buf := rfl
  mode := fun _ => rfl
  onlyLast := by
    intro other member
    cases batch with
    | nil => simp at member
    | cons second batch => exact holds.onlyLast other (by simp [member])
  inner := holds.inner

/-- What is known of the stream once it has handed out `frame`. -/
def StartupStream.After (before after : StartupStream) (frame : Frame mode)
    (rest : List (Frame mode)) : Prop :=
  after.Ahead rest ∧ after.delayed = before.delayed ∧
    (frame.tag = readyForQueryTag → after.inner.Ahead rest)

theorem StartupStream.pollUpTo_batch {stream : StartupStream} {frame : Frame mode}
    {batch later : List (Frame mode)} (holds : stream.Holds (frame :: batch) later) (turns : Nat) :
    (stream.pollUpTo (turns + 1)).1 = .message frame.message ∧
      stream.After (stream.pollUpTo (turns + 1)).2 frame (batch ++ later) := by
  rw [pollUpTo, holds.next_cons]
  refine ⟨rfl, ⟨batch, later, holds.advance, rfl⟩, rfl, ?_⟩
  intro ready
  rw [holds.ready_last ready]
  exact holds.inner

/-- Polling gives the message at the front. -/
theorem StartupStream.pollUpTo_frame {stream : StartupStream} {frame : Frame mode}
    {rest : List (Frame mode)} (ahead : stream.Ahead (frame :: rest)) (turns : Nat) :
    (stream.pollUpTo (turns + 2)).1 = .message frame.message ∧
      stream.After (stream.pollUpTo (turns + 2)).2 frame rest := by
  obtain ⟨batch, later, holds, split⟩ := ahead
  cases batch with
  | cons first batch =>
      obtain ⟨rfl, rfl⟩ := List.cons.inj split
      exact pollUpTo_batch holds (turns + 1)
  | nil =>
      rw [List.nil_append] at split
      subst split
      rw [pollUpTo, holds.next_nil]
      rcases holds.inner.pollNext with ⟨impossible, -⟩ |
        ⟨item, part, left, polled, carries, nonempty, split, inner⟩
      · cases impossible
      · generalize stream.inner.pollNext = result at polled inner
        obtain ⟨answer, framed⟩ := result
        simp only at polled inner
        subst polled
        cases carries with
        | @async first isAsync =>
            obtain ⟨rfl, rfl⟩ := List.cons.inj split
            have stays : ({ stream with inner := framed } : StartupStream).Holds [] rest :=
              ⟨holds.buf, holds.mode, holds.onlyLast, inner⟩
            exact ⟨rfl, ⟨[], rest, stays, rfl⟩, rfl, fun _ => inner⟩
        | normal _ onlyLast _ =>
            have taken : ({ stream with
                inner := framed
                buf := ⟨encodeAll Frame.bytes part, mode⟩ } : StartupStream).Holds part left :=
              ⟨rfl, fun _ => rfl, onlyLast, inner⟩
            cases part with
            | nil => exact absurd rfl nonempty
            | cons first batch =>
                obtain ⟨rfl, rfl⟩ := List.cons.inj split
                exact pollUpTo_batch taken turns

theorem StartupStream.pollNext_frame {stream : StartupStream} {frame : Frame mode}
    {rest : List (Frame mode)} (ahead : stream.Ahead (frame :: rest)) :
    ∃ after, stream.pollNext = (.message frame.message, after) ∧
      stream.After after frame rest := by
  obtain ⟨polled, after⟩ := pollUpTo_frame ahead stream.inner.bytes.length
  exact ⟨_, Prod.ext polled rfl, after⟩

/-- `authenticate` takes its messages and leaves the others. -/
theorem takeMessages_frames (auth rest : List (Frame mode)) (stream : StartupStream)
    (ahead : stream.Ahead (auth ++ rest)) :
    ∃ after, takeMessages auth.length stream = some (auth.map (·.message), after) ∧
      after.Ahead rest ∧ after.delayed = stream.delayed := by
  induction auth generalizing stream with
  | nil => exact ⟨stream, rfl, ahead, rfl⟩
  | cons frame auth ih =>
      obtain ⟨next, polled, remaining, kept, -⟩ := StartupStream.pollNext_frame ahead
      obtain ⟨after, taken, left, same⟩ := ih next remaining
      refine ⟨after, ?_, left, same.trans kept⟩
      rw [List.length_cons, takeMessages, polled]
      simp only [taken, Option.map_some, List.map_cons]

/-! ### The messages between the authentication and `ReadyForQuery` -/

/-- The messages by which a server introduces itself. -/
inductive Announces : Message → Prop where
  | backendKeyData (body : BackendKeyDataBody) : Announces (.backendKeyData body)
  | parameterStatus (body : ParameterStatusBody) : Announces (.parameterStatus body)
  | noticeResponse (storage : Bytes) : Announces (.noticeResponse storage)
  | negotiateProtocolVersion : Announces .negotiateProtocolVersion

/-- The parameters after one more message. -/
def announce (parameters : List (String × String)) :
    Message → Except IoError (List (String × String))
  | .parameterStatus body => do
      let name ← getStr body.name
      let value ← getStr body.value
      return insertParameter parameters name value
  | _ => .ok parameters

/-- The notices among the messages, as a connection is given them. -/
def notices : List Message → List BackendMessage
  | [] => []
  | .noticeResponse storage :: messages => .async (.noticeResponse storage) :: notices messages
  | _ :: messages => notices messages

theorem parseMessage_ready (mode : AuthMode) (body : Bytes) :
    parseMessage mode readyForQueryTag body =
      (Buffer.readU8 body).map fun read => (.readyForQuery read.1, read.2) := by
  cases body <;> rfl

theorem ready_message {frame : Frame mode} (ready : frame.tag = readyForQueryTag) :
    ∃ status, frame.message = .readyForQuery status := by
  have accepted := frame.accepted
  rw [ready, parseFrame, parseMessage_ready] at accepted
  cases body : frame.body with
  | nil => simp [body, Buffer.readU8, Except.map] at accepted
  | cons status rest =>
      rw [body, Buffer.readU8, Except.map] at accepted
      cases rest with
      | nil => exact ⟨status, (Except.ok.inj accepted).symm⟩
      | cons second rest => simp at accepted

/-- What `read_info` comes to, when the messages fold to `parameters`. -/
def Reads (stream : StartupStream) (messages : List Message) (rest : List (Frame mode))
    (read : Awaited (Info × StartupStream)) : Except IoError (List (String × String)) → Prop
  | .error error => read = .failed (.parse error)
  | .ok parameters =>
      ∃ info after, read = .done (info, after) ∧ info.parameters = parameters ∧
        after.inner.Ahead rest ∧ after.delayed = stream.delayed ++ notices messages

theorem Reads.later {stream next : StartupStream} {message : Message} {messages : List Message}
    {rest : List (Frame mode)} {read : Awaited (Info × StartupStream)}
    {folded : Except IoError (List (String × String))}
    (delayed : next.delayed ++ notices messages = stream.delayed ++ notices (message :: messages))
    (reads : Reads next messages rest read folded) :
    Reads stream (message :: messages) rest read folded := by
  cases folded with
  | error error => exact reads
  | ok parameters =>
      obtain ⟨info, after, done, same, inner, kept⟩ := reads
      exact ⟨info, after, done, same, inner, kept.trans delayed⟩

/-- `read_info` folds the parameters and puts the notices off. -/
theorem readInfo_frames (announced : List (Frame mode)) (ready : Frame mode)
    (rest : List (Frame mode)) (turns : Nat) (stream : StartupStream) (info : Info)
    (isReady : ready.tag = readyForQueryTag)
    (kinds : ∀ frame ∈ announced, Announces frame.message)
    (ahead : stream.Ahead (announced ++ ready :: rest)) (enough : announced.length < turns) :
    Reads stream (announced.map (·.message)) rest (readInfo turns stream info)
      ((announced.map (·.message)).foldlM announce info.parameters) := by
  induction announced generalizing turns stream info with
  | nil =>
      obtain ⟨turns, rfl⟩ : ∃ fewer, turns = fewer + 1 := ⟨turns - 1, by simp at enough; omega⟩
      obtain ⟨next, polled, -, kept, inner⟩ := StartupStream.pollNext_frame ahead
      obtain ⟨status, message⟩ := ready_message isReady
      refine ⟨info, next, ?_, rfl, inner isReady, by simp [kept, notices]⟩
      rw [readInfo, polled, message]
  | cons frame announced ih =>
      obtain ⟨turns, rfl⟩ : ∃ fewer, turns = fewer + 1 := ⟨turns - 1, by simp at enough; omega⟩
      obtain ⟨next, polled, remaining, kept, -⟩ := StartupStream.pollNext_frame ahead
      have fewer : announced.length < turns := by simpa using enough
      have others : ∀ frame ∈ announced, Announces frame.message := by
        intro other member
        exact kinds other (List.mem_cons_of_mem _ member)
      rw [List.map_cons, List.foldlM_cons, readInfo, polled]
      have kind := kinds frame List.mem_cons_self
      generalize frame.message = message at kind
      simp only
      cases kind with
      | backendKeyData body =>
          refine Reads.later ?_ (ih turns next _ others remaining fewer)
          simp [kept, notices]
      | parameterStatus body =>
          simp only [announce]
          cases name : getStr body.name with
          | error error => exact rfl
          | ok name =>
              cases value : getStr body.value with
              | error error => exact rfl
              | ok value =>
                  refine Reads.later ?_ (ih turns next _ others remaining fewer)
                  simp [kept, notices]
      | noticeResponse storage =>
          have waiting : ({ next with
              delayed := next.delayed ++ [.async (.noticeResponse storage)] } :
                StartupStream).Ahead (announced ++ ready :: rest) := by
            obtain ⟨batch, later, holds, split⟩ := remaining
            exact ⟨batch, later, ⟨holds.buf, holds.mode, holds.onlyLast, holds.inner⟩, split⟩
          refine Reads.later ?_ (ih turns _ info others waiting fewer)
          simp [kept, notices]
      | negotiateProtocolVersion =>
          refine Reads.later ?_ (ih turns next info others remaining fewer)
          simp [kept, notices]

/-! ### The hand-over -/

theorem StartupStream.Ahead.length_le {stream : StartupStream} {frames : List (Frame mode)}
    (ahead : stream.Ahead frames) :
    frames.length ≤ stream.buf.buf.length + stream.inner.bytes.length := by
  obtain ⟨batch, later, holds, rfl⟩ := ahead
  rw [holds.buf, holds.inner.bytes, List.length_append]
  exact Nat.add_le_add (length_le_encodeAll Frame.bytes Frame.bytes_ne_nil batch)
    (length_le_encodeAll Frame.bytes Frame.bytes_ne_nil later)

/-- A connection without put off messages takes what is in its stream. -/
theorem receive_stream (count : Nat) (connection : Connection Messages) (framed : Framed)
    (frames : List (Frame mode)) (ahead : framed.Ahead frames)
    (none : connection.pendingResponses = []) (enough : frames.length ≤ count) :
    ∃ items parts, receive count connection framed = items ∧ List.Forall₂ Carries items parts ∧
      parts.flatten = frames := by
  induction count generalizing framed frames with
  | zero =>
      have nothing := List.length_eq_zero_iff.mp (Nat.le_zero.mp enough)
      exact ⟨[], [], rfl, .nil, nothing.symm⟩
  | succ count ih =>
      rw [receive, if_pos none]
      rcases ahead.pollNext with ⟨rfl, waits⟩ |
        ⟨item, part, left, polled, carries, nonempty, rfl, inner⟩
      · generalize framed.pollNext = result at waits
        obtain ⟨answer, after⟩ := result
        simp only at waits
        subst waits
        exact ⟨[], [], rfl, .nil, rfl⟩
      · generalize framed.pollNext = result at polled inner
        obtain ⟨answer, after⟩ := result
        simp only at polled inner
        subst polled
        have shorter : left.length ≤ count := by
          have positive := List.length_pos_of_ne_nil nonempty
          rw [List.length_append] at enough
          omega
        obtain ⟨items, parts, received, carried, covered⟩ := ih after left inner shorter
        exact ⟨item :: items, part :: parts, by simp only [received], .cons carries carried,
          by simp [covered]⟩

/-- The messages that were put off come first. -/
theorem receive_pending (connection : Connection Messages) (framed : Framed) (count : Nat)
    (delayed : List BackendMessage) (put : connection.pendingResponses = delayed) :
    receive (delayed.length + count) connection framed =
      delayed ++ receive count { connection with pendingResponses := [] } framed := by
  induction delayed generalizing connection with
  | nil =>
      have same : { connection with pendingResponses := [] } = connection := by rw [← put]
      rw [same, List.length_nil, Nat.zero_add, List.nil_append]
  | cons item delayed ih =>
      have later := ih { connection with pendingResponses := delayed } rfl
      have turns : (item :: delayed).length + count = delayed.length + count + 1 := by
        rw [List.length_cons]
        omega
      rw [turns, receive, if_neg (by simp [put]), pollResponse, put]
      simp only [later, List.cons_append]

/-- Nothing is lost between the startup of a connection and the connection: it
is given the notices of the startup, and then everything after the first
`ReadyForQuery`, whatever the chunks are. Its parameters are those that the
server has announced, one after the other. -/
theorem handOver_complete (auth announced rest : List (Frame mode)) (ready : Frame mode)
    (chunks : List Bytes)
    (arrives : chunks.flatten = encodeAll Frame.bytes (auth ++ (announced ++ ready :: rest)))
    (isReady : ready.tag = readyForQueryTag)
    (kinds : ∀ frame ∈ announced, Announces frame.message) :
    ∃ stream, takeMessages auth.length { inner := { mode, chunks } } =
        some (auth.map (·.message), stream) ∧
      (∀ error, (announced.map (·.message)).foldlM announce [] = .error error →
        connect Messages stream = .failed (.parse error)) ∧
      ∀ parameters, (announced.map (·.message)).foldlM announce [] = .ok parameters →
        ∃ connected, connect Messages stream = .done connected ∧
          connected.connection.parameters = parameters ∧
          ∀ count, (notices (announced.map (·.message))).length + rest.length ≤ count →
            ∃ items, receive count connected.connection connected.inner =
                notices (announced.map (·.message)) ++ items ∧
              BackendMessage.flattenAll items = .ok (rest.map (·.message)) := by
  have fresh : ({ inner := { mode, chunks } } : StartupStream).Ahead
      (auth ++ (announced ++ ready :: rest)) :=
    ⟨[], _, ⟨rfl, by simp, by simp, rfl, arrives⟩, rfl⟩
  obtain ⟨stream, taken, ahead, kept⟩ := takeMessages_frames auth _ _ fresh
  have enough : announced.length < stream.buf.buf.length + stream.inner.bytes.length + 1 := by
    have bound := ahead.length_le
    simp at bound
    omega
  have reads := readInfo_frames announced ready rest _ stream {} isReady kinds ahead enough
  refine ⟨stream, taken, ?_, ?_⟩
  · intro error folded
    rw [folded] at reads
    have failed : readInfo _ stream {} = .failed (.parse error) := reads
    rw [connect, failed]
  · intro parameters folded
    rw [folded] at reads
    obtain ⟨info, after, done, same, inner, delayed⟩ := reads
    rw [kept, List.nil_append] at delayed
    refine ⟨_, by rw [connect, done], same, ?_⟩
    intro count long
    obtain ⟨left, rfl⟩ := Nat.exists_eq_add_of_le (Nat.le_trans (Nat.le_add_right _ _) long)
    obtain ⟨items, parts, received, carried, covered⟩ :=
      receive_stream left (.new [] info.parameters : Connection Messages) after.inner rest inner rfl
        (by omega)
    refine ⟨items, ?_, ?_⟩
    · rw [receive_pending _ _ _ _ delayed, ← received]
      rfl
    · rw [BackendMessage.flattenAll_carried carried, covered]

/-- A notice and a parameter, and a row that comes in one chunk with the end of
the startup. -/
theorem handOver_complete_parameter :
    let auth : Frame .standard :=
      ⟨authenticationTag, [0, 0, 0, 0], .authenticationOk, by decide, by decide +kernel⟩
    let notice : Frame .standard := ⟨noticeResponseTag, [0], .noticeResponse [0], by decide, rfl⟩
    let parameter : Frame .standard :=
      ⟨parameterStatusTag, [97, 0, 98, 0], .parameterStatus ⟨[97], [98]⟩, by decide,
        by decide +kernel⟩
    let ready : Frame .standard := ⟨readyForQueryTag, [73], .readyForQuery 73, by decide, rfl⟩
    let row : Frame .standard := ⟨dataRowTag, [0, 0], .dataRow ⟨[], 0⟩, by decide, by decide +kernel⟩
    ∃ stream connected items,
      takeMessages 1 { inner := {
          mode := .standard
          chunks := [auth.bytes ++ notice.bytes,
            parameter.bytes ++ (ready.bytes ++ row.bytes)] } } =
        some ([.authenticationOk], stream) ∧
      connect Unit stream = .done connected ∧
      connected.connection.parameters = [("a", "b")] ∧
      receive 2 connected.connection connected.inner =
        .async (.noticeResponse [0]) :: items ∧
      BackendMessage.flattenAll items = .ok [.dataRow ⟨[], 0⟩] := by
  intro auth notice parameter ready row
  have kinds : ∀ frame ∈ [notice, parameter], Announces frame.message := by
    intro frame member
    rcases List.mem_cons.mp member with rfl | member
    · exact .noticeResponse [0]
    · rw [List.mem_singleton.mp member]
      exact .parameterStatus ⟨[97], [98]⟩
  have folded : ([notice, parameter].map (·.message)).foldlM announce [] = .ok [("a", "b")] := by
    decide +kernel
  obtain ⟨stream, taken, -, hands⟩ :=
    handOver_complete [auth] [notice, parameter] [row] ready
      [auth.bytes ++ notice.bytes, parameter.bytes ++ (ready.bytes ++ row.bytes)]
      (by decide) rfl kinds
  obtain ⟨connected, done, same, receives⟩ := hands _ folded
  obtain ⟨items, received, flat⟩ := receives 2 (by decide)
  exact ⟨stream, connected, items, taken, done, same, received, flat⟩

end OpenGauss.Driver.Startup
