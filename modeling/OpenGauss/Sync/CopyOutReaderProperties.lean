import OpenGauss.Lib.Execution
import OpenGauss.Sync.CopyOutReader

/-! The reader of a `COPY ... TO STDOUT` hands out the bytes of the chunks in their order. It does
not remember that it has come to their end. -/

set_option autoImplicit false

namespace OpenGauss.Sync

open Protocol Protocol.Backend Driver Lib.Execution Lib.Framing

variable {mode : AuthMode}

/-! ### What is still to come -/

def ReaderCall.asks : ReaderCall → Bool
  | .consume _ => false
  | _ => true

def skipEmpty (chunks : List Bytes) : List Bytes := chunks.dropWhile (·.isEmpty)

/-- What a call leaves of a copy. A copy is what is left of one chunk and the chunks behind it,
and nothing once its end is reported. -/
def advance : Option (List Bytes) → ReaderCall → Option (List Bytes)
  | none, _ => none
  | some [], .consume _ => some []
  | some (chunk :: chunks), .consume amt => some (chunk.drop amt :: chunks)
  | some chunks, .fillBuf =>
      match skipEmpty chunks with
      | [] => none
      | chunk :: chunks => some (chunk :: chunks)
  | some chunks, .read size =>
      match skipEmpty chunks with
      | [] => none
      | chunk :: chunks => some (chunk.drop size :: chunks)

def rest (copy : Option (List Bytes)) : Bytes := (copy.getD []).flatten

/-- No more is consumed than is in the buffer. -/
def Permitted (copy : Option (List Bytes)) (call : ReaderCall) : Prop :=
  ∀ amt, call = .consume amt → amt ≤ ((copy.getD []).headD []).length

/-- A call goes back to the stream although its end is reported. -/
def AsksAgain (copy : Option (List Bytes)) (call : ReaderCall) : Prop :=
  copy = none ∧ call.asks = true

/-- A buffer without room is read into, and there are bytes to read. -/
def ReadsNothing (copy : Option (List Bytes)) (call : ReaderCall) : Prop :=
  call = .read 0 ∧ rest copy ≠ []

theorem flatten_skipEmpty (chunks : List Bytes) : (skipEmpty chunks).flatten = chunks.flatten := by
  induction chunks with
  | nil => rfl
  | cons chunk chunks ih =>
      cases chunk with
      | nil => exact ih
      | cons byte chunk => rfl

theorem head_skipEmpty {chunks later : List Bytes} {chunk : Bytes}
    (left : skipEmpty chunks = chunk :: later) : chunk ≠ [] := by
  have shown := List.head?_dropWhile_not (fun chunk : Bytes => chunk.isEmpty) chunks
  rw [← skipEmpty, left] at shown
  simpa using shown

instance (copy : Option (List Bytes)) (call : ReaderCall) : Decidable (Permitted copy call) :=
  match call with
  | .consume amt =>
      decidable_of_iff (amt ≤ ((copy.getD []).headD []).length)
        ⟨fun within _ same => ReaderCall.consume.inj same ▸ within, fun permitted => permitted amt rfl⟩
  | .read _ => .isTrue fun _ never => by cases never
  | .fillBuf => .isTrue fun _ never => by cases never

instance (copy : Option (List Bytes)) (call : ReaderCall) : Decidable (AsksAgain copy call) :=
  inferInstanceAs (Decidable (_ ∧ _))

instance (copy : Option (List Bytes)) (call : ReaderCall) : Decidable (ReadsNothing copy call) :=
  inferInstanceAs (Decidable (_ ∧ _))

/-! ### The calls -/

inductive Exchange : Option (List Bytes) → ReaderCall → ReaderAnswer → Prop where
  | shown {chunks later : List Bytes} {chunk : Bytes} (left : skipEmpty chunks = chunk :: later) :
      Exchange (some chunks) .fillBuf (.bytes (.ok chunk))
  | read {chunks later : List Bytes} {chunk : Bytes} {size : Nat}
      (left : skipEmpty chunks = chunk :: later) :
      Exchange (some chunks) (.read size) (.bytes (.ok (chunk.take size)))
  | finished {chunks : List Bytes} {call : ReaderCall} (asks : call.asks = true)
      (left : skipEmpty chunks = []) : Exchange (some chunks) call (.bytes (.ok []))
  | failed {call : ReaderCall} {error : Error} (asks : call.asks = true) :
      Exchange none call (.bytes (.error error))
  | consumed {copy : Option (List Bytes)} {amt : Nat} : Exchange copy (.consume amt) .consumed

inductive Exchanges : Option (List Bytes) → List ReaderCall →
    List (ReaderCall × ReaderAnswer) → Prop where
  | nil {copy : Option (List Bytes)} : Exchanges copy [] []
  | cons {copy : Option (List Bytes)} {call : ReaderCall} {answer : ReaderAnswer}
      {calls : List ReaderCall} {exchanges : List (ReaderCall × ReaderAnswer)}
      (first : Exchange copy call answer) (later : Exchanges (advance copy call) calls exchanges) :
      Exchanges copy (call :: calls) ((call, answer) :: exchanges)

namespace CopyOutReader

/-- A reader has these chunks in front of it, behind what is left in its buffer. -/
structure Copying (mode : AuthMode) (reader : CopyOutReader) (cur : Bytes) (chunks : List Bytes) :
    Prop where
  cur : reader.cur = cur
  ahead : ∃ tag status, reader.stream.responses.Ahead mode
    (chunks.map .copyData ++ [.copyDone, .commandComplete tag, .readyForQuery status])

/-- The stream of a reader has come to its end. -/
structure Ended (mode : AuthMode) (reader : CopyOutReader) : Prop where
  cur : reader.cur = []
  ahead : ∃ messages, reader.stream.responses.Ahead mode messages ∧
    ∀ message ∈ messages, Foreign message

inductive Stands (mode : AuthMode) (reader : CopyOutReader) : Option (List Bytes) → Prop where
  | copying {cur : Bytes} {chunks : List Bytes} (copying : Copying mode reader cur chunks) :
      Stands mode reader (some (cur :: chunks))
  | ended (ended : Ended mode reader) : Stands mode reader none

theorem fillBuf_full {reader : CopyOutReader} (full : reader.cur ≠ []) :
    reader.fillBuf = (.ok reader.cur, reader) := by
  rw [fillBuf, if_neg full]

theorem fillBuf_error {reader : CopyOutReader} {error : Error} {stream : CopyOutStream}
    (empty : reader.cur = []) (polled : reader.stream.pollNext = (some (.error error), stream)) :
    reader.fillBuf = (.error error, { reader with stream }) := by
  rw [fillBuf, if_pos empty]
  split
  · next found => cases polled.symm.trans found
  · next found => cases polled.symm.trans found; rfl
  · next found => cases polled.symm.trans found

theorem fillBuf_end {reader : CopyOutReader} {stream : CopyOutStream} (empty : reader.cur = [])
    (polled : reader.stream.pollNext = (none, stream)) :
    reader.fillBuf = (.ok [], { reader with stream }) := by
  rw [fillBuf, if_pos empty]
  split
  · next found => cases polled.symm.trans found
  · next found => cases polled.symm.trans found
  · next found => cases polled.symm.trans found; rw [empty]

theorem fillBuf_chunk {reader : CopyOutReader} {chunk : Bytes} {stream : CopyOutStream}
    (empty : reader.cur = []) (polled : reader.stream.pollNext = (some (.ok chunk), stream)) :
    reader.fillBuf = fillBuf { stream, cur := chunk } := by
  rw [fillBuf, if_pos empty]
  split
  · next found => cases polled.symm.trans found; rfl
  · next found => cases polled.symm.trans found
  · next found => cases polled.symm.trans found

/-- Empty chunks are skipped, up to the next bytes or to the end. -/
theorem fillBuf_copying {reader : CopyOutReader} {cur : Bytes} {chunks : List Bytes}
    (copying : Copying mode reader cur chunks) :
    (∃ after, reader.fillBuf = (.ok [], after) ∧ skipEmpty (cur :: chunks) = [] ∧
      Ended mode after) ∨
    ∃ chunk later after, reader.fillBuf = (.ok chunk, after) ∧
      skipEmpty (cur :: chunks) = chunk :: later ∧ Copying mode after chunk later := by
  by_cases empty : reader.cur = []
  · induction chunks generalizing reader cur with
    | nil =>
        obtain ⟨rfl, tag, status, ahead⟩ := copying
        obtain ⟨stream, polled, ahead⟩ := CopyOutStream.pollNext_copyDone ahead
        refine .inl ⟨_, fillBuf_end empty polled, by rw [empty]; rfl, empty, _, ahead, ?_⟩
        intro message member
        rcases List.mem_pair.mp member with rfl | rfl
        · exact .commandComplete tag
        · exact .readyForQuery status
    | cons chunk chunks ih =>
        obtain ⟨rfl, tag, status, ahead⟩ := copying
        obtain ⟨stream, polled, ahead⟩ := CopyOutStream.pollNext_copyData ahead
        have behind : Copying mode { stream, cur := chunk } chunk chunks := ⟨rfl, tag, status, ahead⟩
        have skipped : skipEmpty (reader.cur :: chunk :: chunks) = skipEmpty (chunk :: chunks) := by
          rw [empty]
          rfl
        rw [fillBuf_chunk empty polled, skipped]
        by_cases none : chunk = []
        · exact ih behind none
        · refine .inr ⟨chunk, chunks, _, fillBuf_full none, ?_, behind⟩
          rw [skipEmpty, List.dropWhile_cons_of_neg (by simpa using none)]
  · refine .inr ⟨cur, chunks, reader, ?_, ?_, copying⟩
    · rw [fillBuf_full empty, copying.cur]
    · rw [copying.cur] at empty
      rw [skipEmpty, List.dropWhile_cons_of_neg (by simpa using empty)]

theorem fillBuf_ended {reader : CopyOutReader} (ended : Ended mode reader) :
    ∃ error after, reader.fillBuf = (.error error, after) ∧ Ended mode after := by
  obtain ⟨empty, messages, ahead, foreign⟩ := ended
  obtain ⟨error, stream, later, polled, ahead, suffix⟩ :=
    CopyOutStream.pollNext_foreign ahead foreign
  exact ⟨error, _, fillBuf_error empty polled, empty, later, ahead,
    fun message member => foreign message (suffix.subset member)⟩

theorem consume_within {reader : CopyOutReader} {amt : Nat} (within : amt ≤ reader.cur.length) :
    reader.consume amt = some { reader with cur := reader.cur.drop amt } := if_pos within

/-- As many bytes are read as there is room for, of those that `fill_buf` shows. -/
theorem read_of_fillBuf {reader after : CopyOutReader} {b : Bytes} (size : Nat)
    (filled : reader.fillBuf = (.ok b, after)) (shown : after.cur = b) :
    reader.read size = some (.ok (b.take size), { after with cur := b.drop size }) := by
  have within : min size b.length ≤ after.cur.length := shown ▸ Nat.min_le_right _ _
  have taken : b.take (min size b.length) = b.take size := List.take_eq_take_iff.mpr (by omega)
  have left : b.drop (min size b.length) = b.drop size := by
    rcases Nat.le_total size b.length with short | long
    · rw [Nat.min_eq_left short]
    · rw [Nat.min_eq_right long, List.drop_length, List.drop_of_length_le long]
  simp only [read, filled, consume_within within, Option.map_some, shown, taken, left]

/-- A permitted call returns, and answers by what is still to come. -/
theorem call_stands {reader : CopyOutReader} {copy : Option (List Bytes)} {call : ReaderCall}
    (stands : Stands mode reader copy) (permitted : Permitted copy call) :
    ∃ answer after, reader.call call = some (answer, after) ∧ Exchange copy call answer ∧
      Stands mode after (advance copy call) := by
  cases stands with
  | @copying cur chunks copying =>
      cases call with
      | fillBuf =>
          rcases fillBuf_copying copying with
            ⟨after, filled, left, ended⟩ | ⟨chunk, later, after, filled, left, copying⟩
          · refine ⟨_, after, by rw [CopyOutReader.call, filled], .finished rfl left, ?_⟩
            rw [advance, left]
            exact .ended ended
          · refine ⟨_, after, by rw [CopyOutReader.call, filled], .shown left, ?_⟩
            rw [advance, left]
            exact .copying copying
      | read size =>
          rcases fillBuf_copying copying with
            ⟨after, filled, left, ended⟩ | ⟨chunk, later, after, filled, left, copying⟩
          · have answer := read_of_fillBuf size filled ended.cur
            refine ⟨_, _, by rw [CopyOutReader.call, answer]; rfl, ?_, ?_⟩
            · rw [List.take_nil]
              exact .finished rfl left
            · rw [advance, left, List.drop_nil]
              exact .ended ⟨rfl, ended.ahead⟩
          · have answer := read_of_fillBuf size filled copying.cur
            refine ⟨_, _, by rw [CopyOutReader.call, answer]; rfl, .read left, ?_⟩
            rw [advance, left]
            exact .copying ⟨rfl, copying.ahead⟩
      | consume amt =>
          obtain ⟨rfl, ahead⟩ := copying
          have consumed := consume_within (permitted amt rfl)
          refine ⟨.consumed, { reader with cur := reader.cur.drop amt }, ?_, .consumed,
            .copying ⟨rfl, ahead⟩⟩
          rw [CopyOutReader.call, consumed]
          rfl
  | ended ended =>
      cases call with
      | fillBuf =>
          obtain ⟨error, after, filled, ended⟩ := fillBuf_ended ended
          exact ⟨_, after, by rw [CopyOutReader.call, filled], .failed rfl, .ended ended⟩
      | read size =>
          obtain ⟨error, after, filled, ended⟩ := fillBuf_ended ended
          refine ⟨.bytes (.error error), after, ?_, .failed rfl, .ended ended⟩
          rw [CopyOutReader.call, read, filled]
          rfl
      | consume amt =>
          obtain rfl := Nat.le_zero.mp (permitted amt rfl)
          have consumed := consume_within (Nat.zero_le reader.cur.length)
          exact ⟨_, _, by rw [CopyOutReader.call, consumed]; rfl, .consumed, .ended ended⟩

/-- A sequence of permitted calls returns, each answered by what is still to come. -/
theorem run_stands {reader : CopyOutReader} {copy : Option (List Bytes)}
    {calls : List ReaderCall} (stands : Stands mode reader copy)
    (permitted : Along (fun copy call => some (advance copy call)) Permitted copy calls) :
    ∃ exchanges, reader.run calls = some exchanges ∧ Exchanges copy calls exchanges := by
  induction calls generalizing reader copy with
  | nil => exact ⟨[], rfl, .nil⟩
  | cons call calls ih =>
      obtain ⟨answer, after, called, exchange, stands⟩ := call_stands stands permitted.1
      obtain ⟨exchanges, ran, later⟩ := ih stands (permitted.2 _ rfl)
      refine ⟨(call, answer) :: exchanges, ?_, .cons exchange later⟩
      rw [run, called]
      simp [ran]

end CopyOutReader

/-! ### What is asked of a reader -/

/-- What an answer has to be while `left` is still to come: the next bytes, and none of them only
at the end. -/
inductive FaithfulAnswer (left : Bytes) : ReaderCall → ReaderAnswer → Prop where
  | read {size : Nat} {bytes : Bytes} (inOrder : bytes <+: left) (fits : bytes.length ≤ size)
      (atEnd : bytes = [] → left = []) : FaithfulAnswer left (.read size) (.bytes (.ok bytes))
  | fillBuf {bytes : Bytes} (inOrder : bytes <+: left) (atEnd : bytes = [] → left = []) :
      FaithfulAnswer left .fillBuf (.bytes (.ok bytes))
  | consume {amt : Nat} : FaithfulAnswer left (.consume amt) .consumed

/-- How many bytes a call has taken. -/
def taken : ReaderCall → ReaderAnswer → Nat
  | .read _, .bytes (.ok bytes) => bytes.length
  | .consume amt, .consumed => amt
  | _, _ => 0

def Faithful : Bytes → List (ReaderCall × ReaderAnswer) → Prop
  | _, [] => True
  | left, (call, answer) :: exchanges =>
      FaithfulAnswer left call answer ∧ Faithful (left.drop (taken call answer)) exchanges

theorem rest_of_left {chunks later : List Bytes} {chunk : Bytes}
    (left : skipEmpty chunks = chunk :: later) : rest (some chunks) = chunk ++ later.flatten := by
  rw [rest, Option.getD_some, ← flatten_skipEmpty, left, List.flatten_cons]

theorem rest_of_none {chunks : List Bytes} (left : skipEmpty chunks = []) :
    rest (some chunks) = [] := by
  rw [rest, Option.getD_some, ← flatten_skipEmpty, left, List.flatten_nil]

/-- A call takes its bytes off those that are still to come. -/
theorem rest_advance {copy : Option (List Bytes)} {call : ReaderCall} {answer : ReaderAnswer}
    (exchange : Exchange copy call answer) (permitted : Permitted copy call) :
    rest (advance copy call) = (rest copy).drop (taken call answer) := by
  cases exchange with
  | @shown chunks later chunk left =>
      rw [advance, left, rest_of_left left]
      rfl
  | @read chunks later chunk size left =>
      rw [advance, left, rest_of_left left, rest, Option.getD_some, List.flatten_cons, taken,
        List.length_take]
      rcases Nat.le_total size chunk.length with short | long
      · rw [Nat.min_eq_left short, List.drop_append_of_le_length short]
      · rw [Nat.min_eq_right long, List.drop_left, List.drop_of_length_le long, List.nil_append]
  | @finished chunks call asks left =>
      rw [rest_of_none left, List.drop_nil]
      cases call with
      | consume amt => cases asks
      | fillBuf => rw [advance, left]; rfl
      | read size => rw [advance, left]; rfl
  | failed asks =>
      rw [show rest none = [] from rfl, List.drop_nil]
      cases call <;> rfl
  | @consumed copy amt =>
      have within := permitted amt rfl
      match copy, within with
      | none, _ => exact List.drop_nil.symm
      | some [], _ => exact List.drop_nil.symm
      | some (chunk :: chunks), within => exact (List.drop_append_of_le_length within).symm

/-- Exactly which calls get a faithful answer. -/
theorem faithfulAnswer_iff {copy : Option (List Bytes)} {call : ReaderCall}
    {answer : ReaderAnswer} (exchange : Exchange copy call answer) :
    FaithfulAnswer (rest copy) call answer ↔ ¬AsksAgain copy call ∧ ¬ReadsNothing copy call := by
  cases exchange with
  | @shown chunks later chunk left =>
      have begun := head_skipEmpty left
      refine iff_of_true (.fillBuf ?_ fun none => absurd none begun) ⟨?_, ?_⟩
      · rw [rest_of_left left]
        exact List.prefix_append _ _
      · rintro ⟨never, _⟩
        cases never
      · rintro ⟨never, _⟩
        cases never
  | @read chunks later chunk size left =>
      have begun := head_skipEmpty left
      have more : rest (some chunks) ≠ [] := by
        rw [rest_of_left left]
        exact List.append_ne_nil_of_left_ne_nil begun _
      constructor
      · intro faithful
        refine ⟨fun again => ?_, fun empty => ?_⟩
        · cases again.1
        · obtain ⟨same, _⟩ := empty
          cases same
          cases faithful with
          | read _ _ atEnd => exact more (atEnd rfl)
      · rintro ⟨_, room⟩
        refine .read ?_ (List.length_take_le _ _) fun none => ?_
        · rw [rest_of_left left]
          exact (List.take_prefix _ _).trans (List.prefix_append _ _)
        · rcases List.take_eq_nil_iff.mp none with rfl | empty
          · exact absurd ⟨rfl, more⟩ room
          · exact absurd empty begun
  | @finished chunks call asks left =>
      have nothing := rest_of_none left
      refine iff_of_true ?_ ⟨?_, ?_⟩
      · cases call with
        | consume amt => cases asks
        | fillBuf => exact .fillBuf List.nil_prefix fun _ => nothing
        | read size => exact .read List.nil_prefix (Nat.zero_le _) fun _ => nothing
      · rintro ⟨never, _⟩
        cases never
      · exact fun empty => empty.2 nothing
  | failed asks =>
      refine iff_of_false ?_ fun once => once.1 ⟨rfl, asks⟩
      intro faithful
      cases faithful
  | consumed =>
      refine iff_of_true .consume ⟨?_, ?_⟩
      · rintro ⟨_, never⟩
        cases never
      · rintro ⟨never, _⟩
        cases never

/-- Exactly which runs are faithful. -/
theorem faithful_iff {copy : Option (List Bytes)} {calls : List ReaderCall}
    {exchanges : List (ReaderCall × ReaderAnswer)} (made : Exchanges copy calls exchanges)
    (permitted : Along (fun copy call => some (advance copy call)) Permitted copy calls) :
    Faithful (rest copy) exchanges ↔
      Along (fun copy call => some (advance copy call))
        (fun copy call => ¬AsksAgain copy call ∧ ¬ReadsNothing copy call) copy calls := by
  induction made with
  | nil => exact iff_of_true trivial trivial
  | cons first later ih =>
      rw [Faithful, Along, faithfulAnswer_iff first, ← rest_advance first permitted.1,
        ih (permitted.2 _ rfl)]
      refine and_congr_right fun _ => ?_
      constructor
      · intro along copy same
        exact Option.some.inj same ▸ along
      · exact fun along => along _ rfl

/-- The bytes that the reads of a run return. -/
def readBytes (exchanges : List (ReaderCall × ReaderAnswer)) : Bytes :=
  exchanges.flatMap fun
    | (.read _, .bytes (.ok bytes)) => bytes
    | _ => []

/-- Of a faithful reader that is only read from, the reads return the bytes to come in their order,
and all of them once a read returns none. -/
theorem Faithful.readBytes_prefix {left : Bytes} {exchanges : List (ReaderCall × ReaderAnswer)}
    (faithful : Faithful left exchanges)
    (reads : ∀ exchange ∈ exchanges, ∃ size, exchange.1 = .read size) :
    readBytes exchanges <+: left ∧
      ((∃ size, (.read size, .bytes (.ok [])) ∈ exchanges) → readBytes exchanges = left) := by
  induction exchanges generalizing left with
  | nil =>
      refine ⟨List.nil_prefix, ?_⟩
      rintro ⟨size, member⟩
      cases member
  | cons exchange exchanges ih =>
      obtain ⟨call, answer⟩ := exchange
      obtain ⟨first, faithful⟩ := faithful
      obtain ⟨size, rfl⟩ := reads _ List.mem_cons_self
      cases first with
      | @read _ bytes inOrder fits atEnd =>
          obtain ⟨behind, rfl⟩ := inOrder
          have dropped : (bytes ++ behind).drop (taken (.read size) (.bytes (.ok bytes))) = behind :=
            List.drop_left
          rw [dropped] at faithful
          obtain ⟨before, all⟩ :=
            ih faithful fun exchange member => reads exchange (List.mem_cons_of_mem _ member)
          have whole : readBytes ((.read size, .bytes (.ok bytes)) :: exchanges) =
              bytes ++ readBytes exchanges := List.flatMap_cons
          rw [whole]
          refine ⟨(List.prefix_append_right_inj bytes).mpr before, ?_⟩
          rintro ⟨other, member⟩
          rcases List.mem_cons.mp member with same | member
          · cases same
            obtain rfl := (List.append_eq_nil_iff.mp (atEnd rfl)).2
            rw [List.prefix_nil.mp before]
          · rw [all ⟨other, member⟩]

/-! ### A successful copy -/

/-- Along the calls on a new reader, each is made in a state of the copy that meets `guard`. -/
def Throughout (guard : Option (List Bytes) → ReaderCall → Prop) (chunks : List Bytes)
    (calls : List ReaderCall) : Prop :=
  Along (fun copy call => some (advance copy call)) guard (some ([] :: chunks)) calls

instance (guard : Option (List Bytes) → ReaderCall → Prop)
    [∀ copy call, Decidable (guard copy call)] (chunks : List Bytes) (calls : List ReaderCall) :
    Decidable (Throughout guard chunks calls) :=
  decidableAlong _ guard _ calls

/-- The answers to a successful `COPY ... TO STDOUT` behind its `CopyOutResponse`: the rest of a
batch and the later batches. -/
structure SuccessfulCopy (mode : AuthMode) (chunks : List Bytes) where
  batch : List (Frame mode)
  later : List (List (Frame mode))
  tag : Bytes
  status : UInt8
  messages : (batch ++ later.flatten).map (·.message) =
    chunks.map .copyData ++ [.copyDone, .commandComplete tag, .readyForQuery status]

def SuccessfulCopy.reader {chunks : List Bytes} (copy : SuccessfulCopy mode chunks) :
    CopyOutReader :=
  .new ⟨⟨encodeAll Frame.bytes copy.batch, mode⟩,
    copy.later.map fun batch => ⟨encodeAll Frame.bytes batch, mode⟩⟩

theorem SuccessfulCopy.stands {chunks : List Bytes} (copy : SuccessfulCopy mode chunks) :
    CopyOutReader.Stands mode copy.reader (some ([] :: chunks)) :=
  .copying ⟨rfl, copy.tag, copy.status, copy.batch, copy.later, ⟨rfl, rfl⟩, copy.messages.symm⟩

/-- A copy of one chunk of one byte. -/
def oneChunk : SuccessfulCopy .standard [[97]] where
  batch :=
    [⟨100, [97], .copyData [97], by decide, rfl⟩, ⟨99, [], .copyDone, by decide, rfl⟩,
      ⟨67, [67, 0], .commandComplete [67], by decide, rfl⟩,
      ⟨90, [73], .readyForQuery 73, by decide, rfl⟩]
  later := []
  tag := [67]
  status := 73
  messages := rfl

/-- Of a successful copy, the calls on its reader are answered faithfully exactly if none goes
back to the stream behind the end and none reads into a buffer without room before it. -/
theorem copyOutReader_faithful_iff {chunks : List Bytes} (copy : SuccessfulCopy mode chunks)
    {calls : List ReaderCall} (permitted : Throughout Permitted chunks calls) :
    ∃ exchanges, copy.reader.run calls = some exchanges ∧
      (Faithful chunks.flatten exchanges ↔
        Throughout (fun copy call => ¬AsksAgain copy call ∧ ¬ReadsNothing copy call)
          chunks calls) := by
  obtain ⟨exchanges, ran, made⟩ := CopyOutReader.run_stands copy.stands permitted
  exact ⟨exchanges, ran, faithful_iff made permitted⟩

/-- The byte is read and the end is found. -/
theorem copyOutReader_faithful_oneChunk :
    ∃ exchanges, oneChunk.reader.run [.fillBuf, .consume 1, .read 8] = some exchanges ∧
      (Faithful [97] exchanges ↔
        Throughout (fun copy call => ¬AsksAgain copy call ∧ ¬ReadsNothing copy call)
          [[97]] [.fillBuf, .consume 1, .read 8]) :=
  copyOutReader_faithful_iff oneChunk (by decide)

/-- Read once more behind the end, the reader fails. -/
theorem not_copyOutReader_faithful :
    ∃ exchanges, oneChunk.reader.run [.read 8, .read 8, .read 8] = some exchanges ∧
      ¬Faithful [97] exchanges := by
  have permitted : Throughout Permitted [[97]] [.read 8, .read 8, .read 8] := by decide
  obtain ⟨exchanges, ran, made⟩ := CopyOutReader.run_stands oneChunk.stands permitted
  refine ⟨exchanges, ran, fun faithful => ?_⟩
  have once : Throughout (fun copy call => ¬AsksAgain copy call ∧ ¬ReadsNothing copy call)
      [[97]] [.read 8, .read 8, .read 8] := (faithful_iff made permitted).mp faithful
  exact absurd once (by decide)

end OpenGauss.Sync
