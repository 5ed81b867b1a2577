import OpenGauss.Driver.Session

/-! What a connection reads of the frames that a server has sent, while some of their bytes are
still on their way. -/

set_option autoImplicit false

namespace OpenGauss.Driver.Session

open Lib Lib.Framing Lib.Segments Protocol Protocol.Backend Connection PostgresCodec Startup

variable {mode : AuthMode}

/-- The frames that answer requests. -/
def answering (frames : List (Frame mode)) : List (Frame mode) :=
  frames.filter fun frame => !isAsync frame

@[simp] theorem answering_append (first second : List (Frame mode)) :
    answering (first ++ second) = answering first ++ answering second := List.filter_append ..

theorem answering_of_none {frames : List (Frame mode)}
    (none : ∀ frame ∈ frames, isAsync frame = false) : answering frames = frames :=
  List.filter_eq_self.mpr fun frame member => by simp [none frame member]

/-- An item, with the frames that it has been cut from. -/
inductive Cut : BackendMessage → List (Frame mode) → Prop where
  | async {frame : Frame mode} (async : isAsync frame = true) : Cut (.async frame.message) [frame]
  | normal {batch : List (Frame mode)} (nonempty : batch ≠ [])
      (none : ∀ frame ∈ batch, isAsync frame = false)
      (onlyLast : ∀ frame ∈ batch.dropLast, frame.tag ≠ readyForQueryTag) :
      Cut (.normal ⟨encodeAll Frame.bytes batch, mode⟩ (completes batch)) batch

/-! ### Cutting -/

theorem cutBatch_not_async (frames : List (Frame mode)) :
    ∀ frame ∈ (cutBatch frames).1, isAsync frame = false := by
  induction frames with
  | nil => simp [cutBatch]
  | cons first frames ih =>
      intro frame member
      simp only [cutBatch] at member
      split at member
      · simp at member
      · next notAsync =>
        split at member
        · simp only [List.mem_singleton] at member
          exact member ▸ Bool.eq_false_iff.mpr notAsync
        · rcases List.mem_cons.mp member with rfl | member
          · exact Bool.eq_false_iff.mpr notAsync
          · exact ih frame member

theorem nextItem_cut {frames rest : List (Frame mode)} {item : BackendMessage}
    (found : nextItem frames = some (item, rest)) :
    ∃ part, Cut item part ∧ frames = part ++ rest := by
  cases frames with
  | nil => simp [nextItem] at found
  | cons frame frames =>
      simp only [nextItem] at found
      split at found
      · next async =>
        cases found
        exact ⟨[frame], .async async, rfl⟩
      · next notAsync =>
        cases found
        have normal : isAsyncTag frame.tag = false := by simpa using notAsync
        exact ⟨_, .normal (cutBatch_ne_nil normal) (cutBatch_not_async _) (cutBatch_dropLast _),
          (cutBatch_append _).symm⟩

/-- Decoding what has arrived of some frames, of which more is coming. -/
theorem decode_cut {buffer coming : Bytes} {frames : List (Frame mode)}
    (whole : buffer ++ coming = encodeAll Frame.bytes frames) :
    decode mode buffer = (.ok none, buffer) ∨
      ∃ item part rest left, decode mode buffer = (.ok (some item), left) ∧ Cut item part ∧
        frames = part ++ rest ∧ left ++ coming = encodeAll Frame.bytes rest := by
  obtain ⟨done, rest, tail, rfl, received, unfinished⟩ :=
    split_prefix Frame.bytes frames buffer (whole ▸ List.prefix_append ..)
  have decoded := decode_frames done rest tail unfinished
  rw [← received] at decoded
  cases found : nextItem done with
  | none =>
      obtain rfl := nextItem_eq_none found
      simp only [found] at decoded
      exact .inl (decoded.trans (by rw [received]; simp))
  | some result =>
      obtain ⟨item, later⟩ := result
      obtain ⟨part, cut, rfl⟩ := nextItem_cut found
      simp only [found] at decoded
      refine .inr ⟨item, part, later ++ rest, _, decoded, cut, by simp, ?_⟩
      rw [received] at whole
      simpa using whole

/-- What polling the socket answers and leaves. -/
inductive Polled (framed : Framed) (coming : Bytes) (frames : List (Frame mode)) :
    StreamPoll × Framed → Prop where
  | pending {after : Framed} (mode : after.mode = mode) (bytes : after.bytes = framed.bytes) :
      Polled framed coming frames (.pending, after)
  | item {item : BackendMessage} {part rest : List (Frame mode)} {after : Framed}
      (cut : Cut item part) (split : frames = part ++ rest) (mode : after.mode = mode)
      (bytes : after.bytes ++ coming = encodeAll Frame.bytes rest) :
      Polled framed coming frames (.item item, after)

theorem pollFramed_cut (chunks : List Bytes) (buffer coming : Bytes) (frames : List (Frame mode))
    (whole : buffer ++ chunks.flatten ++ coming = encodeAll Frame.bytes frames) :
    Polled { mode, buffer, chunks } coming frames (pollFramed mode buffer chunks) := by
  induction chunks generalizing buffer with
  | nil =>
      rw [List.flatten_nil, List.append_nil] at whole
      rcases decode_cut whole with decoded | ⟨item, part, rest, left, decoded, cut, split, bytes⟩
      · simp only [pollFramed, decoded]
        exact .pending rfl rfl
      · simp only [pollFramed, decoded]
        exact .item cut split rfl (by simpa [Framed.bytes] using bytes)
  | cons chunk chunks ih =>
      have later : buffer ++ (chunk ++ chunks.flatten ++ coming) = encodeAll Frame.bytes frames := by
        simpa using whole
      rcases decode_cut later with decoded | ⟨item, part, rest, left, decoded, cut, split, bytes⟩
      · simp only [pollFramed, decoded]
        have polled := ih (buffer ++ chunk) (by simpa using whole)
        generalize pollFramed mode (buffer ++ chunk) chunks = result at polled
        cases polled with
        | pending same bytes => exact .pending same (by simpa [Framed.bytes] using bytes)
        | item cut split same bytes => exact .item cut split same bytes
      · simp only [pollFramed, decoded]
        exact .item cut split rfl (by simpa [Framed.bytes] using bytes)

theorem pollNext_cut {framed : Framed} {coming : Bytes} {frames : List (Frame mode)}
    (same : framed.mode = mode) (whole : framed.bytes ++ coming = encodeAll Frame.bytes frames) :
    Polled framed coming frames framed.pollNext := by
  obtain ⟨other, buffer, chunks⟩ := framed
  obtain rfl : other = mode := same
  exact pollFramed_cut chunks buffer coming frames whole

/-! ### The requests of batches and of frames -/

theorem countP_ready {batch : List (Frame mode)} (nonempty : batch ≠ [])
    (onlyLast : ∀ frame ∈ batch.dropLast, frame.tag ≠ readyForQueryTag) :
    batch.countP isReady = (completes batch).toNat := by
  rcases List.eq_nil_or_concat batch with rfl | ⟨init, last, rfl⟩
  · exact absurd rfl nonempty
  · have others : init.countP isReady = 0 := by
      refine List.countP_eq_zero.mpr fun frame member ready => ?_
      exact onlyLast frame (by simpa using member) (by simpa [isReady] using ready)
    cases last : last.tag == readyForQueryTag <;> simp [completes, isReady, others, last]

theorem segment_batch {batch : List (Frame mode)} (nonempty : batch ≠ [])
    (onlyLast : ∀ frame ∈ batch.dropLast, frame.tag ≠ readyForQueryTag) (request : Nat) :
    segment isReady request batch = if request = 0 then batch else [] := by
  induction batch generalizing request with
  | nil => exact absurd rfl nonempty
  | cons frame batch ih =>
      cases batch with
      | nil =>
          cases ready : isReady frame <;> cases request <;> simp [Segments.segment, ready]
      | cons second batch =>
          have notReady : isReady frame = false := by
            simpa [isReady] using onlyLast frame (by simp)
          have later := ih (List.cons_ne_nil _ _) fun other member =>
            onlyLast other (by simp [member])
          cases request with
          | zero => rw [Segments.segment, notReady, if_neg Bool.false_ne_true, later, if_pos rfl, if_pos rfl]
          | succ request => rw [Segments.segment, notReady, if_neg Bool.false_ne_true, later]; simp

theorem countP_cut {items : List BackendMessage} {parts : List (List (Frame mode))}
    (cuts : List.Forall₂ Cut items parts) :
    (ReadSide.normals items).countP Prod.snd = (answering parts.flatten).countP isReady := by
  induction cuts with
  | nil => rfl
  | @cons item part items parts cut _ ih =>
      cases cut with
      | async async => simpa [answering, async] using ih
      | normal nonempty none onlyLast =>
          rw [List.flatten_cons, answering_append, answering_of_none none, List.countP_append,
            countP_ready nonempty onlyLast, ← ih, ReadSide.normals_normal, List.countP_cons,
            Nat.add_comm]
          cases completes part <;> rfl

/-- The messages of some batches. -/
def collected (batches : List BackendMessages) : Except IoError (List Message) :=
  (batches.mapM BackendMessages.collect).map List.flatten

theorem collected_cons {batch : BackendMessages} {batches : List BackendMessages}
    {first rest : List Message} (one : batch.collect = .ok first)
    (others : collected batches = .ok rest) : collected (batch :: batches) = .ok (first ++ rest) := by
  rw [collected] at others ⊢
  cases all : batches.mapM BackendMessages.collect with
  | error error => rw [all] at others; cases others
  | ok lists =>
      rw [all] at others
      cases others
      simp [one, all, bind, Except.bind, pure, Except.pure, Except.map]

def batchOf (frames : List (Frame mode)) : BackendMessages := ⟨encodeAll Frame.bytes frames, mode⟩

theorem collect_batch (batch : List (Frame mode)) :
    (batchOf batch).collect = .ok (batch.map (·.message)) :=
  BackendMessages.drain_frames batch _
    (Nat.lt_succ_of_le (length_le_encodeAll Frame.bytes Frame.bytes_ne_nil batch))

theorem share_zero (batch : ReadSide.Batch) (batches : List ReadSide.Batch) :
    ReadSide.share 0 (batch :: batches) =
      batch.1 :: if batch.2 then [] else ReadSide.share 0 batches := by
  cases ends : batch.2 <;> simp [ReadSide.share, Segments.segment, ends]

theorem share_succ (request : Nat) (batch : ReadSide.Batch) (batches : List ReadSide.Batch) :
    ReadSide.share (request + 1) (batch :: batches) =
      if batch.2 then ReadSide.share request batches else ReadSide.share (request + 1) batches := by
  cases ends : batch.2 <;> simp [ReadSide.share, Segments.segment, ends]

theorem collected_batches (batches : List (List (Frame mode))) :
    collected (batches.map batchOf) = .ok (batches.flatten.map (·.message)) := by
  induction batches with
  | nil => rfl
  | cons batch batches ih => simpa using collected_cons (collect_batch batch) ih

/-- The batches of a request hold the frames of its answer. -/
theorem share_batches {items : List BackendMessage} {parts : List (List (Frame mode))}
    (cuts : List.Forall₂ Cut items parts) (request : Nat) :
    ∃ batches : List (List (Frame mode)),
      ReadSide.share request (ReadSide.normals items) = batches.map batchOf ∧
        batches.flatten = segment isReady request (answering parts.flatten) := by
  induction cuts generalizing request with
  | nil => exact ⟨[], by cases request <;> rfl, by cases request <;> rfl⟩
  | @cons item part items parts cut _ ih =>
      cases cut with
      | async async => simpa [answering, async] using ih request
      | normal nonempty none onlyLast =>
          rw [List.flatten_cons, answering_append, answering_of_none none, segment_append,
            segment_batch nonempty onlyLast, countP_ready nonempty onlyLast,
            ReadSide.normals_normal]
          cases request with
          | zero =>
              rw [share_zero]
              cases ends : completes part with
              | true => exact ⟨[part], rfl, by simp⟩
              | false =>
                  obtain ⟨batches, shared, same⟩ := ih 0
                  exact ⟨part :: batches, by simp [shared, batchOf], by simp [same]⟩
          | succ request =>
              rw [share_succ]
              cases ends : completes part with
              | true => simpa using ih request
              | false => simpa using ih (request + 1)

end OpenGauss.Driver.Session
