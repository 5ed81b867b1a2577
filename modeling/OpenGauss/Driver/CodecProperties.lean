import OpenGauss.Driver.Codec
import OpenGauss.Protocol.BackendProperties
import Mathlib.Data.List.Forall2

/-! Decoding is independent of how the bytes of a stream arrive. The abstract
side cuts a list of frames into items; `decode` cuts the bytes at the same places. -/

set_option autoImplicit false

namespace OpenGauss.Driver

open Protocol Protocol.Backend Lib.Framing

variable {mode : AuthMode}

namespace PostgresCodec

/-- The frames up to the first asynchronous one, or through the first `ReadyForQuery`. -/
def cutBatch : List (Frame mode) → List (Frame mode) × List (Frame mode)
  | [] => ([], [])
  | frame :: frames =>
      if isAsyncTag frame.tag then ([], frame :: frames)
      else if frame.tag = readyForQueryTag then ([frame], frames)
      else (frame :: (cutBatch frames).1, (cutBatch frames).2)

/-- Whether a batch ends a request. -/
def completes (batch : List (Frame mode)) : Bool :=
  batch.getLast?.any fun frame => frame.tag == readyForQueryTag

/-- The next item of a frame sequence and the frames after it. -/
def nextItem : List (Frame mode) → Option (BackendMessage × List (Frame mode))
  | [] => none
  | frame :: frames =>
      if isAsyncTag frame.tag then some (.async frame.message, frames)
      else
        let batch := (cutBatch (frame :: frames)).1
        some (.normal ⟨encodeAll Frame.bytes batch, mode⟩ (completes batch),
          (cutBatch (frame :: frames)).2)

/-- `item` stands for the frames `part`. A batch is not empty, and only its
last frame can be a `ReadyForQuery`, which is what `requestComplete` says. -/
inductive Carries : BackendMessage → List (Frame mode) → Prop where
  | async {frame : Frame mode} :
      isAsyncTag frame.tag = true → Carries (.async frame.message) [frame]
  | normal {batch : List (Frame mode)} {requestComplete : Bool} :
      batch ≠ [] →
      (∀ frame ∈ batch.dropLast, frame.tag ≠ readyForQueryTag) →
      (requestComplete = true ↔ ∃ frame ∈ batch, frame.tag = readyForQueryTag) →
      Carries (.normal ⟨encodeAll Frame.bytes batch, mode⟩ requestComplete) batch

theorem readyForQueryTag_not_async : isAsyncTag readyForQueryTag = false := by decide

/-! ### Cutting frames -/

theorem cutBatch_append (frames : List (Frame mode)) :
    (cutBatch frames).1 ++ (cutBatch frames).2 = frames := by
  induction frames with
  | nil => rfl
  | cons frame frames ih =>
      simp only [cutBatch]
      split
      · rfl
      · split
        · rfl
        · simp [ih]

theorem cutBatch_ne_nil {frame : Frame mode} {frames : List (Frame mode)}
    (normal : isAsyncTag frame.tag = false) : (cutBatch (frame :: frames)).1 ≠ [] := by
  simp only [cutBatch, normal, Bool.false_eq_true, if_false]
  split <;> exact List.cons_ne_nil _ _

theorem cutBatch_dropLast (frames : List (Frame mode)) :
    ∀ frame ∈ (cutBatch frames).1.dropLast, frame.tag ≠ readyForQueryTag := by
  induction frames with
  | nil => simp [cutBatch]
  | cons first frames ih =>
      intro frame member
      simp only [cutBatch] at member
      split at member
      · simp at member
      · split at member
        · simp at member
        · next notReady =>
          cases batch : (cutBatch frames).1 with
          | nil => simp [batch] at member
          | cons second others =>
              rw [batch, List.dropLast_cons_cons, List.mem_cons] at member
              rcases member with rfl | member
              · exact notReady
              · exact ih frame (by rwa [batch])

theorem completes_iff {batch : List (Frame mode)}
    (onlyLast : ∀ frame ∈ batch.dropLast, frame.tag ≠ readyForQueryTag) :
    completes batch = true ↔ ∃ frame ∈ batch, frame.tag = readyForQueryTag := by
  rcases List.eq_nil_or_concat batch with rfl | ⟨init, last, rfl⟩
  · simp [completes]
  · simp only [List.concat_eq_append, List.dropLast_concat] at onlyLast
    simp only [completes, List.concat_eq_append, List.getLast?_concat, Option.any_some, beq_iff_eq,
      List.mem_append, List.mem_singleton]
    constructor
    · intro ready
      exact ⟨last, .inr rfl, ready⟩
    · rintro ⟨frame, member | rfl, ready⟩
      · exact absurd ready (onlyLast frame member)
      · exact ready

theorem completes_cons {frame : Frame mode} (notReady : frame.tag ≠ readyForQueryTag)
    (batch : List (Frame mode)) : completes (frame :: batch) = completes batch := by
  cases batch with
  | nil => simp [completes, notReady]
  | cons second others => simp [completes, List.getLast?_cons_cons]

theorem nextItem_carries {frames rest : List (Frame mode)} {item : BackendMessage}
    (found : nextItem frames = some (item, rest)) :
    ∃ part, Carries item part ∧ part ≠ [] ∧ frames = part ++ rest := by
  cases frames with
  | nil => simp [nextItem] at found
  | cons frame frames =>
      simp only [nextItem] at found
      split at found
      · next async =>
        cases found
        exact ⟨[frame], .async async, by simp, rfl⟩
      · next notAsync =>
        cases found
        have normal : isAsyncTag frame.tag = false := by simpa using notAsync
        exact ⟨_, .normal (cutBatch_ne_nil normal) (cutBatch_dropLast _)
            (completes_iff (cutBatch_dropLast _)),
          cutBatch_ne_nil normal, (cutBatch_append _).symm⟩

/-! ### Cutting bytes at the same places -/

private theorem scan_incomplete (src tail : Bytes) (next : List (Frame mode)) (fuel idx : Nat)
    (position : src.drop idx = tail) (unfinished : PartialOf Frame.bytes next tail) :
    scan src (fuel + 1) idx = .ok (.cut idx false) := by
  rw [scan, position]
  cases next with
  | nil =>
      have empty : tail = [] := unfinished
      subst empty
      rfl
  | cons frame next =>
      rcases frame.header_partial tail unfinished.1 unfinished.2 with missing | ⟨header, found, short⟩
      · rw [missing]
      · rw [found]
        simp only [short, if_true]

/-- The scan stops where `cutBatch` does, unless an asynchronous frame is first. -/
theorem scan_cut (frames next : List (Frame mode)) (src tail : Bytes) (fuel idx : Nat)
    (position : src.drop idx = encodeAll Frame.bytes frames ++ tail)
    (unfinished : PartialOf Frame.bytes next tail) (enough : frames.length < fuel)
    (inside : idx = 0 → ∀ frame ∈ frames.head?, isAsyncTag frame.tag = false) :
    scan src fuel idx =
      .ok (.cut (idx + (encodeAll Frame.bytes (cutBatch frames).1).length)
        (completes (cutBatch frames).1)) := by
  induction frames generalizing fuel idx with
  | nil =>
      obtain ⟨fuel, rfl⟩ : ∃ fuel', fuel = fuel' + 1 := ⟨fuel - 1, by simp at enough; omega⟩
      rw [scan_incomplete src tail next fuel idx (by simpa using position) unfinished]
      simp [cutBatch, completes]
  | cons frame frames ih =>
      obtain ⟨fuel, rfl⟩ : ∃ fuel', fuel = fuel' + 1 := ⟨fuel - 1, by simp at enough; omega⟩
      rw [encodeAll_cons, List.append_assoc] at position
      have header := frame.header_append (encodeAll Frame.bytes frames ++ tail)
      have whole : ¬(src.drop idx).length < frame.body.length + 4 + 1 := by
        rw [position, List.length_append, Frame.length_bytes]
        omega
      rw [scan, position, header]
      rw [position] at whole
      simp only [Int.toNat_natCast, whole, if_false]
      by_cases async : isAsyncTag frame.tag = true
      · have later : idx ≠ 0 := by
          intro first
          simp [inside first frame rfl] at async
        simp [async, later, cutBatch, completes]
      · by_cases ready : frame.tag = readyForQueryTag
        · simp [ready, cutBatch, readyForQueryTag_not_async, completes]
        · have later : src.drop (idx + (frame.body.length + 4 + 1)) =
              encodeAll Frame.bytes frames ++ tail := by
            rw [← List.drop_drop, position]
            exact List.drop_left' (by simp)
          rw [if_neg async, if_neg ready, ih fuel _ later (by simpa using enough) (by omega)]
          have advance : idx + (frame.body.length + 4 + 1) +
                (encodeAll Frame.bytes (cutBatch frames).1).length =
              idx + (encodeAll Frame.bytes (cutBatch (frame :: frames)).1).length := by
            simp only [cutBatch, async, ready, Bool.false_eq_true, if_false, encodeAll_cons,
              List.length_append, Frame.length_bytes]
            omega
          rw [advance]
          simp only [cutBatch, async, ready, Bool.false_eq_true, if_false, completes_cons ready]

theorem scan_asyncFirst (frame : Frame mode) (rest : Bytes) (fuel : Nat)
    (async : isAsyncTag frame.tag = true) :
    scan (frame.bytes ++ rest) (fuel + 1) 0 = .ok .asyncFirst := by
  have whole : ¬(frame.bytes ++ rest).length < frame.body.length + 4 + 1 := by
    rw [List.length_append, Frame.length_bytes]
    omega
  rw [scan, List.drop_zero, frame.header_append]
  simp only [Int.toNat_natCast, whole, if_false, async, if_true]

/-- `decode` on whole frames followed by a part of the next takes off the next item. -/
theorem decode_frames (frames next : List (Frame mode)) (tail : Bytes)
    (unfinished : PartialOf Frame.bytes next tail) :
    decode mode (encodeAll Frame.bytes frames ++ tail) =
      match nextItem frames with
      | none => (.ok none, tail)
      | some (item, rest) => (.ok (some item), encodeAll Frame.bytes rest ++ tail) := by
  have enough : frames.length < (encodeAll Frame.bytes frames ++ tail).length + 1 := by
    have long := length_le_encodeAll Frame.bytes Frame.bytes_ne_nil frames
    rw [List.length_append]
    omega
  cases frames with
  | nil =>
      rw [decode, scan_cut [] next _ tail _ 0 rfl unfinished enough (by simp)]
      simp [cutBatch, nextItem]
  | cons frame frames =>
      by_cases async : isAsyncTag frame.tag = true
      · rw [encodeAll_cons, List.append_assoc, decode, scan_asyncFirst _ _ _ async]
        simp only [Frame.parse_append, nextItem, async, if_true]
      · have normal : isAsyncTag frame.tag = false := by simpa using async
        rw [decode, scan_cut (frame :: frames) next _ tail _ 0 rfl unfinished enough
          (by simpa using normal)]
        have cut := cutBatch_append (frame :: frames)
        have nonempty : (cutBatch (frame :: frames)).1 ≠ [] := cutBatch_ne_nil normal
        simp only [nextItem, normal, Bool.false_eq_true, if_false, Nat.zero_add]
        generalize (cutBatch (frame :: frames)).1 = batch at cut nonempty
        generalize (cutBatch (frame :: frames)).2 = rest at cut
        have long := length_le_encodeAll Frame.bytes Frame.bytes_ne_nil batch
        have positive : (encodeAll Frame.bytes batch).length ≠ 0 := by
          have := List.length_pos_of_ne_nil nonempty
          omega
        simp only [positive, if_false, ← cut, encodeAll_append, List.append_assoc,
          List.take_left', List.drop_left']

/-! ### Whole rounds -/

theorem nextItem_eq_none {frames : List (Frame mode)} (none : nextItem frames = none) :
    frames = [] := by
  cases frames with
  | nil => rfl
  | cons frame frames =>
      simp only [nextItem] at none
      split at none <;> cases none

theorem decodeAll_frames (frames next : List (Frame mode)) (tail : Bytes) (fuel : Nat)
    (unfinished : PartialOf Frame.bytes next tail) (enough : frames.length < fuel) :
    ∃ items parts, decodeAll mode fuel (encodeAll Frame.bytes frames ++ tail) =
        .ok (items, tail) ∧
      List.Forall₂ Carries items parts ∧ parts.flatten = frames := by
  induction fuel generalizing frames with
  | zero => omega
  | succ fuel ih =>
      rw [decodeAll, decode_frames frames next tail unfinished]
      cases found : nextItem frames with
      | none =>
          obtain rfl := nextItem_eq_none found
          exact ⟨[], [], rfl, .nil, rfl⟩
      | some result =>
          obtain ⟨item, rest⟩ := result
          obtain ⟨part, carries, nonempty, rfl⟩ := nextItem_carries found
          have shorter : rest.length < fuel := by
            have := List.length_pos_of_ne_nil nonempty
            rw [List.length_append] at enough
            omega
          obtain ⟨items, parts, decoded, carried, rfl⟩ := ih rest shorter
          exact ⟨item :: items, part :: parts, by simp [decoded, Except.map],
            .cons carries carried, rfl⟩

theorem feed_frames (chunks : List Bytes) (buffer : Bytes) (frames : List (Frame mode))
    (arrives : buffer ++ chunks.flatten <+: encodeAll Frame.bytes frames) :
    ∃ rounds, feed mode buffer chunks = .ok rounds ∧ rounds.length = chunks.length ∧
      ∀ count, count < chunks.length → ∃ done rest left parts,
        rounds[count]?.map Prod.snd = some left ∧
        frames = done ++ rest ∧
        buffer ++ (chunks.take (count + 1)).flatten = encodeAll Frame.bytes done ++ left ∧
        PartialOf Frame.bytes rest left ∧
        List.Forall₂ Carries ((rounds.take (count + 1)).flatMap Prod.fst) parts ∧
        parts.flatten = done := by
  induction chunks generalizing buffer frames with
  | nil => exact ⟨[], rfl, rfl, by simp⟩
  | cons chunk chunks ih =>
      rw [List.flatten_cons, ← List.append_assoc] at arrives
      obtain ⟨done, rest, left, rfl, received, unfinished⟩ :=
        split_prefix Frame.bytes frames (buffer ++ chunk)
          ((List.prefix_append _ _).trans arrives)
      have enough : done.length < (buffer ++ chunk).length + 1 := by
        have long := length_le_encodeAll Frame.bytes Frame.bytes_ne_nil done
        rw [received, List.length_append]
        omega
      obtain ⟨items, parts, decoded, carried, covered⟩ :=
        decodeAll_frames done rest left _ unfinished enough
      rw [← received] at decoded
      rw [received, List.append_assoc, encodeAll_append, List.prefix_append_right_inj] at arrives
      obtain ⟨rounds, fed, sameLength, each⟩ := ih left rest arrives
      refine ⟨(items, left) :: rounds, by simp only [feed, decoded, fed, Except.map],
        by simp [sameLength], ?_⟩
      intro count within
      cases count with
      | zero =>
          exact ⟨done, rest, left, parts, rfl, rfl, by simpa using received, unfinished,
            by simpa using carried, covered⟩
      | succ count =>
          obtain ⟨doneLater, restLater, leftLater, partsLater, last, rfl, receivedLater,
            unfinishedLater, carriedLater, coveredLater⟩ := each count (by simpa using within)
          refine ⟨done ++ doneLater, restLater, leftLater, parts ++ partsLater, by simpa using last,
            by simp, ?_, unfinishedLater, ?_, by simp [covered, coveredLater]⟩
          · rw [List.take_succ_cons, List.flatten_cons, ← List.append_assoc, received,
              List.append_assoc, receivedLater, encodeAll_append, List.append_assoc]
          · rw [List.take_succ_cons, List.flatMap_cons]
            exact List.rel_append carried carriedLater

end PostgresCodec

open PostgresCodec

/-! ### The messages of an item -/

theorem BackendMessages.drain_frames (frames : List (Frame mode)) (fuel : Nat)
    (enough : frames.length < fuel) :
    BackendMessages.drain fuel ⟨encodeAll Frame.bytes frames, mode⟩ =
      .ok (frames.map (·.message)) := by
  induction fuel generalizing frames with
  | zero => omega
  | succ fuel ih =>
      cases frames with
      | nil => rfl
      | cons frame frames =>
          have later := ih frames (by simpa using enough)
          simp only [BackendMessages.drain, BackendMessages.next, encodeAll_cons,
            Frame.parse_append, later, Except.map, List.map_cons]

theorem PostgresCodec.Carries.flatten {item : BackendMessage} {part : List (Frame mode)}
    (carries : Carries item part) : item.flatten = .ok (part.map (·.message)) := by
  cases carries with
  | async => rfl
  | normal =>
      have long := length_le_encodeAll Frame.bytes Frame.bytes_ne_nil part
      exact BackendMessages.drain_frames part _ (by simpa using Nat.lt_succ_of_le long)

theorem BackendMessage.flattenAll_carried {items : List BackendMessage}
    {parts : List (List (Frame mode))} (carried : List.Forall₂ Carries items parts) :
    BackendMessage.flattenAll items = .ok (parts.flatten.map (·.message)) := by
  induction carried with
  | nil => rfl
  | @cons item part items parts carries _ ih =>
      simp only [BackendMessage.flattenAll, Except.map] at ih ⊢
      rw [List.mapM_cons, carries.flatten]
      cases later : items.mapM BackendMessage.flatten with
      | error error => simp [later] at ih
      | ok lists =>
          rw [later] at ih
          simp only [Except.ok.injEq] at ih
          simp [bind, Except.bind, pure, Except.pure, ih]

namespace PostgresCodec

/-- Decoding a stream of well-formed frames does not depend on the chunks it
arrives in: the items are the frames, cut into batches, and after each chunk the
buffer holds what has arrived of the first incomplete frame. -/
theorem feed_independent_of_chunks (frames : List (Frame mode)) (chunks : List Bytes)
    (stream : chunks.flatten = encodeAll Frame.bytes frames) :
    ∃ rounds parts, feed mode [] chunks = .ok rounds ∧
      List.Forall₂ Carries (rounds.flatMap Prod.fst) parts ∧ parts.flatten = frames ∧
      BackendMessage.flattenAll (rounds.flatMap Prod.fst) = .ok (frames.map (·.message)) ∧
      rounds.length = chunks.length ∧
      ∀ count, count < chunks.length → ∃ done rest left,
        rounds[count]?.map Prod.snd = some left ∧
        frames = done ++ rest ∧
        (chunks.take (count + 1)).flatten = encodeAll Frame.bytes done ++ left ∧
        PartialOf Frame.bytes rest left ∧
        BackendMessage.flattenAll ((rounds.take (count + 1)).flatMap Prod.fst) =
          .ok (done.map (·.message)) := by
  obtain ⟨rounds, fed, sameLength, each⟩ := feed_frames chunks [] frames (by simp [stream])
  have full : ∃ parts, List.Forall₂ Carries (rounds.flatMap Prod.fst) parts ∧
      parts.flatten = frames := by
    cases chunks with
    | nil =>
        have empty : frames = [] := by
          cases frames with
          | nil => rfl
          | cons frame frames => simp [Frame.bytes] at stream
        obtain rfl : rounds = [] := List.length_eq_zero_iff.mp sameLength
        exact ⟨[], .nil, empty.symm⟩
    | cons chunk chunks =>
        obtain ⟨done, rest, left, parts, -, rfl, received, unfinished, carried, covered⟩ :=
          each chunks.length (by simp)
        rw [List.take_of_length_le (by simp)] at received
        rw [List.take_of_length_le (by simp [sameLength])] at carried
        obtain ⟨rfl, -⟩ := unfinished.whole Frame.bytes (stream.symm.trans received)
        exact ⟨parts, carried, by simp [covered]⟩
  obtain ⟨parts, carried, covered⟩ := full
  refine ⟨rounds, parts, fed, carried, covered, ?_, sameLength, ?_⟩
  · rw [BackendMessage.flattenAll_carried carried, covered]
  · intro count within
    obtain ⟨done, rest, left, partsSoFar, last, split, received, unfinished, carriedSoFar, rfl⟩ :=
      each count within
    exact ⟨_, rest, left, last, split, received, unfinished,
      BackendMessage.flattenAll_carried carriedSoFar⟩

/-- A `NoticeResponse` and a `ReadyForQuery`, arriving as two chunks cut inside the second. -/
theorem feed_independent_of_chunks_notice :
    let notice : Frame .standard := ⟨noticeResponseTag, [0], .noticeResponse [0], by decide, rfl⟩
    let ready : Frame .standard := ⟨readyForQueryTag, [73], .readyForQuery 73, by decide, rfl⟩
    ∃ rounds parts,
      feed .standard [] [[78, 0, 0, 0, 5, 0, 90], [0, 0, 0, 5, 73]] = .ok rounds ∧
      List.Forall₂ Carries (rounds.flatMap Prod.fst) parts ∧ parts.flatten = [notice, ready] ∧
      BackendMessage.flattenAll (rounds.flatMap Prod.fst) =
        .ok [.noticeResponse [0], .readyForQuery 73] := by
  intro notice ready
  obtain ⟨rounds, parts, fed, carried, covered, flat, -⟩ :=
    feed_independent_of_chunks [notice, ready] [[78, 0, 0, 0, 5, 0, 90], [0, 0, 0, 5, 73]]
      (by decide)
  exact ⟨rounds, parts, fed, carried, covered, flat⟩

end PostgresCodec

end OpenGauss.Driver
