import Mathlib.Data.List.Basic

/-! Length-delimited framing over any alphabet: the wire form of a frame
sequence, and what is left over when only a prefix of it has arrived. -/

set_option autoImplicit false

namespace OpenGauss.Lib.Framing

variable {Frame Symbol : Type} (encode : Frame → List Symbol)

/-- The wire form of a frame sequence. -/
def encodeAll (frames : List Frame) : List Symbol :=
  frames.flatMap encode

@[simp] theorem encodeAll_nil : encodeAll encode [] = [] := rfl

@[simp] theorem encodeAll_cons (frame : Frame) (frames : List Frame) :
    encodeAll encode (frame :: frames) = encode frame ++ encodeAll encode frames := rfl

@[simp] theorem encodeAll_append (left right : List Frame) :
    encodeAll encode (left ++ right) = encodeAll encode left ++ encodeAll encode right := by
  simp [encodeAll]

/-- Frames that are not empty take at least one symbol each. -/
theorem length_le_encodeAll (nonempty : ∀ frame, encode frame ≠ []) (frames : List Frame) :
    frames.length ≤ (encodeAll encode frames).length := by
  induction frames with
  | nil => exact Nat.le_refl _
  | cons frame frames ih =>
      have positive := List.length_pos_of_ne_nil (nonempty frame)
      rw [encodeAll_cons, List.length_append, List.length_cons]
      omega

/-- `tail` has arrived of the first of the frames to come, and is not all of it. -/
def PartialOf : List Frame → List Symbol → Prop
  | [], tail => tail = []
  | next :: _, tail => tail <+: encode next ∧ tail.length < (encode next).length

/-- Any prefix of the wire form is some whole frames and a part of the next. -/
theorem split_prefix (frames : List Frame) (received : List Symbol)
    (arrived : received <+: encodeAll encode frames) :
    ∃ done rest tail, frames = done ++ rest ∧
      received = encodeAll encode done ++ tail ∧ PartialOf encode rest tail := by
  induction frames generalizing received with
  | nil =>
      refine ⟨[], [], received, rfl, rfl, ?_⟩
      simpa [PartialOf] using arrived
  | cons frame frames ih =>
      rw [encodeAll_cons] at arrived
      by_cases short : received.length < (encode frame).length
      · refine ⟨[], frame :: frames, received, rfl, rfl, ?_, short⟩
        exact List.prefix_of_prefix_length_le arrived (List.prefix_append _ _)
          (Nat.le_of_lt short)
      · have whole : encode frame <+: received :=
          List.prefix_of_prefix_length_le (List.prefix_append _ _) arrived
            (Nat.le_of_not_lt short)
        obtain ⟨later, rfl⟩ := whole
        have arrivedLater : later <+: encodeAll encode frames :=
          (List.prefix_append_right_inj _).mp arrived
        obtain ⟨done, rest, tail, rfl, rfl, unfinished⟩ := ih later arrivedLater
        exact ⟨frame :: done, rest, tail, rfl, by simp, unfinished⟩

/-- When everything has arrived, nothing is left of the next frame. -/
theorem PartialOf.whole {done rest : List Frame} {tail : List Symbol}
    (unfinished : PartialOf encode rest tail)
    (arrived : encodeAll encode (done ++ rest) = encodeAll encode done ++ tail) :
    rest = [] ∧ tail = [] := by
  rw [encodeAll_append, List.append_cancel_left_eq] at arrived
  cases rest with
  | nil => exact ⟨rfl, unfinished⟩
  | cons next rest =>
      have short := unfinished.2
      rw [← arrived, encodeAll_cons, List.length_append] at short
      omega

end OpenGauss.Lib.Framing
