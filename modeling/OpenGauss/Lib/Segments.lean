import Mathlib.Data.List.Basic

/-! Cutting a list after each element that ends a segment. -/

set_option autoImplicit false

namespace OpenGauss.Lib.Segments

variable {Item : Type} (ends : Item → Bool)

/-- Segment number `index` of a list: the items after ending item number
`index - 1`, up to and with ending item number `index`. -/
def segment : Nat → List Item → List Item
  | _, [] => []
  | 0, item :: items => if ends item then [item] else item :: segment 0 items
  | index + 1, item :: items =>
      if ends item then segment index items else segment (index + 1) items

/-- An item appended to a list belongs to the segment that is still open. -/
theorem segment_concat (index : Nat) (items : List Item) (item : Item) :
    segment ends index (items ++ [item]) =
      if index = items.countP ends then segment ends index items ++ [item]
      else segment ends index items := by
  induction items generalizing index with
  | nil =>
      cases index with
      | zero => cases last : ends item <;> simp [segment, last]
      | succ index => cases last : ends item <;> simp [segment, last]
  | cons first items ih =>
      cases index with
      | zero =>
          cases firstEnds : ends first with
          | true => simp [segment, firstEnds]
          | false =>
              have same : (first :: items).countP ends = items.countP ends :=
                List.countP_cons_of_neg (by simp [firstEnds])
              simp only [List.cons_append, segment, firstEnds, Bool.false_eq_true, if_false, ih,
                same]
              split <;> rfl
      | succ index =>
          cases firstEnds : ends first with
          | true => simp [segment, firstEnds, ih]
          | false => simp [segment, firstEnds, ih]

/-- A segment of two lists: what the first one has of it, and what the second one goes on with. -/
theorem segment_append (index : Nat) (first second : List Item) :
    segment ends index (first ++ second) =
      segment ends index first ++
        if first.countP ends ≤ index then segment ends (index - first.countP ends) second else [] := by
  induction first generalizing index with
  | nil => simp [segment]
  | cons item first ih =>
      cases last : ends item with
      | true =>
          cases index with
          | zero => simp [segment, last]
          | succ index => simp [segment, last, ih]
      | false =>
          cases index with
          | zero => simp [segment, last, ih]
          | succ index => simp [segment, last, ih]

/-- More of a list has more of each segment. -/
theorem segment_mono (index : Nat) {first second : List Item} (more : first <+: second) :
    segment ends index first <+: segment ends index second := by
  obtain ⟨rest, rfl⟩ := more
  simp [segment_append]

end OpenGauss.Lib.Segments
