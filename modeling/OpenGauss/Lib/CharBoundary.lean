import OpenGauss.Lib.Text

/-! Cutting a text at a number of bytes, which panics inside of a character. -/

set_option autoImplicit false

namespace OpenGauss.Lib.Text

/-- `&text[..stop]`; `none` is a panic. -/
def sliceTo? : List Char → Nat → Option (List Char)
  | _, 0 => some []
  | [], _ + 1 => none
  | char :: text, stop + 1 =>
      if char.utf8Size ≤ stop + 1 then (sliceTo? text (stop + 1 - char.utf8Size)).map (char :: ·)
      else none

/-- A number of bytes behind which a character ends, or none has begun. -/
def IsCharBoundary (text : List Char) (stop : Nat) : Prop :=
  ∃ front back, text = front ++ back ∧ utf8Length front = stop

theorem utf8Length_cons (char : Char) (text : List Char) :
    utf8Length (char :: text) = char.utf8Size + utf8Length text := by
  rw [utf8Length, List.map_cons, List.sum_cons, utf8Length]

theorem sliceTo?_zero (text : List Char) : sliceTo? text 0 = some [] := by
  cases text <;> rfl

theorem sliceTo?_append (front back : List Char) :
    sliceTo? (front ++ back) (utf8Length front) = some front := by
  induction front with
  | nil => exact sliceTo?_zero back
  | cons char front ih =>
      have positive := char.utf8Size_pos
      obtain ⟨before, size⟩ : ∃ before, char.utf8Size + utf8Length front = before + 1 :=
        ⟨char.utf8Size + utf8Length front - 1, by omega⟩
      have rest : before + 1 - char.utf8Size = utf8Length front := by omega
      rw [List.cons_append, utf8Length_cons, size, sliceTo?, if_pos (by omega), rest, ih]
      rfl

/-- A slice is the text before a boundary. -/
theorem sliceTo?_iff {text front : List Char} {stop : Nat} :
    sliceTo? text stop = some front ↔ ∃ back, text = front ++ back ∧ utf8Length front = stop := by
  constructor
  · intro sliced
    induction text generalizing front stop with
    | nil =>
        cases stop with
        | zero =>
            obtain rfl := Option.some.inj sliced
            exact ⟨[], rfl, rfl⟩
        | succ stop => cases sliced
    | cons char text ih =>
        cases stop with
        | zero =>
            obtain rfl := Option.some.inj sliced
            exact ⟨char :: text, rfl, rfl⟩
        | succ stop =>
            rw [sliceTo?] at sliced
            split at sliced
            · next fits =>
                obtain ⟨inner, found, rfl⟩ := Option.map_eq_some_iff.mp sliced
                obtain ⟨back, rfl, size⟩ := ih found
                refine ⟨back, rfl, ?_⟩
                rw [utf8Length_cons, size]
                omega
            · cases sliced
  · rintro ⟨back, rfl, rfl⟩
    exact sliceTo?_append front back

theorem sliceTo?_ne_none_iff {text : List Char} {stop : Nat} :
    sliceTo? text stop ≠ none ↔ IsCharBoundary text stop := by
  rw [Option.ne_none_iff_exists']
  simp only [sliceTo?_iff]
  rfl

theorem isCharBoundary_length (text : List Char) : IsCharBoundary text (utf8Length text) :=
  ⟨text, [], (List.append_nil text).symm, rfl⟩

end OpenGauss.Lib.Text
