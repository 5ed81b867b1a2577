import Mathlib.Data.List.Basic

/-! The upper case of a text, as far as the ASCII letters in it go. -/

set_option autoImplicit false

namespace OpenGauss.Lib.UpperCase

/-- The other characters with an ASCII letter in their upper case. -/
def specialCasing : List (Char × List Char) :=
  [('ı', ['I']), ('ſ', ['S']), ('ß', ['S', 'S']), ('ŉ', ['\u02bc', 'N']), ('ǰ', ['J', '\u030c']),
    ('ẖ', ['H', '\u0331']), ('ẗ', ['T', '\u0308']), ('ẘ', ['W', '\u030a']), ('ẙ', ['Y', '\u030a']),
    ('ẚ', ['A', '\u02be']), ('ﬀ', ['F', 'F']), ('ﬁ', ['F', 'I']), ('ﬂ', ['F', 'L']),
    ('ﬃ', ['F', 'F', 'I']), ('ﬄ', ['F', 'F', 'L']), ('ﬅ', ['S', 'T']), ('ﬆ', ['S', 'T'])]

/-- A letter whose upper case has no ASCII letter stays as it is. -/
def upperChar (char : Char) : List Char :=
  if char.toNat < 128 then [char.toUpper] else (specialCasing.lookup char).getD [char]

/-- `to_uppercase`. -/
def toUppercase (text : List Char) : List Char := text.flatMap upperChar

theorem upperChar_ascii {char : Char} (ascii : char.toNat < 128) : upperChar char = [char.toUpper] :=
  if_pos ascii

theorem toUppercase_append (first second : List Char) :
    toUppercase (first ++ second) = toUppercase first ++ toUppercase second :=
  List.flatMap_append

theorem toUppercase_ascii {text : List Char} (ascii : ∀ char ∈ text, char.toNat < 128) :
    toUppercase text = text.map Char.toUpper := by
  induction text with
  | nil => rfl
  | cons char rest ih =>
      have others : ∀ char ∈ rest, char.toNat < 128 := fun char member =>
        ascii char (List.mem_cons_of_mem _ member)
      rw [toUppercase, List.flatMap_cons, upperChar_ascii (ascii char List.mem_cons_self),
        List.map_cons, ← ih others]
      rfl

/-- The lower case changes ASCII letters only. -/
theorem toLower_ascii {char : Char} (ascii : char.toLower.toNat < 128) : char.toNat < 128 := by
  by_contra large
  have noUpper : ¬('A'.val ≤ char.val ∧ char.val ≤ 'Z'.val) := by
    intro upper
    exact large (Nat.lt_of_le_of_lt (UInt32.le_iff_toNat_le.mp upper.2) (by decide))
  have same : char.toLower = char := dif_neg noUpper
  rw [same] at ascii
  exact large ascii

theorem toUpper_toLower {char : Char} (ascii : char.toNat < 128) :
    char.toLower.toUpper = char.toUpper := by
  have all : ∀ code < 128, (Char.ofNat code).toLower.toUpper = (Char.ofNat code).toUpper := by decide
  rw [← Char.ofNat_toNat char]
  exact all char.toNat ascii

/-- The upper case of a text that is an ASCII word in lower case. -/
theorem toUppercase_word {text word : List Char} (ascii : ∀ char ∈ word, char.toNat < 128)
    (same : text.map Char.toLower = word) : toUppercase text = word.map Char.toUpper := by
  subst same
  have small : ∀ char ∈ text, char.toNat < 128 := fun char member =>
    toLower_ascii (ascii _ (List.mem_map_of_mem member))
  rw [toUppercase_ascii small, List.map_map]
  exact List.map_congr_left fun char member => (toUpper_toLower (small char member)).symm

end OpenGauss.Lib.UpperCase
