import Mathlib.Algebra.GroupWithZero.Nat
import Mathlib.Data.List.TakeWhile

/-! Operations on text as the standard library of the source has them, on
lists of characters. -/

set_option autoImplicit false

namespace OpenGauss.Lib.Text

/-- What holds of the characters of a text is decided on these only. -/
instance decidableForallMem (holds : Char → Prop) [DecidablePred holds] (text : List Char) :
    Decidable (∀ char ∈ text, holds char) :=
  List.decidableBAll holds text

/-- The Unicode property White_Space. -/
def isWhitespace (char : Char) : Bool :=
  let code := char.toNat
  (9 ≤ code && code ≤ 13) || code == 0x20 || code == 0x85 || code == 0xA0 || code == 0x1680 ||
    (0x2000 ≤ code && code ≤ 0x200A) || code == 0x2028 || code == 0x2029 || code == 0x202F ||
    code == 0x205F || code == 0x3000

/-- The number of bytes of a text. -/
def utf8Length (text : List Char) : Nat := (text.map Char.utf8Size).sum

/-- `find`, with a set of characters: the text before the first of them and the
text from it on. -/
def splitAtFirst (isEnd : Char → Bool) (text : List Char) : Option (List Char × List Char) :=
  if text.any isEnd then
    some (text.takeWhile fun char => !isEnd char, text.dropWhile fun char => !isEnd char)
  else none

/-- `splitn(2, separator)`: the first piece, and the rest if the separator occurs. -/
def splitTwo (separator : Char) (text : List Char) : List Char × Option (List Char) :=
  match splitAtFirst (· == separator) text with
  | some (first, rest) => (first, some (rest.drop 1))
  | none => (text, none)

/-- `strip_prefix`. -/
def stripPrefix? (start text : List Char) : Option (List Char) :=
  if start.isPrefixOf text then some (text.drop start.length) else none

theorem stripPrefix?_append (start rest : List Char) :
    stripPrefix? start (start ++ rest) = some rest := by
  have found : start.isPrefixOf (start ++ rest) = true :=
    List.isPrefixOf_iff_prefix.mpr (List.prefix_append ..)
  rw [stripPrefix?, if_pos found, List.drop_left]

theorem stripPrefix?_none {start text : List Char} (apart : start.isPrefixOf text = false) :
    stripPrefix? start text = none := by
  rw [stripPrefix?, apart, if_neg Bool.false_ne_true]

theorem splitAtFirst_append {isEnd : Char → Bool} {first : List Char} {stop : Char}
    (inside : ∀ char ∈ first, isEnd char = false) (ends : isEnd stop = true) (rest : List Char) :
    splitAtFirst isEnd (first ++ stop :: rest) = some (first, stop :: rest) := by
  have found : (first ++ stop :: rest).any isEnd = true :=
    List.any_eq_true.mpr ⟨stop, List.mem_append_right first List.mem_cons_self, ends⟩
  have goes : ∀ char ∈ first, (!isEnd char) = true := fun char member => by rw [inside char member]; rfl
  have stops : ¬(!isEnd stop) = true := by rw [ends]; exact Bool.false_ne_true
  have taken : (stop :: rest).takeWhile (fun char => !isEnd char) = [] :=
    List.takeWhile_cons_of_neg stops
  have left : (stop :: rest).dropWhile (fun char => !isEnd char) = stop :: rest :=
    List.dropWhile_cons_of_neg stops
  rw [splitAtFirst, if_pos found, List.takeWhile_append_of_pos goes, taken,
    List.dropWhile_append_of_pos goes, left, List.append_nil]

theorem splitAtFirst_none {isEnd : Char → Bool} {text : List Char}
    (inside : ∀ char ∈ text, isEnd char = false) : splitAtFirst isEnd text = none := by
  refine if_neg fun found => ?_
  obtain ⟨char, member, ends⟩ := List.any_eq_true.mp found
  rw [inside char member] at ends
  cases ends

/-- Either no character of a text is an end, or there is a first one. -/
theorem first_end (isEnd : Char → Bool) (text : List Char) :
    (∀ char ∈ text, isEnd char = false) ∨
      ∃ first stop rest, text = first ++ stop :: rest ∧ (∀ char ∈ first, isEnd char = false) ∧
        isEnd stop = true := by
  induction text with
  | nil => exact .inl fun _ member => absurd member List.not_mem_nil
  | cons char text ih =>
      by_cases ends : isEnd char = true
      · exact .inr ⟨[], char, text, rfl, fun _ member => absurd member List.not_mem_nil, ends⟩
      · have goes := Bool.eq_false_iff.mpr ends
        obtain inside | ⟨first, stop, rest, rfl, inside, stops⟩ := ih
        · exact .inl (List.forall_mem_cons.mpr ⟨goes, inside⟩)
        · exact .inr ⟨char :: first, stop, rest, rfl, List.forall_mem_cons.mpr ⟨goes, inside⟩, stops⟩

theorem splitTwo_append {separator : Char} {first : List Char} (inside : separator ∉ first)
    (rest : List Char) : splitTwo separator (first ++ separator :: rest) = (first, some rest) := by
  have goes : ∀ char ∈ first, (char == separator) = false := fun char member =>
    beq_eq_false_iff_ne.mpr fun same => inside (same ▸ member)
  rw [splitTwo, splitAtFirst_append goes (beq_self_eq_true separator)]
  rfl

theorem splitTwo_single {separator : Char} {text : List Char} (inside : separator ∉ text) :
    splitTwo separator text = (text, none) := by
  have goes : ∀ char ∈ text, (char == separator) = false := fun char member =>
    beq_eq_false_iff_ne.mpr fun same => inside (same ▸ member)
  rw [splitTwo, splitAtFirst_none goes]

theorem splitTwo_some {separator : Char} {text first rest : List Char}
    (split : splitTwo separator text = (first, some rest)) :
    text = first ++ separator :: rest := by
  obtain inside | ⟨front, stop, later, rfl, inside, stops⟩ := first_end (· == separator) text
  · rw [splitTwo, splitAtFirst_none inside] at split
    cases split
  · rw [splitTwo, splitAtFirst_append inside stops] at split
    obtain ⟨rfl, later⟩ := Prod.mk.inj split
    obtain rfl := Option.some.inj later
    rw [beq_iff_eq.mp stops]
    rfl

def trimStart (text : List Char) : List Char := text.dropWhile isWhitespace

def trimEnd (text : List Char) : List Char := (text.reverse.dropWhile isWhitespace).reverse

def trim (text : List Char) : List Char := trimEnd (trimStart text)

/-- A text that neither begins nor ends with a blank. -/
theorem trim_ends {text : List Char} {first last : Char} (starts : text.head? = some first)
    (visible : isWhitespace first = false) (ends : text.getLast? = some last)
    (shown : isWhitespace last = false) : trim text = text := by
  have started : trimStart text = text := by
    obtain ⟨rest, rfl⟩ := List.head?_eq_some_iff.mp starts
    exact List.dropWhile_cons_of_neg (Bool.eq_false_iff.mp visible)
  rw [trim, started, trimEnd]
  obtain ⟨front, rfl⟩ := List.getLast?_eq_some_iff.mp ends
  rw [List.reverse_append, List.reverse_singleton, List.singleton_append,
    List.dropWhile_cons_of_neg (Bool.eq_false_iff.mp shown), List.reverse_cons,
    List.reverse_reverse]

theorem trim_blanks {blanks : List Char} (blank : ∀ char ∈ blanks, isWhitespace char = true)
    (text : List Char) : trim (blanks ++ text) = trim text := by
  rw [trim, trim, trimStart, List.dropWhile_append_of_pos blank, trimStart]

theorem trimStart_split (text : List Char) :
    ∃ blanks, text = blanks ++ trimStart text ∧ ∀ char ∈ blanks, isWhitespace char = true :=
  ⟨text.takeWhile isWhitespace, (List.takeWhile_append_dropWhile ..).symm,
    fun _ member => List.mem_takeWhile_imp member⟩

theorem trimEnd_split (text : List Char) :
    ∃ blanks, text = trimEnd text ++ blanks ∧ ∀ char ∈ blanks, isWhitespace char = true := by
  refine ⟨(text.reverse.takeWhile isWhitespace).reverse, ?_, ?_⟩
  · rw [trimEnd, ← List.reverse_append, List.takeWhile_append_dropWhile, List.reverse_reverse]
  · intro char member
    exact List.mem_takeWhile_imp (List.mem_reverse.mp member)

/-- What is trimmed ends with no blank. -/
theorem trim_shown (text : List Char) : ∀ last ∈ (trim text).getLast?, isWhitespace last = false := by
  intro last ends
  rw [trim, trimEnd, List.getLast?_reverse] at ends
  have visible := List.head?_dropWhile_not isWhitespace (trimStart text).reverse
  rw [ends] at visible
  exact visible

theorem trimStart_blanks {blanks : List Char} (blank : ∀ char ∈ blanks, isWhitespace char = true)
    (text : List Char) : trimStart (blanks ++ text) = trimStart text :=
  List.dropWhile_append_of_pos blank

/-- A text consists of pieces in their order, with blanks between them. -/
inductive Spaced : List (List Char) → List Char → Prop where
  | nil {blanks : List Char} (blank : ∀ char ∈ blanks, isWhitespace char = true) :
      Spaced [] blanks
  | cons {blanks piece text : List Char} {pieces : List (List Char)}
      (blank : ∀ char ∈ blanks, isWhitespace char = true) (later : Spaced pieces text) :
      Spaced (piece :: pieces) (blanks ++ piece ++ text)

theorem Spaced.blanks {pieces : List (List Char)} {blanks text : List Char}
    (blank : ∀ char ∈ blanks, isWhitespace char = true) (spaced : Spaced pieces text) :
    Spaced pieces (blanks ++ text) := by
  cases spaced with
  | nil others => exact .nil fun char member => (List.mem_append.mp member).elim (blank char) (others char)
  | cons others later =>
      rw [← List.append_assoc, ← List.append_assoc]
      exact .cons (fun char member => (List.mem_append.mp member).elim (blank char) (others char)) later

/-- The items that are read from the front of a text one after the other, and
the text behind them. -/
inductive Items {Item : Type} (one : List Char → Item → List Char → Prop) :
    List Char → List Item → List Char → Prop where
  | done (text : List Char) : Items one text [] text
  | next {text later rest : List Char} {item : Item} {items : List Item}
      (first : one text item later) (others : Items one later items rest) :
      Items one text (item :: items) rest

theorem Items.imp {Item : Type} {one other : List Char → Item → List Char → Prop}
    (implied : ∀ text item later, one text item later → other text item later)
    {text rest : List Char} {items : List Item} (read : Items one text items rest) :
    Items other text items rest := by
  induction read with
  | done text => exact .done text
  | next first _ ih => exact .next (implied _ _ _ first) ih

end OpenGauss.Lib.Text
