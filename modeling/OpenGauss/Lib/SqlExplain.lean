import Mathlib.Data.List.Basic
import OpenGauss.Lib.SqlBoundary
import OpenGauss.Lib.SqlStatements

/-! An EXPLAIN with a list of options in parentheses, as a server reads it from
the elements of a text, and when the list ends where the text says. -/

set_option autoImplicit false

namespace OpenGauss.Lib.SqlStatements

open SqlLexical

def comma : Lexeme := ⟨.symbol, [',']⟩

def opening : Lexeme := ⟨.symbol, ['(']⟩

/-- Which words are reserved is left out. -/
def isName (token : Lexeme) : Bool := token.kind = .identifier || token.kind = .quotedIdentifier

def isString (token : Lexeme) : Bool :=
  match token.kind with
  | .string | .escapeString | .dollarString _ => true
  | _ => false

inductive IsArgument : List Lexeme → Prop where
  | none : IsArgument []
  | name {token : Lexeme} (named : isName token = true) : IsArgument [token]
  /-- A string constant can have several parts. -/
  | string {first : Lexeme} {rest : List Lexeme}
      (strings : ∀ token ∈ first :: rest, isString token = true) : IsArgument (first :: rest)
  | number {token : Lexeme} (number : token.kind = .number) : IsArgument [token]
  | signed {sign token : Lexeme} (signs : isSymbol '+' sign = true ∨ isSymbol '-' sign = true)
      (number : token.kind = .number) : IsArgument [sign, token]

/-- A name, and what it is set to. -/
inductive IsOption : List Lexeme → Prop where
  | option {name : Lexeme} {argument : List Lexeme} (named : isName name = true)
      (sets : IsArgument argument) : IsOption (name :: argument)

/-- The elements between the parentheses, and those of each option. -/
inductive OptionList : List Lexeme → List (List Lexeme) → Prop where
  | one {option : List Lexeme} (reads : IsOption (option.filter significant)) :
      OptionList option [option]
  | more {option rest : List Lexeme} {options : List (List Lexeme)}
      (reads : IsOption (option.filter significant)) (others : OptionList rest options) :
      OptionList (option ++ comma :: rest) (option :: options)

/-- The text is read as an EXPLAIN with these options, and with a rest behind
the parenthesis. -/
def Explains (text : List Char) (options : List (List Lexeme)) (rest : List Char) : Prop :=
  ∃ before word between inside behind,
    lexemes text = before ++ word :: (between ++ opening :: (inside ++ closing :: behind)) ∧
      (∀ lexeme ∈ before ++ between, significant lexeme = false) ∧
      isWord "explain".toList word = true ∧ OptionList inside options ∧
      rest = behind.flatMap Lexeme.text

/-- In parentheses, the text stays between them and is no more than one option. -/
def Contained (text : List Char) : Prop :=
  Closed text ∧ comma ∉ lexemes text ∧ closing ∉ lexemes text

instance (text : List Char) : Decidable (Contained text) := by
  unfold Contained
  infer_instance

/-! ### Elements with no text in them -/

theorem lexemesAfter_text (gap : Option Bool) (text : List Char) :
    ∀ lexeme ∈ lexemesAfter gap text, lexeme.text ≠ [] := by
  induction size : text.length using Nat.strong_induction_on generalizing gap text with
  | _ length ih =>
      cases text with
      | nil => exact fun _ member => absurd member List.not_mem_nil
      | cons char rest =>
          have shorter := next_length gap char rest
          rw [List.length_cons] at size
          intro lexeme member
          rw [lexemesAfter_cons, List.mem_cons] at member
          rcases member with rfl | later
          · exact next_text gap char rest
          · exact ih _ (by omega) _ _ rfl lexeme later

/-- The elements of a text have one prefix for a text at most. -/
theorem prefix_unique {text : List Char} {front other : List Lexeme}
    (begins : front <+: lexemes text) (also : other <+: lexemes text)
    (same : front.flatMap Lexeme.text = other.flatMap Lexeme.text) : front = other := by
  have shorter {front other : List Lexeme} (begins : other <+: lexemes text) (inside : front <+: other)
      (same : front.flatMap Lexeme.text = other.flatMap Lexeme.text) : front = other := by
    obtain ⟨rest, rfl⟩ := inside
    rw [List.flatMap_append] at same
    have none := List.append_right_eq_self.mp same.symm
    cases rest with
    | nil => rw [List.append_nil]
    | cons lexeme rest =>
        have member : lexeme ∈ lexemes text := begins.subset (List.mem_append_right _ List.mem_cons_self)
        rw [List.flatMap_cons, List.append_eq_nil_iff] at none
        exact absurd none.1 (lexemesAfter_text .none text lexeme member)
  rcases List.prefix_or_prefix_of_prefix begins also with inside | inside
  · exact shorter also inside same
  · exact (shorter begins inside same.symm).symm

/-! ### The elements of an option -/

theorem IsArgument.no_symbol {argument : List Lexeme} (sets : IsArgument argument) {char : Char}
    (plus : char ≠ '+') (minus : char ≠ '-') : ⟨.symbol, [char]⟩ ∉ argument := by
  intro member
  cases sets with
  | none => cases member
  | name named =>
      obtain rfl := List.mem_singleton.mp member
      cases named
  | string strings => cases strings _ member
  | number number =>
      obtain rfl := List.mem_singleton.mp member
      cases number
  | signed signs number =>
      rw [List.mem_pair] at member
      rcases member with rfl | rfl
      · rcases signs with same | same
        · simp [isSymbol, plus] at same
        · simp [isSymbol, minus] at same
      · cases number

theorem IsOption.no_symbol {option : List Lexeme} (reads : IsOption (option.filter significant))
    {char : Char} (plus : char ≠ '+') (minus : char ≠ '-') : ⟨.symbol, [char]⟩ ∉ option := by
  intro member
  have kept := List.mem_filter.mpr ⟨member, show significant ⟨.symbol, [char]⟩ = true from rfl⟩
  generalize option.filter significant = tokens at reads kept
  cases reads with
  | option named sets =>
      rw [List.mem_cons] at kept
      rcases kept with rfl | inside
      · cases named
      · exact sets.no_symbol plus minus inside

theorem OptionList.no_closing {inside : List Lexeme} {options : List (List Lexeme)}
    (list : OptionList inside options) : closing ∉ inside := by
  induction list with
  | one reads => exact reads.no_symbol (by decide) (by decide)
  | more reads others ih =>
      intro member
      rw [List.mem_append, List.mem_cons] at member
      rcases member with first | same | later
      · exact reads.no_symbol (by decide) (by decide) first
      · cases same
      · exact ih later

theorem OptionList.single {inside : List Lexeme} {options : List (List Lexeme)}
    (list : OptionList inside options) (alone : comma ∉ inside) : options = [inside] := by
  cases list with
  | one reads => rfl
  | more reads others => exact absurd (List.mem_append_right _ List.mem_cons_self) alone

theorem OptionList.one_inside {inside option : List Lexeme} (list : OptionList inside [option]) :
    inside = option ∧ comma ∉ inside := by
  cases list with
  | one reads => exact ⟨rfl, reads.no_symbol (by decide) (by decide)⟩
  | more reads others => cases others

/-! ### A text between the parentheses -/

/-- An EXPLAIN with the inner text in parentheses. -/
def explainWith (inner tail : List Char) : List Char :=
  "EXPLAIN (".toList ++ (inner ++ ')' :: tail)

theorem lexemes_explainWith (inner tail : List Char) :
    lexemes (explainWith inner tail) =
      ⟨.identifier, "EXPLAIN".toList⟩ :: ([⟨.blank, [' ']⟩] ++
        opening :: lexemes (inner ++ ')' :: tail)) := by
  have word (text : List Char) : lexemesAfter none ("EXPLAIN (".toList ++ text) =
      ⟨.identifier, "EXPLAIN".toList⟩ :: lexemesAfter none (" (".toList ++ text) :=
    lexemesAfter_cons none 'E' _
  have blank (text : List Char) : lexemesAfter none (" (".toList ++ text) =
      ⟨.blank, [' ']⟩ :: lexemesAfter none ('(' :: text) :=
    lexemesAfter_cons none ' ' _
  have bracket (text : List Char) : lexemesAfter none ('(' :: text) = opening :: lexemes text :=
    lexemesAfter_cons none '(' _
  have whole := word (inner ++ ')' :: tail)
  rw [blank, bracket] at whole
  exact whole

/-- The first element that passes a test splits a list in one way. -/
theorem first_split {test : Lexeme → Bool} {front other behind after : List Lexeme}
    {first second : Lexeme} (same : front ++ first :: behind = other ++ second :: after)
    (before : ∀ lexeme ∈ front, test lexeme = false) (also : ∀ lexeme ∈ other, test lexeme = false)
    (passes : test first = true) (passed : test second = true) :
    front = other ∧ first = second ∧ behind = after := by
  induction front generalizing other with
  | nil =>
      cases other with
      | nil => exact ⟨rfl, List.cons.inj same⟩
      | cons lexeme other =>
          rw [(List.cons.inj same).1, also lexeme List.mem_cons_self] at passes
          cases passes
  | cons lexeme front ih =>
      cases other with
      | nil =>
          rw [← (List.cons.inj same).1, before lexeme List.mem_cons_self] at passed
          cases passed
      | cons head other =>
          obtain ⟨equal, rest⟩ := List.cons.inj same
          have parts := ih rest (fun lexeme member => before lexeme (List.mem_cons_of_mem _ member))
            (fun lexeme member => also lexeme (List.mem_cons_of_mem _ member))
          exact ⟨congrArg₂ List.cons equal parts.1, parts.2⟩

theorem closing_split {front other behind after : List Lexeme}
    (same : front ++ closing :: behind = other ++ closing :: after) (before : closing ∉ front)
    (also : closing ∉ other) : front = other ∧ behind = after := by
  have apart {lexemes : List Lexeme} (absent : closing ∉ lexemes) :
      ∀ lexeme ∈ lexemes, (lexeme == closing) = false := by
    intro lexeme member
    exact beq_false_of_ne fun equal => absent (equal ▸ member)
  have parts := first_split same (apart before) (apart also) (beq_self_eq_true _)
    (beq_self_eq_true _)
  exact ⟨parts.1, parts.2.2⟩

theorem explains_explainWith_iff {inner tail rest : List Char} {options : List (List Lexeme)} :
    Explains (explainWith inner tail) options rest ↔
      ∃ inside behind, lexemes (inner ++ ')' :: tail) = inside ++ closing :: behind ∧
        OptionList inside options ∧ rest = behind.flatMap Lexeme.text := by
  rw [Explains, lexemes_explainWith]
  constructor
  · intro explains
    obtain ⟨before, word, between, inside, behind, whole, quiet, explain, list, left⟩ := explains
    have loud : significant word = true := by
      simp [significant, (isWord_iff.mp explain).1]
    have quietBefore : ∀ lexeme ∈ before, significant lexeme = false :=
      fun lexeme member => quiet lexeme (List.mem_append_left _ member)
    have whole : [] ++ ⟨.identifier, "EXPLAIN".toList⟩ :: _ = before ++ word :: _ := whole
    have start := first_split whole (fun _ member => absurd member List.not_mem_nil)
      quietBefore rfl loud
    have quietBetween : ∀ lexeme ∈ between, significant lexeme = false :=
      fun lexeme member => quiet lexeme (List.mem_append_right _ member)
    have quietBlank : ∀ lexeme ∈ [(⟨.blank, [' ']⟩ : Lexeme)], significant lexeme = false := by
      decide
    have bracket := first_split start.2.2 quietBlank quietBetween rfl rfl
    exact ⟨inside, behind, bracket.2.2, list, left⟩
  · intro parts
    obtain ⟨inside, behind, whole, list, left⟩ := parts
    refine ⟨[], ⟨.identifier, "EXPLAIN".toList⟩, [⟨.blank, [' ']⟩], inside, behind, ?_, by decide,
      by decide, list, left⟩
    rw [whole]
    rfl

theorem explains_contained {inner tail rest : List Char} {options : List (List Lexeme)}
    (contained : Contained inner) (explains : Explains (explainWith inner tail) options rest) :
    options = [lexemes inner] ∧ rest = tail := by
  obtain ⟨closed, alone, within⟩ := contained
  obtain ⟨inside, behind, whole, list, left⟩ := explains_explainWith_iff.mp explains
  rw [closed.lexemes] at whole
  obtain ⟨same, after⟩ := closing_split whole within list.no_closing
  subst same
  refine ⟨list.single alone, ?_⟩
  rw [left, ← after, lexemes_flatMap]

/-- The text is read as no more than one option with the tail behind it exactly
when the inner text is contained in the parentheses, or the whole is read in
no way at all. -/
theorem explains_single_iff (inner tail : List Char) :
    (∀ options rest, Explains (explainWith inner tail) options rest →
      (∃ option, options = [option]) ∧ rest = tail) ↔
      Contained inner ∨ ¬∃ options rest, Explains (explainWith inner tail) options rest := by
  constructor
  · intro single
    by_cases reads : ∃ options rest, Explains (explainWith inner tail) options rest
    · left
      obtain ⟨options, rest, explains⟩ := reads
      obtain ⟨⟨option, rfl⟩, rfl⟩ := single options rest explains
      obtain ⟨inside, behind, whole, list, left⟩ := explains_explainWith_iff.mp explains
      obtain ⟨rfl, alone⟩ := list.one_inside
      have text : inside.flatMap Lexeme.text = inner := by
        have flat := lexemes_flatMap (inner ++ ')' :: rest)
        rw [whole, List.flatMap_append, List.flatMap_cons, ← left] at flat
        exact List.append_cancel_right flat
      have begins : inside <+: lexemes (inner ++ ')' :: rest) := ⟨_, whole.symm⟩
      have closed : Closed inner := Ends.closed ⟨inside, begins, text⟩
      have also : lexemes inner <+: lexemes (inner ++ ')' :: rest) := ⟨_, (closed.lexemes rest).symm⟩
      have same : inside = lexemes inner :=
        prefix_unique begins also (text.trans (lexemes_flatMap inner).symm)
      exact ⟨closed, same ▸ alone, same ▸ list.no_closing⟩
    · exact .inr reads
  · intro condition options rest explains
    rcases condition with contained | none
    · have parts := explains_contained contained explains
      exact ⟨⟨_, parts.1⟩, parts.2⟩
    · exact absurd ⟨options, rest, explains⟩ none

end OpenGauss.Lib.SqlStatements
