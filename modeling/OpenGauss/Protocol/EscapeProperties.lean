import OpenGauss.Lib.SqlStrings
import OpenGauss.Lib.Text
import OpenGauss.Protocol.Escape

/-! What the lexer of PostgreSQL makes of escaped literals and identifiers. -/

set_option autoImplicit false

namespace OpenGauss.Protocol

open Lib Lib.SqlStrings

def double (doubled : Char → Bool) (char : Char) : List Char :=
  if doubled char then [char, char] else [char]

/-- The characters that are doubled in a literal. -/
def isLiteralSpecial (char : Char) : Bool := char == '\'' || char == '\\'

theorem flatMap_double {doubled : Char → Bool} {input : List Char}
    (plain : ∀ char ∈ input, doubled char = false) : input.flatMap (double doubled) = input := by
  induction input with
  | nil => rfl
  | cons char input ih =>
      obtain ⟨first, plain⟩ := List.forall_mem_cons.mp plain
      rw [List.flatMap_cons, ih plain, double, first]
      rfl

theorem escapeLiteral_text (input : List Char) :
    escapeLiteral input =
      (if '\\' ∈ input then [' ', 'E', '\''] else ['\'']) ++ input.flatMap (double isLiteralSpecial) ++
        ['\''] := by
  have backslashes : 0 < input.countP (fun ch => ch != '\'' && ch == '\\') ↔ '\\' ∈ input := by
    rw [List.countP_pos_iff]
    constructor
    · rintro ⟨char, member, special⟩
      rw [Bool.and_eq_true, beq_iff_eq] at special
      exact special.2 ▸ member
    · exact fun member => ⟨'\\', member, by decide⟩
  have doubled : (fun ch => if ch == '\'' || (!false && ch == '\\') then [ch, ch] else [ch]) =
      double isLiteralSpecial := rfl
  have body : (if input.countP (· == '\'') = 0 ∧
        (input.countP (fun ch => ch != '\'' && ch == '\\') = 0 ∨ false = true) then input
      else input.flatMap (double isLiteralSpecial)) = input.flatMap (double isLiteralSpecial) := by
    split
    · rename_i none
      refine (flatMap_double fun char member => ?_).symm
      have noQuote := List.countP_eq_zero.mp none.1 char member
      have noBackslash := List.countP_eq_zero.mp (none.2.resolve_right Bool.false_ne_true) char member
      rw [isLiteralSpecial]
      simp_all
    · rfl
  have start : (if (!false && decide (0 < input.countP fun ch => ch != '\'' && ch == '\\')) = true
      then [' ', 'E', '\''] else ['\'']) = if '\\' ∈ input then [' ', 'E', '\''] else ['\''] := by
    simp only [Bool.not_false, Bool.true_and, decide_eq_true_eq, backslashes]
  rw [escapeLiteral, escapeInternal]
  simp only [Bool.false_eq_true, if_false] at start body ⊢
  rw [start, doubled, body]

theorem escapeIdentifier_text (input : List Char) :
    escapeIdentifier input = '"' :: (input.flatMap (double (· == '"')) ++ ['"']) := by
  have doubled : (fun ch => if ch == '"' || (!true && ch == '\\') then [ch, ch] else [ch]) =
      double (· == '"') := by
    funext ch
    simp [double]
  have body : (if input.countP (· == '"') = 0 ∧
        (input.countP (fun ch => ch != '"' && ch == '\\') = 0 ∨ true = true) then input
      else input.flatMap (double (· == '"'))) = input.flatMap (double (· == '"')) := by
    split
    · rename_i none
      refine (flatMap_double fun char member => ?_).symm
      exact Bool.eq_false_iff.mpr (List.countP_eq_zero.mp none.1 char member)
    · rfl
  rw [escapeIdentifier, escapeInternal]
  simp only [if_true] at body ⊢
  rw [doubled, body]
  rfl

/-! ### Reading -/

theorem quotedValue_flatMap {quote : Char} (quoteText : quote ≠ '\x00') {doubled : Char → Bool}
    {input : List Char} (same : ∀ char ∈ input, doubled char = (char == quote)) (text : ∀ char ∈ input, char ≠ '\x00') :
    quotedValue quote (input.flatMap (double doubled) ++ [quote]) = some (input, []) := by
  induction input with
  | nil => exact quotedValue_end quoteText
  | cons char input ih =>
      obtain ⟨first, same⟩ := List.forall_mem_cons.mp same
      obtain ⟨charText, text⟩ := List.forall_mem_cons.mp text
      rw [List.flatMap_cons, double, first, List.append_assoc]
      by_cases other : char = quote
      · rw [other, beq_self_eq_true, if_pos rfl, List.cons_append, List.cons_append, List.nil_append,
          quotedValue_double quoteText, ih same text]
        rfl
      · rw [beq_eq_false_iff_ne.mpr other, if_neg Bool.false_ne_true, List.cons_append, List.nil_append,
          quotedValue_char charText other, ih same text]
        rfl

theorem escapedBytes_flatMap {fuel : Nat} {input : List Char}
    (enough : (input.flatMap (double isLiteralSpecial) ++ ['\'']).length ≤ fuel) (text : ∀ char ∈ input, char ≠ '\x00') :
    escapedBytes fuel (input.flatMap (double isLiteralSpecial) ++ ['\'']) =
      some (Utf8.encode input, []) := by
  induction input generalizing fuel with
  | nil =>
      obtain ⟨fuel, rfl⟩ := Nat.exists_eq_add_one.mpr (Nat.lt_of_lt_of_le Nat.zero_lt_one enough)
      exact escapedBytes_end fuel
  | cons char input ih =>
      obtain ⟨charText, text⟩ := List.forall_mem_cons.mp text
      rw [List.flatMap_cons, List.append_assoc, List.length_append] at enough
      have taken : 1 ≤ (double isLiteralSpecial char).length := by
        rw [double]
        split <;> exact Nat.succ_le_succ (Nat.zero_le _)
      obtain ⟨fuel, rfl⟩ := Nat.exists_eq_add_one.mpr (Nat.lt_of_lt_of_le taken (Nat.le_trans (Nat.le_add_right ..) enough))
      have later : escapedBytes fuel (input.flatMap (double isLiteralSpecial) ++ ['\'']) =
          some (Utf8.encode input, []) := ih (by omega) text
      have encoded : Utf8.encode (char :: input) = Utf8.encode [char] ++ Utf8.encode input :=
        Utf8.encode_append [char] input
      rw [List.flatMap_cons, List.append_assoc, encoded, double]
      by_cases quote : char = '\''
      · rw [quote]
        exact (escapedBytes_double fuel _).trans (congrArg (prepend [39]) later)
      by_cases backslash : char = '\\'
      · rw [backslash]
        exact (escapedBytes_backslash fuel _).trans (congrArg (prepend [92]) later)
      have plain : isLiteralSpecial char = false := by simp [isLiteralSpecial, quote, backslash]
      rw [plain, if_neg Bool.false_ne_true]
      exact (escapedBytes_char charText quote backslash fuel _).trans
        (congrArg (prepend (Utf8.encode [char])) later)

theorem escapedValue_flatMap {input : List Char} (text : ∀ char ∈ input, char ≠ '\x00') :
    escapedValue (input.flatMap (double isLiteralSpecial) ++ ['\'']) = some (input, []) := by
  have noNull : '\x00' ∉ input := fun member => text '\x00' member rfl
  rw [escapedValue, escapedBytes_flatMap (Nat.le_refl _) text]
  change (Utf8.decode? (Utf8.encode input)).bind _ = _
  rw [Utf8.decode?_encode]
  exact if_neg noNull

theorem clip_short {limit : Nat} {input : List Char} (short : Text.utf8Length input ≤ limit) :
    clip limit input = input := by
  induction input generalizing limit with
  | nil => rfl
  | cons char input ih =>
      have size : Text.utf8Length (char :: input) = char.utf8Size + Text.utf8Length input := by
        simp [Text.utf8Length]
      rw [clip, if_pos (by omega), ih (by omega)]

theorem token_escapeLiteral {input blanks : List Char} (text : ∀ char ∈ input, char ≠ '\x00')
    (blank : ∀ char ∈ blanks, SqlLexical.isSpace char = true) (standardConforming : Bool) :
    token standardConforming (blanks ++ escapeLiteral input) = some (.string input, []) := by
  have value := escapedValue_flatMap text
  rw [token, List.dropWhile_append_of_pos blank, escapeLiteral_text]
  by_cases backslash : '\\' ∈ input
  · rw [if_pos backslash]
    exact congrArg (Option.map _) value
  · have same : ∀ char ∈ input, isLiteralSpecial char = (char == '\'') := by
      intro char member
      have literal : char ≠ '\\' := fun same => backslash (same ▸ member)
      rw [isLiteralSpecial, beq_eq_false_iff_ne.mpr literal, Bool.or_false]
    rw [if_neg backslash]
    cases standardConforming with
    | false => exact congrArg (Option.map _) value
    | true => exact congrArg (Option.map _) (quotedValue_flatMap (by decide) same text)

theorem token_escapeIdentifier {input blanks : List Char} (text : ∀ char ∈ input, char ≠ '\x00')
    (blank : ∀ char ∈ blanks, SqlLexical.isSpace char = true) (standardConforming : Bool)
    (nonempty : input ≠ []) :
    token standardConforming (blanks ++ escapeIdentifier input) =
      some (.identifier (clip nameBytes input), []) := by
  have name : quotedValue '"' (input.flatMap (double (· == '"')) ++ ['"']) = some (input, []) :=
    quotedValue_flatMap (by decide) (fun _ _ => rfl) text
  have skipped : (blanks ++ escapeIdentifier input).dropWhile SqlLexical.isSpace =
      '"' :: (input.flatMap (double (· == '"')) ++ ['"']) := by
    rw [List.dropWhile_append_of_pos blank, escapeIdentifier_text]
    rfl
  rw [token, skipped]
  refine (congrArg identifierToken name).trans ?_
  cases input with
  | nil => exact absurd rfl nonempty
  | cons char input => rfl

/-- An escaped text is one token with the value of the text, under either
setting of `standard_conforming_strings`. There is no identifier without a
character, and the lexer cuts a long one. -/
theorem token_escape (input : List Char) (text : ∀ char ∈ input, char ≠ '\x00') (blanks : List Char)
    (blank : ∀ char ∈ blanks, SqlLexical.isSpace char = true) (standardConforming : Bool) :
    token standardConforming (blanks ++ escapeLiteral input) = some (.string input, []) ∧
      (input ≠ [] → token standardConforming (blanks ++ escapeIdentifier input) =
        some (.identifier (clip nameBytes input), [])) ∧
      (Text.utf8Length input ≤ nameBytes → clip nameBytes input = input) :=
  ⟨token_escapeLiteral text blank standardConforming,
    token_escapeIdentifier text blank standardConforming, clip_short⟩

theorem token_escape_quotes :
    escapeLiteral "a'\\'".toList = " E'a''\\\\'''".toList ∧
      token false (" \n".toList ++ escapeLiteral "a'\\'".toList) = some (.string "a'\\'".toList, []) ∧
      token false (" \n".toList ++ escapeIdentifier "a'\\'".toList) =
        some (.identifier "a'\\'".toList, []) :=
  have escaped := token_escape "a'\\'".toList (by decide) " \n".toList (by decide) false
  ⟨by decide, escaped.1, escaped.2.2 (by decide) ▸ escaped.2.1 (by decide)⟩

/-- An empty identifier is an error, and of 64 letters the last one is lost. -/
theorem not_token_escapeIdentifier :
    token true (escapeIdentifier []) = none ∧
      token true (escapeIdentifier (List.replicate 64 'a')) =
        some (.identifier (List.replicate 63 'a'), []) := by
  decide +kernel

end OpenGauss.Protocol
