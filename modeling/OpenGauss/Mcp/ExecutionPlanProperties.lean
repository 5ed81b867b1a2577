import OpenGauss.Lib.SqlExplain
import OpenGauss.Mcp.ExecutionPlan

/-! What the server takes the text of `get_execution_plan` for, when the plan
is asked for without ANALYZE. -/

set_option autoImplicit false

namespace OpenGauss.Mcp

open Driver Lib.SqlLexical Lib.SqlStatements

def formatWord : Lexeme := ⟨.identifier, "FORMAT".toList⟩

def blank : Lexeme := ⟨.blank, [' ']⟩

/-- The option has such a name. -/
def IsNamed (name : Text) (option : List Lexeme) : Prop :=
  ∃ token argument, option.filter significant = token :: argument ∧ isWord name token = true

/-- However the text is read as an EXPLAIN, its only option is the format, and
behind the options stands the text that was given. -/
def OnlyFormat (params : GetExecutionPlanParams) : Prop :=
  ∀ options rest, Explains (explainSql params) options rest →
    (∃ option, options = [option] ∧ IsNamed "format".toList option) ∧ rest = ' ' :: params.sql

/-- A parenthesis ends the options that FORMAT begins, when the format and the
statement stand behind it. -/
def EndsOptions (format sql : Text) : Prop :=
  ∃ inside behind options,
    lexemes (format ++ ')' :: ' ' :: sql) = inside ++ closing :: behind ∧
      OptionList (formatWord :: blank :: inside) options

/-! ### The word in front of the format -/

theorem explainWith_format (format sql : Text) :
    explainWith ("FORMAT ".toList ++ format) (' ' :: sql) =
      "EXPLAIN (FORMAT ".toList ++ format ++ ") ".toList ++ sql := by
  have start : "EXPLAIN (FORMAT ".toList = "EXPLAIN (".toList ++ "FORMAT ".toList := by decide
  have behind : ") ".toList = [')', ' '] := by decide
  unfold explainWith
  rw [start, behind, List.append_assoc, List.append_assoc, List.append_assoc]
  simp

theorem explainSql_plain {params : GetExecutionPlanParams}
    (plain : params.analyze.getD false = false) :
    explainSql params = explainWith ("FORMAT ".toList ++ params.planFormat) (' ' :: params.sql) := by
  have off : ¬params.analyze.getD false = true := by
    rw [plain]
    exact Bool.false_ne_true
  rw [explainWith_format]
  exact if_neg off

theorem lexemes_format (text : Text) :
    lexemes ("FORMAT ".toList ++ text) = formatWord :: blank :: lexemes text := by
  have word : lexemesAfter none ("FORMAT ".toList ++ text) =
      formatWord :: lexemesAfter none (' ' :: text) := lexemesAfter_cons none 'F' _
  have space : lexemesAfter none (' ' :: text) = blank :: lexemes text :=
    lexemesAfter_cons none ' ' _
  rw [space] at word
  exact word

theorem contained_format {format : Text} :
    Contained ("FORMAT ".toList ++ format) ↔ Contained format := by
  have closed : Closed ("FORMAT ".toList ++ format) ↔ Closed format := by
    rw [Closed, Closed, List.append_assoc, lexemes_format, lexemes_format, List.cons_append,
      List.cons_append, List.cons_inj_right, List.cons_inj_right]
  have other {lexeme : Lexeme} (word : lexeme ≠ formatWord) (space : lexeme ≠ blank) :
      lexeme ∉ lexemes ("FORMAT ".toList ++ format) ↔ lexeme ∉ lexemes format := by
    rw [lexemes_format, List.mem_cons, List.mem_cons]
    simp only [word, space, false_or]
  rw [Contained, Contained, closed, other (by decide) (by decide), other (by decide) (by decide)]

theorem endsOptions_iff {params : GetExecutionPlanParams}
    (plain : params.analyze.getD false = false) :
    EndsOptions params.planFormat params.sql ↔
      ∃ options rest, Explains (explainSql params) options rest := by
  simp only [explainSql_plain plain, explains_explainWith_iff, List.append_assoc, lexemes_format]
  constructor
  · intro ends
    obtain ⟨inside, behind, options, whole, list⟩ := ends
    refine ⟨options, _, formatWord :: blank :: inside, behind, ?_, list, rfl⟩
    rw [whole]
    rfl
  · intro reads
    obtain ⟨options, rest, inside, behind, whole, list, -⟩ := reads
    cases inside with
    | nil => cases whole
    | cons first inside =>
        cases inside with
        | nil => cases whole
        | cons second inside =>
            obtain ⟨rfl, later⟩ := List.cons.inj whole
            obtain ⟨rfl, last⟩ := List.cons.inj later
            exact ⟨inside, behind, options, last, list⟩

/-! ### The option -/

/-- The format that is contained in the parentheses is the only option. -/
theorem onlyFormat_contained {params : GetExecutionPlanParams}
    (plain : params.analyze.getD false = false) (contained : Contained params.planFormat) :
    OnlyFormat params := by
  intro options rest explains
  rw [explainSql_plain plain] at explains
  obtain ⟨rfl, rfl⟩ := explains_contained (contained_format.mpr contained) explains
  refine ⟨⟨_, rfl, ?_⟩, rfl⟩
  rw [lexemes_format]
  exact ⟨formatWord, _, rfl, by decide⟩

/-- A word is contained in the parentheses. -/
theorem contained_word {first : Char} {rest : Text} (starts : isIdentStart first = true)
    (inside : ∀ char ∈ rest, isIdentChar char = true) : Contained (first :: rest) := by
  have all : ∀ char ∈ first :: rest, isIdentChar char = true := by
    intro char member
    rcases List.mem_cons.mp member with rfl | later
    · rw [isIdentChar, isIdentStart_isTagChar char starts, Bool.true_or]
    · exact inside char later
  have read {tail : Text} (ends : tail = [] ∨ tail = [')']) :
      lexemes (first :: rest ++ tail) = ⟨.identifier, first :: rest⟩ :: lexemes tail := by
    have noString : ¬((first = 'e' ∨ first = 'E') ∧ (rest ++ tail).head? = some '\'') := by
      intro both
      cases rest with
      | nil => rcases ends with rfl | rfl <;> cases both.2
      | cons second rest =>
          have quote := inside second List.mem_cons_self
          obtain rfl := Option.some.inj both.2
          cases quote
    have stops : tail.takeWhile isIdentChar = [] ∧ tail.dropWhile isIdentChar = tail := by
      rcases ends with rfl | rfl <;> decide
    have element : next none first (rest ++ tail) = (⟨.identifier, first :: rest⟩, tail) := by
      rw [next_identifier none starts noString, span, ← List.cons_append,
        List.takeWhile_append_of_pos all, List.dropWhile_append_of_pos all, stops.1, stops.2,
        List.append_nil]
      rfl
    have cons := lexemesAfter_cons none first (rest ++ tail)
    rw [element] at cons
    exact cons
  have alone : lexemes (first :: rest) = [⟨.identifier, first :: rest⟩] := by
    have whole := read (.inl rfl)
    rw [List.append_nil] at whole
    exact whole
  refine ⟨?_, ?_, ?_⟩
  · rw [Closed, read (.inr rfl), alone]
    rfl
  · rw [alone, List.mem_singleton]
    exact fun same => by cases same
  · rw [alone, List.mem_singleton]
    exact fun same => by cases same

/-- Without ANALYZE, the text has the format as its only option exactly when the
format is contained in the parentheses, or no options are read there at all. -/
theorem onlyFormat_iff {params : GetExecutionPlanParams}
    (plain : params.analyze.getD false = false) :
    OnlyFormat params ↔
      Contained params.planFormat ∨ ¬EndsOptions params.planFormat params.sql := by
  have single := explains_single_iff ("FORMAT ".toList ++ params.planFormat) (' ' :: params.sql)
  rw [← explainSql_plain plain, contained_format, ← endsOptions_iff plain] at single
  constructor
  · intro only
    apply single.mp
    intro options rest explains
    obtain ⟨⟨option, same, -⟩, left⟩ := only options rest explains
    exact ⟨⟨option, same⟩, left⟩
  · intro condition
    rcases condition with contained | none
    · exact onlyFormat_contained plain contained
    · intro options rest explains
      exact absurd ((endsOptions_iff plain).mpr ⟨options, rest, explains⟩) none

theorem onlyFormat_iff_text :
    OnlyFormat ⟨"SELECT 1".toList, none, none, none⟩ ↔
      Contained "TEXT".toList ∨ ¬EndsOptions "TEXT".toList "SELECT 1".toList :=
  onlyFormat_iff rfl

/-- A comma in the format brings in another option, which carries the statement
out. -/
theorem not_onlyFormat :
    ¬OnlyFormat ⟨"DELETE FROM t".toList, none, some "text, analyze".toList, none⟩ := by
  intro only
  have reads : Explains
      (explainSql ⟨"DELETE FROM t".toList, none, some "text, analyze".toList, none⟩)
      [lexemes "FORMAT TEXT".toList, lexemes " ANALYZE".toList] " DELETE FROM t".toList := by
    have format : IsOption ((lexemes "FORMAT TEXT".toList).filter significant) :=
      .option (by decide) (.name (by decide))
    have analyze : IsOption ((lexemes " ANALYZE".toList).filter significant) :=
      .option (by decide) .none
    have text : explainSql ⟨"DELETE FROM t".toList, none, some "text, analyze".toList, none⟩ =
        explainWith "FORMAT TEXT, ANALYZE".toList " DELETE FROM t".toList := by
      decide +kernel
    rw [text]
    exact explains_explainWith_iff.mpr ⟨_, lexemes " DELETE FROM t".toList, by decide +kernel,
      .more format (.one analyze), by decide +kernel⟩
  obtain ⟨⟨option, same, -⟩, -⟩ := only _ _ reads
  cases same

end OpenGauss.Mcp
