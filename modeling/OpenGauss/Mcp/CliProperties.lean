import OpenGauss.Lib.SqlExplain
import OpenGauss.Mcp.CliComments

/-! Which statements the two modes of the command line show rows for, and what
the server reads of a query that is exported with COPY. -/

set_option autoImplicit false

namespace OpenGauss.Mcp.Cli

open Driver Lib.Text Lib.UpperCase Lib.SqlComments Lib.SqlLexical Lib.SqlStatements

/-! ### Rows or a number -/

/-- The text is sent in the interactive mode, and shows rows there exactly when
it shows rows with `--sql`, whatever the format. -/
def ClassifiedAlike (sql : Text) : Prop :=
  ∃ call, executeSqlBuffered sql = some call ∧
    ∀ format, (runCli format sql).showsRows = call.showsRows

theorem showsRows_runCli (format : OutputFormat) (sql : Text) :
    (runCli format sql).showsRows = startsQuery (trim sql) := by
  unfold runCli
  by_cases query : startsQuery (trim sql) = true
  · rw [if_pos query, query]
    cases format <;> rfl
  · rw [if_neg query, Bool.eq_false_iff.mpr query]
    rfl

theorem showsRows_executeSqlBuffered {sql stripped : Text} {call : Call}
    (strips : stripLeadingComments (trim sql) = some stripped)
    (sent : executeSqlBuffered sql = some call) : call.showsRows = startsQuery stripped := by
  rw [executeSqlBuffered, strips] at sent
  obtain rfl := Option.some.inj sent
  dsimp only
  by_cases query : startsQuery stripped = true
  · rw [if_pos query, query]
    rfl
  · rw [if_neg query, Bool.eq_false_iff.mpr query]
    rfl

/-- A text that begins with a comment begins with no word. -/
theorem begins_startsQuery {text : Text} (comment : begins text = true) : startsQuery text = false := by
  obtain ⟨char, next, rest, rfl, mark⟩ := begins_cons comment
  have upper : toUppercase (char :: next :: rest) = char :: toUppercase (next :: rest) := by
    rw [toUppercase, List.flatMap_cons]
    rcases mark with rfl | rfl <;> rfl
  rw [startsQuery, upper]
  rcases mark with rfl | rfl <;> rfl

theorem trim_visible (text : Text) : (trim text).head?.any isWhitespace = false := by
  have visible := Comments.trimStart_visible text
  obtain ⟨blanks, whole, -⟩ := trimEnd_split (trimStart text)
  rw [trim]
  cases front : trimEnd (trimStart text) with
  | nil => rfl
  | cons char rest =>
      rw [whole, front] at visible
      exact visible

/-- The two modes agree exactly when no query stands behind leading comments. -/
theorem classifiedAlike_iff (sql : Text) :
    ClassifiedAlike sql ↔
      ¬(begins (trim sql) = true ∧
        ∃ result, nested.Remains (trim sql) result ∧ startsQuery result = true) := by
  obtain ⟨stripped, strips, remains⟩ := stripLeadingComments_remains (trim sql)
  have sent : ∃ call, executeSqlBuffered sql = some call := by
    rw [executeSqlBuffered, strips]
    exact ⟨_, rfl⟩
  have same : ClassifiedAlike sql ↔ startsQuery (trim sql) = startsQuery stripped := by
    constructor
    · intro alike
      obtain ⟨call, sent, shows⟩ := alike
      rw [← showsRows_runCli .table, shows, showsRows_executeSqlBuffered strips sent]
    · intro equal
      obtain ⟨call, sent⟩ := sent
      refine ⟨call, sent, fun format => ?_⟩
      rw [showsRows_runCli, equal, showsRows_executeSqlBuffered strips sent]
  rw [same]
  cases comment : begins (trim sql) with
  | false =>
      obtain rfl := remains.unique (Comments.remains_text (trim_visible sql) comment)
      simp
  | true =>
      rw [begins_startsQuery comment]
      constructor
      · intro equal hidden
        obtain ⟨-, result, also, query⟩ := hidden
        obtain rfl := remains.unique also
        rw [← equal] at query
        cases query
      · intro none
        cases query : startsQuery stripped with
        | false => rfl
        | true => exact absurd ⟨rfl, stripped, remains, query⟩ none

/-- A query behind a comment shows its rows in the interactive mode only. -/
theorem not_classifiedAlike : ¬ClassifiedAlike "-- all users\nSELECT * FROM users".toList := by
  intro alike
  obtain ⟨call, sent, shows⟩ := alike
  have shown : executeSqlBuffered "-- all users\nSELECT * FROM users".toList =
      some (.query "-- all users\nSELECT * FROM users".toList) := by decide +kernel
  obtain rfl := Option.some.inj (shown.symm.trans sent)
  have counted : (runCli .table "-- all users\nSELECT * FROM users".toList).showsRows = false := by
    decide +kernel
  cases counted.symm.trans (shows .table)

/-! ### COPY -/

/-- The text is one query, complete but for the end of a last line comment,
with blanks, comments and semicolons around it. -/
structure IsQuery (sql : Text) (query : List Lexeme) : Prop where
  complete : Closed (sql ++ ['\n'])
  read : ∃ after, tokens sql = query ++ after ∧ ∀ token ∈ after, token.kind = .semicolon
  single : ∀ token ∈ query, token.kind ≠ .semicolon

def copyOptions : Text := " TO STDOUT WITH (FORMAT CSV, HEADER true)".toList

/-- The text is read as a COPY with the tokens of the query in parentheses. -/
def Copies (text : Text) (query : List Lexeme) : Prop :=
  ∃ inner, lexemes text =
      lexemes "COPY (".toList ++ (inner ++ closing :: lexemes copyOptions) ∧
    inner.filter significant = query

/-- What is sent for the format CSV is a COPY of the query. -/
def ExportsQuery (sql : Text) (query : List Lexeme) : Prop :=
  ∃ text, runCli .csv sql = .copyOut text ∧ Copies text query

/-- What is left of a text has no semicolon and nothing open at its end, and
what is cut off has no token but semicolons. -/
structure CutsWell (sql inner : Text) : Prop where
  closed : Closed inner
  single : ∀ token ∈ tokens inner, token.kind ≠ .semicolon
  behind : ∃ after, tokens sql = tokens inner ++ after ∧ ∀ token ∈ after, token.kind = .semicolon

theorem lexemes_copy (text : Text) :
    lexemes ("COPY (".toList ++ text) = lexemes "COPY (".toList ++ lexemes text := by
  have read (text : Text) : lexemes ("COPY (".toList ++ text) =
      ⟨.identifier, "COPY".toList⟩ :: ⟨.blank, [' ']⟩ :: opening :: lexemes text := by
    have word : lexemesAfter none ("COPY (".toList ++ text) =
        ⟨.identifier, "COPY".toList⟩ :: lexemesAfter none (' ' :: '(' :: text) :=
      lexemesAfter_cons none 'C' _
    have blank : lexemesAfter none (' ' :: '(' :: text) =
        ⟨.blank, [' ']⟩ :: lexemesAfter none ('(' :: text) := lexemesAfter_cons none ' ' _
    have bracket : lexemesAfter none ('(' :: text) = opening :: lexemes text :=
      lexemesAfter_cons none '(' _
    rw [blank, bracket] at word
    exact word
  have alone := read []
  rw [List.append_nil] at alone
  rw [read, alone]
  rfl

theorem copySql_parts (trimmed : Text) :
    copySql trimmed = "COPY (".toList ++ (copyInner trimmed ++ ')' :: copyOptions) := by
  have options : ") TO STDOUT WITH (FORMAT CSV, HEADER true)".toList = ')' :: copyOptions := by
    decide
  change "COPY (".toList ++ copyInner trimmed ++
    ") TO STDOUT WITH (FORMAT CSV, HEADER true)".toList = _
  rw [options, List.append_assoc]

/-- The text between the parentheses is read as it is when it is closed. -/
theorem copies_copySql_iff (trimmed : Text) (query : List Lexeme) :
    Copies (copySql trimmed) query ↔
      Closed (copyInner trimmed) ∧ tokens (copyInner trimmed) = query := by
  rw [Copies, copySql_parts, lexemes_copy]
  constructor
  · intro copies
    obtain ⟨inner, whole, same⟩ := copies
    have read := List.append_cancel_left whole
    have text : inner.flatMap Lexeme.text = copyInner trimmed := by
      have flat := lexemes_flatMap (copyInner trimmed ++ ')' :: copyOptions)
      rw [read, List.flatMap_append, List.flatMap_cons, lexemes_flatMap] at flat
      exact List.append_cancel_right flat
    have begins : inner <+: lexemes (copyInner trimmed ++ ')' :: copyOptions) := ⟨_, read.symm⟩
    have closed : Closed (copyInner trimmed) := Ends.closed ⟨inner, begins, text⟩
    have alone : inner = lexemes (copyInner trimmed) :=
      prefix_unique begins ⟨_, (closed.lexemes copyOptions).symm⟩
        (text.trans (lexemes_flatMap _).symm)
    subst alone
    exact ⟨closed, same⟩
  · intro parts
    obtain ⟨closed, same⟩ := parts
    exact ⟨lexemes (copyInner trimmed), by rw [closed.lexemes], same⟩

/-- The tokens in front of the semicolons at the end are determined. -/
theorem tokens_unique {first second after behind : List Lexeme} (same : first ++ after = second ++ behind)
    (single : ∀ token ∈ first, token.kind ≠ .semicolon) (also : ∀ token ∈ second, token.kind ≠ .semicolon)
    (ends : ∀ token ∈ after, token.kind = .semicolon)
    (stops : ∀ token ∈ behind, token.kind = .semicolon) : first = second := by
  have front {tokens rest : List Lexeme} (single : ∀ token ∈ tokens, token.kind ≠ .semicolon)
      (ends : ∀ token ∈ rest, token.kind = .semicolon) :
      (tokens ++ rest).takeWhile (·.kind ≠ .semicolon) = tokens := by
    rw [List.takeWhile_append_of_pos fun token member => decide_eq_true (single token member)]
    cases rest with
    | nil => exact List.append_nil _
    | cons token rest =>
        rw [List.takeWhile_cons]
        simp [ends token List.mem_cons_self]
  rw [← front single ends, same, front also stops]

/-- A query is exported as it is exactly when what is cut off of it is no part of
it, has its last semicolon, and leaves no line comment at the end. -/
theorem exportsQuery_iff {sql : Text} {query : List Lexeme} (isQuery : IsQuery sql query)
    (accepted : startsQuery (trim sql) = true) :
    ExportsQuery sql query ↔ CutsWell sql (copyInner (trim sql)) := by
  have sent : runCli .csv sql = .copyOut (copySql (trim sql)) := by
    unfold runCli
    rw [if_pos accepted]
  have copies : ExportsQuery sql query ↔ Copies (copySql (trim sql)) query := by
    constructor
    · intro exports
      obtain ⟨text, same, copies⟩ := exports
      obtain rfl := Call.copyOut.inj (sent.symm.trans same)
      exact copies
    · exact fun copies => ⟨_, sent, copies⟩
  obtain ⟨-, ⟨after, read, ends⟩, single⟩ := isQuery
  rw [copies, copies_copySql_iff]
  constructor
  · intro parts
    obtain ⟨closed, rfl⟩ := parts
    exact ⟨closed, single, after, read, ends⟩
  · intro cuts
    obtain ⟨closed, alone, behind, also, stops⟩ := cuts
    exact ⟨closed, tokens_unique (also.symm.trans read) alone single stops ends⟩

theorem exportsQuery_semicolon :
    ExportsQuery "SELECT 1 /* one */;\n".toList (tokens "SELECT 1".toList) ↔
      CutsWell "SELECT 1 /* one */;\n".toList
        (copyInner (trim "SELECT 1 /* one */;\n".toList)) := by
  have isQuery : IsQuery "SELECT 1 /* one */;\n".toList (tokens "SELECT 1".toList) := by
    refine ⟨by decide +kernel, ⟨[⟨.semicolon, [';']⟩], by decide +kernel, by decide⟩, ?_⟩
    decide +kernel
  exact exportsQuery_iff isQuery (by decide +kernel)

/-- A line comment at the end takes the parenthesis in. -/
theorem not_exportsQuery :
    IsQuery "SELECT 1 -- one".toList (tokens "SELECT 1".toList) ∧
      startsQuery (trim "SELECT 1 -- one".toList) = true ∧
      ¬ExportsQuery "SELECT 1 -- one".toList (tokens "SELECT 1".toList) := by
  refine ⟨⟨by decide +kernel, ⟨[], by decide +kernel, by decide⟩, by decide +kernel⟩,
    by decide +kernel, ?_⟩
  intro exports
  obtain ⟨text, sent, inner, whole, -⟩ := exports
  have copy : runCli .csv "SELECT 1 -- one".toList = .copyOut
      "COPY (SELECT 1 -- one) TO STDOUT WITH (FORMAT CSV, HEADER true)".toList := by decide +kernel
  obtain rfl := Call.copyOut.inj (copy.symm.trans sent)
  have absent : closing ∉
      lexemes "COPY (SELECT 1 -- one) TO STDOUT WITH (FORMAT CSV, HEADER true)".toList := by
    decide +kernel
  apply absent
  rw [whole]
  simp

end OpenGauss.Mcp.Cli
