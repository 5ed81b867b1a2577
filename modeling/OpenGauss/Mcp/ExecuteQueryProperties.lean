import OpenGauss.Lib.SqlStatements
import OpenGauss.Mcp.ExecuteQuery

/-! What the server takes the text of `execute_query` for. -/

set_option autoImplicit false

namespace OpenGauss.Mcp

open Driver Lib.Text Lib.UpperCase Lib.SqlLexical Lib.SqlStatements

/-! ### The check -/

/-- The words of the check. -/
def allowedWords : List Text := ["select".toList, "explain".toList]

theorem allowed_iff {sql : Text} :
    allowed sql = true ↔ ∃ word ∈ allowedWords, word.map Char.toUpper <+: toUppercase sql := by
  have select : ("select".toList).map Char.toUpper = "SELECT".toList := by decide
  have explain : ("explain".toList).map Char.toUpper = "EXPLAIN".toList := by decide
  simp only [allowed, allowedWords, List.mem_cons, List.not_mem_nil, or_false, exists_eq_or_imp,
    exists_eq_left, select, explain, Bool.or_eq_true, List.isPrefixOf_iff_prefix]

/-- The words that a statement can begin with. -/
def firstWords : List Text := "explain".toList :: (queryWords ++ commandWords)

theorem firstWords_ascii : ∀ word ∈ firstWords, ∀ char ∈ word, char.toNat < 128 := by
  decide +kernel

/-- No word begins another one that the check allows, or is begun by it. -/
theorem firstWords_apart : ∀ word ∈ firstWords, word ∉ allowedWords → ∀ other ∈ allowedWords,
    ¬word.map Char.toUpper <+: other.map Char.toUpper ∧
      ¬other.map Char.toUpper <+: word.map Char.toUpper := by
  decide +kernel

theorem isIdentStart_toUpper {char : Char} (ascii : char.toNat < 128) :
    isIdentStart char.toUpper = isIdentStart char := by
  have all : ∀ code < 128,
      isIdentStart (Char.ofNat code).toUpper = isIdentStart (Char.ofNat code) := by decide
  rw [← Char.ofNat_toNat char]
  exact all char.toNat ascii

theorem allowedWords_heads : ∀ word ∈ allowedWords, ∃ first second rest,
    word.map Char.toUpper = first :: second :: rest ∧ isIdentStart first = true ∧
      second ≠ '\'' := by
  intro word member
  simp only [allowedWords, List.mem_cons, List.not_mem_nil, or_false] at member
  rcases member with rfl | rfl
  · exact ⟨'S', 'E', "LECT".toList, by decide, by decide, by decide⟩
  · exact ⟨'E', 'X', "PLAIN".toList, by decide, by decide, by decide⟩

/-- A text that passes the check starts with a word, which is its first token. -/
theorem tokens_allowed {sql : Text} (passes : allowed sql = true) :
    ∃ later, tokens sql = ⟨.identifier, sql.takeWhile isIdentChar⟩ :: later := by
  obtain ⟨word, member, start⟩ := allowed_iff.mp passes
  obtain ⟨first, second, others, same, upper, noQuote⟩ := allowedWords_heads word member
  obtain ⟨after, whole⟩ := start
  rw [same, List.cons_append, List.cons_append] at whole
  cases sql with
  | nil => exact absurd whole (List.cons_ne_nil _ _)
  | cons char rest =>
      rw [toUppercase, List.flatMap_cons] at whole
      by_cases ascii : char.toNat < 128
      · rw [upperChar_ascii ascii, List.singleton_append] at whole
        obtain ⟨head, tail⟩ := List.cons.inj whole
        have starts : isIdentStart char = true := by
          rw [← isIdentStart_toUpper ascii, ← head]
          exact upper
        apply tokens_identifier starts
        rintro ⟨-, quote⟩
        obtain ⟨behind, rfl⟩ := List.head?_eq_some_iff.mp quote
        rw [List.flatMap_cons, upperChar_ascii (by decide)] at tail
        exact noQuote (List.cons.inj tail).1
      · have starts : isIdentStart char = true := by
          rw [isIdentStart, decide_eq_true (Nat.le_of_not_lt ascii), Bool.or_true]
        apply tokens_identifier starts
        rintro ⟨rfl | rfl, -⟩
        · exact ascii (by decide)
        · exact ascii (by decide)

/-- A text that passes the check begins with a word that the check allows, if it
begins as a statement. -/
theorem first_allowed {sql word : Text} (passes : allowed sql = true) (member : word ∈ firstWords)
    (same : (sql.takeWhile isIdentChar).map Char.toLower = word) : word ∈ allowedWords := by
  by_contra other
  obtain ⟨good, goodMember, start⟩ := allowed_iff.mp passes
  have begins : word.map Char.toUpper <+: toUppercase sql := by
    rw [← toUppercase_word (firstWords_ascii word member) same]
    have whole := congrArg toUppercase (List.takeWhile_append_dropWhile (p := isIdentChar) (l := sql))
    rw [toUppercase_append] at whole
    exact ⟨_, whole⟩
  have apart := firstWords_apart word member other good goodMember
  rcases List.prefix_or_prefix_of_prefix begins start with inside | inside
  · exact apart.1 inside
  · exact apart.2 inside

theorem first_token {sql : Text} {token : Lexeme} {rest : List Lexeme}
    (passes : allowed sql = true) (isBody : IsBody sql (token :: rest)) :
    token = ⟨.identifier, sql.takeWhile isIdentChar⟩ := by
  obtain ⟨later, read⟩ := tokens_allowed passes
  exact isBody.head read (fun same => by cases same)

theorem isWord_allowed {sql word : Text} {token : Lexeme} {rest : List Lexeme}
    (passes : allowed sql = true) (isBody : IsBody sql (token :: rest)) (member : word ∈ firstWords)
    (same : isWord word token = true) : word ∈ allowedWords := by
  rw [first_token passes isBody] at same
  exact first_allowed passes member (isWord_iff.mp same).2

theorem commandWords_not_allowed : ∀ word ∈ commandWords, word ∉ allowedWords := by
  decide +kernel

theorem queryWords_allowed : ∀ word ∈ queryWords, word ∈ allowedWords → word = "select".toList := by
  decide +kernel

/-! ### Statements -/

section Statements

variable {grammar : Grammar} {sql : Text} {body : List Lexeme} {writes : Bool}

/-- No command passes the check. -/
theorem not_command_allowed (passes : allowed sql = true) (isBody : IsBody sql body) :
    ¬grammar.command body writes := by
  intro command
  obtain ⟨first, rest, rfl, begins⟩ := grammar.command_begins command
  rcases begins with symbol | ⟨word, member, same⟩
  · rw [first_token passes isBody] at symbol
    cases symbol
  · have begun := List.mem_cons_of_mem "explain".toList (List.mem_append_right queryWords member)
    exact commandWords_not_allowed word member (isWord_allowed passes isBody begun same)

/-- A query that passes the check begins with SELECT. -/
theorem query_allowed (passes : allowed sql = true) (isBody : IsBody sql body)
    (query : grammar.query body writes) : writes = hasInto body := by
  obtain ⟨first, rest, rfl, begins⟩ := grammar.query_begins query
  rcases begins with bracket | ⟨word, member, same⟩
  · rw [first_token passes isBody] at bracket
    simp [isSymbol] at bracket
  · have begun := List.mem_cons_of_mem "explain".toList (List.mem_append_left commandWords member)
    obtain rfl := queryWords_allowed word member (isWord_allowed passes isBody begun same)
    exact grammar.select_writes query same

/-- What a text that passes the check is, if it changes something. -/
theorem readOnly_iff (passes : allowed sql = true) :
    (∀ statement, grammar.Accepts sql statement → statement.ReadOnly) ↔
      ¬grammar.SelectsInto sql ∧ ¬grammar.ExplainsWrite sql := by
  constructor
  · intro readOnly
    constructor
    · rintro ⟨body, writes, isBody, query, into⟩
      have quiet : writes = false := readOnly _ ⟨body, isBody, .query query⟩
      rw [query_allowed passes isBody query, into] at quiet
      cases quiet
    · rintro ⟨word, options, body, isBody, explain, runs, explained⟩
      exact readOnly _ ⟨_, isBody, .explain explain runs explained⟩ ⟨rfl, rfl⟩
  · rintro ⟨noInto, noWrite⟩ statement ⟨body, isBody, derives⟩
    cases derives with
    | @query _ writes query =>
        have into := query_allowed passes isBody query
        cases writes with
        | false => rfl
        | true => exact absurd ⟨body, true, isBody, query, into.symm⟩ noInto
    | command command => exact absurd command (not_command_allowed passes isBody)
    | explain explain runs explained =>
        rintro ⟨rfl, rfl⟩
        exact noWrite ⟨_, _, _, isBody, explain, runs, explained⟩

end Statements

/-! ### Requests -/

theorem executeQuery_allowed {set : Bool} {sql : Text} {timeoutMs : Option UInt64}
    (passes : allowed (trim sql) = true) :
    executeQuery set sql timeoutMs = .ok (queryWithOptionalTimeout set (trim sql) timeoutMs) :=
  if_pos passes

theorem query_mem_executeQuery {set : Bool} {sql text : Text} {timeoutMs : Option UInt64}
    {requests : List Request} (sent : executeQuery set sql timeoutMs = .ok requests)
    (member : .query text ∈ requests) : allowed (trim sql) = true ∧ text = trim sql := by
  rw [executeQuery] at sent
  split at sent
  · rename_i passes
    obtain rfl := Except.ok.inj sent
    refine ⟨passes, ?_⟩
    cases timeoutMs with
    | none => simpa [queryWithOptionalTimeout] using member
    | some ms =>
        cases set with
        | false => simp [queryWithOptionalTimeout] at member
        | true => simpa [queryWithOptionalTimeout] using member
  · cases sent

/-- The statements that are sent change nothing exactly when the text has no
SELECT with an INTO clause and no EXPLAIN that carries out a write. -/
theorem executeQuery_readOnly_iff (grammar : Grammar) (sql : Text) :
    (∀ set timeoutMs requests text statement,
      executeQuery set sql timeoutMs = .ok requests → .query text ∈ requests →
        grammar.Accepts text statement → statement.ReadOnly) ↔
      (allowed (trim sql) = true →
        ¬grammar.SelectsInto (trim sql) ∧ ¬grammar.ExplainsWrite (trim sql)) := by
  constructor
  · intro readOnly passes
    apply (readOnly_iff passes).mp
    intro statement accepts
    exact readOnly true none _ _ statement (executeQuery_allowed passes) List.mem_cons_self accepts
  · intro condition set timeoutMs requests text statement sent member accepts
    obtain ⟨passes, rfl⟩ := query_mem_executeQuery sent member
    exact (readOnly_iff passes).mpr (condition passes) statement accepts

/-- A grammar with a few of the statements of the server. -/
def fewStatements : Grammar where
  query read writes :=
    (read, writes) ∈ [(tokens "SELECT 1".toList, false), (tokens "SELECT 1 INTO t".toList, true)]
  command read writes := (read, writes) = (tokens "DELETE FROM t".toList, true)
  options read executes := (read, executes) ∈ [([], false), (tokens "ANALYZE".toList, true)]
  query_begins := by
    intro read writes query
    simp only [List.mem_cons, List.not_mem_nil, or_false, Prod.mk.injEq] at query
    rcases query with ⟨rfl, -⟩ | ⟨rfl, -⟩
    · exact ⟨_, _, rfl, .inr ⟨"select".toList, by decide +kernel, by decide +kernel⟩⟩
    · exact ⟨_, _, rfl, .inr ⟨"select".toList, by decide +kernel, by decide +kernel⟩⟩
  command_begins := by
    intro read writes command
    obtain ⟨rfl, -⟩ := Prod.mk.inj command
    exact ⟨_, _, rfl, .inr ⟨"delete".toList, by decide +kernel, by decide +kernel⟩⟩
  select_writes := by
    intro first rest writes query _
    simp only [List.mem_cons, List.not_mem_nil, or_false, Prod.mk.injEq] at query
    rcases query with ⟨same, rfl⟩ | ⟨same, rfl⟩
    · rw [same]
      decide +kernel
    · rw [same]
      decide +kernel

/-- A DELETE passes the check behind EXPLAIN ANALYZE. -/
theorem not_executeQuery_readOnly :
    ∃ requests text statement,
      executeQuery true "EXPLAIN ANALYZE DELETE FROM t".toList none = .ok requests ∧
        .query text ∈ requests ∧ fewStatements.Accepts text statement ∧ ¬statement.ReadOnly := by
  have passes : allowed (trim "EXPLAIN ANALYZE DELETE FROM t".toList) = true := by decide +kernel
  have read : tokens (trim "EXPLAIN ANALYZE DELETE FROM t".toList) =
      [] ++ (⟨.identifier, "EXPLAIN".toList⟩ ::
        (tokens "ANALYZE".toList ++ tokens "DELETE FROM t".toList) ++ []) := by decide +kernel
  have derives : fewStatements.Derives (⟨.identifier, "EXPLAIN".toList⟩ ::
      (tokens "ANALYZE".toList ++ tokens "DELETE FROM t".toList)) (.explain true true) :=
    .explain (by decide +kernel) (List.mem_cons_of_mem _ List.mem_cons_self) (.inr rfl)
  exact ⟨_, _, _, executeQuery_allowed passes, List.mem_cons_self,
    ⟨_, ⟨[], [], read, fun _ member => absurd member List.not_mem_nil⟩, derives⟩,
    fun readOnly => readOnly ⟨rfl, rfl⟩⟩

end OpenGauss.Mcp
