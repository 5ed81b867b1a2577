import OpenGauss.Lib.SqlLexical

/-! What a server takes a text for that is to be one statement. Its grammar is a
parameter: which tokens are a query, a command, or the options of an EXPLAIN. -/

set_option autoImplicit false

namespace OpenGauss.Lib.SqlStatements

open SqlLexical

def significant (lexeme : Lexeme) : Bool :=
  lexeme.kind ≠ .blank && lexeme.kind ≠ .lineComment && lexeme.kind ≠ .blockComment

/-- What the grammar sees of a text. -/
def tokens (text : List Char) : List Lexeme := (lexemes text).filter significant

/-- Words are told apart in lower case, which only ASCII letters have. -/
def isWord (word : List Char) (token : Lexeme) : Bool :=
  token.kind = .identifier && token.text.map Char.toLower = word

def isSymbol (char : Char) (token : Lexeme) : Bool :=
  token.kind = .symbol && token.text = [char]

/-- The words that begin a query. -/
def queryWords : List (List Char) :=
  ["select".toList, "table".toList, "values".toList, "with".toList]

/-- The words that begin a command: a statement that is neither a query nor an
EXPLAIN. -/
def commandWords : List (List Char) :=
  ["abort".toList, "alter".toList, "analyse".toList, "analyze".toList, "anonymize".toList,
    "begin".toList, "call".toList, "checkpoint".toList, "clean".toList, "close".toList,
    "cluster".toList, "comment".toList, "commit".toList, "compile".toList, "copy".toList,
    "create".toList, "cursor".toList, "deallocate".toList, "declare".toList, "delete".toList,
    "delimiter".toList, "desc".toList, "describe".toList, "discard".toList, "do".toList,
    "drop".toList, "end".toList, "exec".toList, "execute".toList, "expdp".toList,
    "fetch".toList, "flush".toList, "grant".toList, "handler".toList, "impdp".toList,
    "import".toList, "insert".toList, "kill".toList, "listen".toList, "load".toList,
    "lock".toList, "merge".toList, "move".toList, "notify".toList, "optimize".toList,
    "predict".toList, "prepare".toList, "purge".toList, "reassign".toList, "refresh".toList,
    "reindex".toList, "release".toList, "rename".toList, "repair".toList, "replace".toList,
    "reset".toList, "resignal".toList, "revoke".toList, "rollback".toList, "savepoint".toList,
    "security".toList, "set".toList, "show".toList, "shrink".toList, "shutdown".toList,
    "signal".toList, "snapshot".toList, "start".toList, "sync".toList, "timecapsule".toList,
    "truncate".toList, "unlisten".toList, "unlock".toList, "update".toList, "use".toList,
    "vacuum".toList, "verify".toList, "with".toList]

/-- An INTO clause: the word outside of all brackets, where it is no name. -/
def intoFrom (depth : Nat) (named : Bool) : List Lexeme → Bool
  | [] => false
  | token :: rest =>
      (depth = 0 && !named && isWord "into".toList token) ||
        intoFrom (if isSymbol '(' token then depth + 1 else if isSymbol ')' token then depth - 1
          else depth) (isWord "as".toList token || isSymbol '.' token) rest

def hasInto (tokens : List Lexeme) : Bool := intoFrom 0 false tokens

/-- The tokens of the only statement of a text, which has empty ones around it. -/
def IsBody (text : List Char) (body : List Lexeme) : Prop :=
  ∃ before after, tokens text = before ++ (body ++ after) ∧
    ∀ token ∈ before ++ after, token.kind = .semicolon

/-- What a statement is, and whether it changes what is stored when it is
carried out: by its kind, not by a function that it calls. -/
inductive Statement where
  | query (writes : Bool)
  | command (writes : Bool)
  /-- `executes`: the statement that is explained is carried out -/
  | explain (executes writes : Bool)
  deriving DecidableEq, Repr

/-- A query that changes nothing, or an EXPLAIN that carries out no statement
that does. -/
def Statement.ReadOnly : Statement → Prop
  | .query writes => writes = false
  | .command _ => False
  | .explain executes writes => ¬(executes = true ∧ writes = true)

structure Grammar where
  query : List Lexeme → Bool → Prop
  command : List Lexeme → Bool → Prop
  /-- What stands between EXPLAIN and the statement, and whether that is then
  carried out: ANALYZE, PERFORMANCE, VERBOSE, a list in parentheses, or nothing. -/
  options : List Lexeme → Bool → Prop
  query_begins : ∀ {tokens writes}, query tokens writes → ∃ first rest, tokens = first :: rest ∧
    (isSymbol '(' first = true ∨ ∃ word ∈ queryWords, isWord word first = true)
  command_begins : ∀ {tokens writes}, command tokens writes → ∃ first rest, tokens = first :: rest ∧
    (first.kind = .symbol ∨ ∃ word ∈ commandWords, isWord word first = true)
  /-- A WITH that writes stands before a SELECT, not in it. -/
  select_writes : ∀ {first rest writes}, query (first :: rest) writes →
    isWord "select".toList first = true → writes = hasInto (first :: rest)

namespace Grammar

variable (grammar : Grammar)

/-- The statements that can be explained. -/
def Explained (tokens : List Lexeme) (writes : Bool) : Prop :=
  grammar.query tokens writes ∨ grammar.command tokens writes

inductive Derives : List Lexeme → Statement → Prop where
  | query {tokens : List Lexeme} {writes : Bool} (query : grammar.query tokens writes) :
      Derives tokens (.query writes)
  | command {tokens : List Lexeme} {writes : Bool} (command : grammar.command tokens writes) :
      Derives tokens (.command writes)
  | explain {word : Lexeme} {options body : List Lexeme} {executes writes : Bool}
      (explain : isWord "explain".toList word = true)
      (allowed : grammar.options options executes) (explained : grammar.Explained body writes) :
      Derives (word :: (options ++ body)) (.explain executes writes)

/-- A text is accepted as one statement. -/
def Accepts (text : List Char) (statement : Statement) : Prop :=
  ∃ body, IsBody text body ∧ grammar.Derives body statement

/-- A text is a query with an INTO clause. -/
def SelectsInto (text : List Char) : Prop :=
  ∃ body writes, IsBody text body ∧ grammar.query body writes ∧ hasInto body = true

/-- A text is an EXPLAIN with options that carry out a statement, and a
statement that changes something. -/
def ExplainsWrite (text : List Char) : Prop :=
  ∃ word options body, IsBody text (word :: (options ++ body)) ∧
    isWord "explain".toList word = true ∧ grammar.options options true ∧
    grammar.Explained body true

end Grammar

/-! ### The first token -/

theorem isWord_iff {word : List Char} {token : Lexeme} :
    isWord word token = true ↔ token.kind = .identifier ∧ token.text.map Char.toLower = word := by
  simp [isWord]

/-- The statement of a text begins with its first token, if that is no semicolon. -/
theorem IsBody.head {text : List Char} {first token : Lexeme} {rest later : List Lexeme}
    (isBody : IsBody text (token :: rest)) (read : tokens text = first :: later)
    (other : first.kind ≠ .semicolon) : token = first := by
  obtain ⟨before, after, same, empty⟩ := isBody
  rw [read] at same
  cases before with
  | nil => exact (List.cons.inj same).1.symm
  | cons semicolon before =>
      obtain ⟨rfl, -⟩ := List.cons.inj same
      exact absurd (empty first List.mem_cons_self) other

/-- A word that is not quoted and is no string's mark is read to its end. -/
theorem next_identifier {char : Char} {rest : List Char} (gap : Option Bool)
    (starts : isIdentStart char = true)
    (noString : ¬((char = 'e' ∨ char = 'E') ∧ rest.head? = some '\'')) :
    next gap char rest = lexeme .identifier (span isIdentChar (char :: rest)) := by
  have other {mark : Char} (never : isIdentStart mark = false) : char ≠ mark := by
    intro same
    rw [same, never] at starts
    cases starts
  have noSpace : isSpace char = false := by
    simp only [isSpace, isNewline, Bool.or_eq_false_iff, beq_eq_false_iff_ne]
    exact ⟨⟨⟨⟨other (by decide), other (by decide)⟩, other (by decide)⟩, other (by decide)⟩,
      other (by decide), other (by decide)⟩
  have noDigit : ¬(char.isDigit ∨ char = '.' ∧ rest.head?.any Char.isDigit) := by
    rintro (digit | ⟨dot, -⟩)
    · have low := UInt32.le_iff_toNat_le.mp (of_decide_eq_true (Bool.and_eq_true_iff.mp digit).2)
      have none : ∀ code ≤ 57, isIdentStart (Char.ofNat code) = false := by decide
      have start := none char.toNat low
      rw [Char.ofNat_toNat, starts] at start
      cases start
    · exact other (by decide) dot
  rw [next, if_neg (other (by decide)), if_neg (by rw [noSpace]; decide),
    if_neg fun dashes => other (by decide) dashes.1, if_neg fun slash => other (by decide) slash.1,
    if_neg (other (by decide)), if_neg (other (by decide)), if_neg (other (by decide)),
    if_neg noDigit, if_pos starts, if_neg noString]

/-- The first token of a text that starts with a word. -/
theorem tokens_identifier {char : Char} {rest : List Char} (starts : isIdentStart char = true)
    (noString : ¬((char = 'e' ∨ char = 'E') ∧ rest.head? = some '\'')) :
    ∃ later, tokens (char :: rest) =
      ⟨.identifier, (char :: rest).takeWhile isIdentChar⟩ :: later := by
  have read := next_identifier none starts noString
  refine ⟨(lexemesFrom rest.length none ((char :: rest).dropWhile isIdentChar)).filter significant, ?_⟩
  rw [tokens, lexemes, List.length_cons, lexemesFrom, read]
  rfl

end OpenGauss.Lib.SqlStatements
