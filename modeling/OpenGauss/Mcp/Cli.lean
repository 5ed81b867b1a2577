import OpenGauss.Driver.UrlSlices
import OpenGauss.Lib.UpperCase
import OpenGauss.Lib.Utf8

/-! The statements of the command line (`gaussdb-mcp`, `cli.rs`): what is sent
for a text given with `--sql`, and for one typed in the interactive mode. What
is printed of the answer is left out. -/

set_option autoImplicit false

namespace OpenGauss.Mcp.Cli

open Driver Driver.UrlSlices Lib Lib.Text Lib.UpperCase

/-- The `while` loop over the bytes of a block comment, from the offset `i` on:
the depth and the offset that it ends with. -/
def blockLoop : Nat → Nat → List UInt8 → Nat × Nat
  | depth, i, byte :: next :: later =>
      if depth > 0 then
        if [byte, next] = Utf8.encode "/*".toList then blockLoop (depth + 1) (i + 2) later
        else if [byte, next] = Utf8.encode "*/".toList then blockLoop (depth - 1) (i + 2) later
        else blockLoop depth (i + 1) (next :: later)
      else (depth, i)
  | depth, i, _ => (depth, i)

/-- `none` is a slice that is not at a character, or a recursion without an end. -/
def stripLeadingCommentsFrom : Nat → Text → Option Text
  | 0, _ => none
  | fuel + 1, sql =>
      let trimmed := trimStart sql
      let bytes := Utf8.encode trimmed
      if bytes.take 2 = Utf8.encode "--".toList then
        match find (· == '\n') trimmed with
        | some pos => (sliceFrom? trimmed (pos + 1)).bind (stripLeadingCommentsFrom fuel)
        | none => some []
      else if bytes.take 2 = Utf8.encode "/*".toList then
        let (depth, i) := blockLoop 1 2 (bytes.drop 2)
        if depth = 0 then (sliceFrom? trimmed i).bind (stripLeadingCommentsFrom fuel) else some []
      else some trimmed

def stripLeadingComments (sql : Text) : Option Text :=
  stripLeadingCommentsFrom (sql.length + 1) sql

/-- The words that both modes look for, in upper case. -/
def startsQuery (sql : Text) : Bool :=
  let upper := toUppercase sql
  "SELECT".toList.isPrefixOf upper || "EXPLAIN".toList.isPrefixOf upper ||
    "WITH".toList.isPrefixOf upper

inductive OutputFormat where
  | table
  | json
  | vertical
  | csv
  deriving DecidableEq, Repr

/-- The method of the client that is called, and its text. -/
inductive Call where
  | copyOut (text : Text)
  | queryRaw (text : Text)
  | query (text : Text)
  | execute (text : Text)
  deriving DecidableEq, Repr

/-- The rows of an answer are shown, not the number of rows that are affected. -/
def Call.showsRows : Call → Bool
  | .execute _ => false
  | _ => true

/-- `trim_end_matches` with a semicolon or a blank. -/
def copyInner (trimmed : Text) : Text :=
  (trimmed.reverse.dropWhile fun c => c == ';' || isWhitespace c).reverse

def copySql (trimmed : Text) : Text :=
  "COPY (".toList ++ copyInner trimmed ++ ") TO STDOUT WITH (FORMAT CSV, HEADER true)".toList

/-- The call of `run_cli`. -/
def runCli (format : OutputFormat) (sql : Text) : Call :=
  let trimmed := trim sql
  if startsQuery trimmed then
    match format with
    | .csv => .copyOut (copySql trimmed)
    | .vertical => .queryRaw trimmed
    | .table | .json => .query trimmed
  else .execute trimmed

/-- The call of `execute_sql_buffered`. -/
def executeSqlBuffered (sql : Text) : Option Call :=
  let trimmed := trim sql
  (stripLeadingComments trimmed).map fun stripped =>
    if startsQuery stripped then .query trimmed else .execute trimmed

end OpenGauss.Mcp.Cli
