import OpenGauss.Driver.Config

/-! The interactive mode (`gaussdb-mcp`, `interactive.rs`): where it takes a
statement to end. -/

set_option autoImplicit false

namespace OpenGauss.Mcp.SqlTokenizer

open Driver Lib.Text

/-- Which flag is set. At most one is, and the loop asks for them in this order. -/
inductive Mode where
  | lineComment
  | blockComment (depth : Nat)
  | singleQuote
  | doubleQuote
  | dollarQuote (tag : Text)
  | top
  deriving DecidableEq, Repr

structure SplitResult where
  complete : List Text
  remainder : Text
  deriving DecidableEq, Repr

/-- The variables of the loop. -/
structure State where
  complete : List Text := []
  current : Text := []
  mode : Mode := .top
  deriving DecidableEq, Repr

def State.push (state : State) (chars : Text) : State :=
  { state with current := state.current ++ chars }

def State.enter (state : State) (mode : Mode) : State := { state with mode }

/-- `in_block_comment_depth`, a `u32`. -/
def blockDepth (depth : Nat) : Mode :=
  if depth % 2 ^ 32 = 0 then .top else .blockComment (depth % 2 ^ 32)

/-- A turn inside single or double quotes. -/
def quoteTurn (quote : Char) (state : State) (c : Char) (rest : Text) : State × Text :=
  if c = quote ∧ rest.head? = some quote then (state.push [c, quote], rest.drop 1)
  else if c = quote then ((state.push [c]).enter .top, rest)
  else (state.push [c], rest)

def isTagStart (char : Char) : Bool := char.isAlpha || char == '_'

def isTagChar (char : Char) : Bool := char.isAlphanum || char == '_'

/-- The tag of the dollar quote that the loop sees after a dollar sign. -/
def openingTag (rest : Text) : Option Text :=
  if rest.head? = some '$' then some []
  else if rest.head?.any isTagStart ∧ (rest.dropWhile isTagChar).head? = some '$' then
    some (rest.takeWhile isTagChar)
  else none

/-- The trimmed text of a statement, unless it is empty. -/
def State.finishStatement (state : State) : State :=
  let trimmed := trim state.current
  { state with
    complete := if trimmed = [] then state.complete else state.complete ++ [trimmed]
    current := [] }

/-- The arms of the `match`. -/
def topTurn (state : State) (c : Char) (rest : Text) : State × Text :=
  if c = '\'' then ((state.push [c]).enter .singleQuote, rest)
  else if c = '"' then ((state.push [c]).enter .doubleQuote, rest)
  else if c = '$' then
    match openingTag rest with
    | some tag =>
        ((state.push (c :: tag ++ ['$'])).enter (.dollarQuote tag), rest.drop (tag.length + 1))
    | none => (state.push [c], rest)
  else if c = '-' ∧ rest.head? = some '-' then
    ((state.push [c, '-']).enter .lineComment, rest.drop 1)
  else if c = '/' ∧ rest.head? = some '*' then
    ((state.push [c, '*']).enter (.blockComment 1), rest.drop 1)
  else if c = ';' then (state.finishStatement, rest)
  else (state.push [c], rest)

/-- A turn of the loop, at the character `c`. -/
def turn (state : State) (c : Char) (rest : Text) : State × Text :=
  match state.mode with
  | .lineComment => ((state.push [c]).enter (if c = '\n' then .top else .lineComment), rest)
  | .blockComment depth =>
      if c = '/' ∧ rest.head? = some '*' then
        ((state.push [c, '*']).enter (blockDepth (depth + 1)), rest.drop 1)
      else if c = '*' ∧ rest.head? = some '/' then
        ((state.push [c, '/']).enter (blockDepth (depth - 1)), rest.drop 1)
      else (state.push [c], rest)
  | .singleQuote => quoteTurn '\'' state c rest
  | .doubleQuote => quoteTurn '"' state c rest
  | .dollarQuote tag =>
      if c = '$' ∧ (tag ++ ['$']).isPrefixOf rest then
        ((state.push (c :: tag ++ ['$'])).enter .top, rest.drop (tag.length + 1))
      else (state.push [c], rest)
  | .top => topTurn state c rest

/-- The loop; every turn takes a character or more. -/
def run : Nat → State → Text → State
  | 0, state, _ | _, state, [] => state
  | fuel + 1, state, c :: rest =>
      let (state, rest) := turn state c rest
      run fuel state rest

def splitStatements (input : Text) : SplitResult :=
  let final := run input.length {} input
  { complete := final.complete, remainder := trimStart final.current }

end OpenGauss.Mcp.SqlTokenizer
