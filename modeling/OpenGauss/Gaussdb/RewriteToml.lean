import OpenGauss.Gaussdb.Deserialize
import OpenGauss.Gaussdb.RewriteProperties

/-! The line of a file that gets the sentinel, and the line that gives a password
in it. -/

set_option autoImplicit false

namespace OpenGauss.Gaussdb

open Driver Lib.Text Lib.Toml

/-! ### The line that gets the sentinel -/

def isPasswordLine (line : Text) : Bool :=
  "password".toList.isPrefixOf (trim line) && (trim line).contains '='

/-- Whether the section of a connection is open after a line. -/
def inTargetSection (name : Text) (inside : Bool) (line : Text) : Bool :=
  if (trim line).head? = some '[' then
    decide (trim line = "[connections.".toList ++ name ++ "]".toList ∨
      trim line = "[connections.\"".toList ++ name ++ "\"]".toList)
  else inside

/-- Which one of some lines is replaced. -/
def editedFrom (hasConnectionsSection : Bool) (name : Text) : Bool → List Text → Option Nat
  | _, [] => none
  | inside, line :: lines =>
      if (if hasConnectionsSection then inTargetSection name inside line else true) &&
          isPasswordLine line then some 0
      else (editedFrom hasConnectionsSection name (inTargetSection name inside line) lines).map
        (· + 1)

def editedLine (content name : Text) : Option Nat :=
  editedFrom (contains "[connections.".toList content) name false (lines content)

/-- What a line is replaced by. -/
def sentinelled (line : Text) : Text :=
  (textBefore? "password".toList line).getD [] ++ sentinelLine

/-! ### The line that gives the password -/

def passwordPair (password : Text) : Statement Scalar :=
  .pair ["password".toList] [([], .scalar (.string password))]

/-- Where the password of a connection stands. -/
def passwordPath (config : TimedMultiConfig) (name : Text) : Path :=
  if config.connections.isEmpty then keyBelow [] "password"
  else keyBelow (keyBelow [] "connections" ++ [.key name]) "password"

/-- A password is given by a pair that begins with a line: what stands in front
of that line and behind it are complete statements. -/
structure PasswordLine (dialect : Dialect) (content : Text) (statements : List (Statement Scalar))
    (path : Path) (password front line rest : Text) (before after : List (Statement Scalar)) :
    Prop where
  frontLines : Lines dialect front before []
  pair : ∃ behind later, content = front ++ (line ++ behind) ∧
    (behind = [] ∧ rest = [] ∨ Newline behind rest) ∧
    Expression dialect (line ++ behind) (some (passwordPair password)) later
  oneLine : ∀ char ∈ line, char ≠ '\n' ∧ char ≠ '\r'
  restDocument : Document dialect rest after
  whole : statements = before ++ passwordPair password :: after
  place : keyBelow (read before).table "password" = path

/-- The line that gives the password is the one that is replaced, and the
password stands nowhere else in the file, nor in the new line. -/
def EditsPassword (dialect : Dialect) (content name : Text) (statements : List (Statement Scalar))
    (config : TimedMultiConfig) (password : Text) : Prop :=
  ∃ front line rest before after,
    PasswordLine dialect content statements (passwordPath config name) password front line rest
      before after ∧
    editedLine content name = some (lines front).length ∧
    contains password (terminated (lines front ++ sentinelled line :: lines rest)) = false

/-- The line that gives the password shows it as it is. -/
def ShowsPassword (dialect : Dialect) (content name : Text) (statements : List (Statement Scalar))
    (config : TimedMultiConfig) (password : Text) : Prop :=
  ∃ front line rest before after,
    PasswordLine dialect content statements (passwordPath config name) password front line rest
      before after ∧
    contains password line = true

/-! ### The file with the sentinel -/

/-- What is read, with another string at a path. -/
def replaceAt (path : Path) (value : Text) (items : Flat Scalar) : Flat Scalar :=
  items.map fun item => if item.1 = path then (item.1, .scalar (.string value)) else item

/-- The rewritten file says what the file said, with the sentinel for the
password, which it does not hold any more. -/
structure Rewrites (dialect : Dialect) (content name : Text) (statements : List (Statement Scalar))
    (config : TimedMultiConfig) (password : Text) : Prop where
  valid : ∃ rewritten, Valid dialect (rewritePasswordToSentinelContent content name) rewritten ∧
    meaning rewritten = replaceAt (passwordPath config name) keyringSentinel (meaning statements) ∧
    deserialize (meaning rewritten) = some (config.withSentinel name)
  gone : contains password (rewritePasswordToSentinelContent content name) = false

end OpenGauss.Gaussdb
