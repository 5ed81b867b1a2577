import OpenGauss.Gaussdb.Keyring

/-! Putting the sentinel into a configuration file in the place of a password
(`gaussdb`, `config.rs`): on the text of the file, and on what is read from it. -/

set_option autoImplicit false

namespace OpenGauss.Gaussdb

open Driver Lib.Text

def stripCarriageReturn (line : Text) : Text :=
  if line.getLast? = some '\r' then line.dropLast else line

/-- `str::lines`. The last line need not be terminated, and then it keeps a
carriage return. -/
def lines (content : Text) : List Text :=
  let pieces := content.splitOn '\n'
  pieces.dropLast.map stripCarriageReturn ++ pieces.getLast?.toList.filter fun line => !line.isEmpty

/-- `str::find`: the text before the first occurrence of a pattern. -/
def textBefore? (pattern : Text) : Text → Option Text
  | [] => if pattern.isEmpty then some [] else none
  | char :: rest =>
      if pattern.isPrefixOf (char :: rest) then some []
      else (textBefore? pattern rest).map (char :: ·)

def contains (pattern text : Text) : Bool := (textBefore? pattern text).isSome

structure Rewriting where
  newContent : Text
  replaced : Bool
  inTargetSection : Bool
  deriving DecidableEq, Repr

/-- One line of the file. -/
def Rewriting.line (hasConnectionsSection : Bool) (connectionName : Text) (state : Rewriting)
    (line : Text) : Rewriting :=
  let targetBare := "[connections.".toList ++ connectionName ++ "]".toList
  let targetQuoted := "[connections.\"".toList ++ connectionName ++ "\"]".toList
  let trimmed := trim line
  let inTargetSection :=
    if trimmed.head? = some '[' then decide (trimmed = targetBare ∨ trimmed = targetQuoted)
    else state.inTargetSection
  let shouldReplace := if hasConnectionsSection then inTargetSection else !state.replaced
  if shouldReplace && !state.replaced && "password".toList.isPrefixOf trimmed &&
      trimmed.contains '=' then
    let indent := (textBefore? "password".toList line).getD []
    { newContent := state.newContent ++
        (indent ++ "password = \"".toList ++ keyringSentinel ++ "\"".toList) ++ ['\n']
      replaced := true
      inTargetSection }
  else
    { newContent := state.newContent ++ line ++ ['\n']
      replaced := state.replaced
      inTargetSection }

def rewritePasswordToSentinelContent (content connectionName : Text) : Text :=
  let hasConnectionsSection := contains "[connections.".toList content
  let start : Rewriting := { newContent := [], replaced := false, inTargetSection := false }
  let newContent :=
    ((lines content).foldl (Rewriting.line hasConnectionsSection connectionName) start).newContent
  if content.getLast? = some '\n' && "\n\n".toList.isSuffixOf newContent then newContent.dropLast
  else newContent

/-- The sentinel in the place of the password, where there is one. -/
def NamedConnection.withSentinel (conn : NamedConnection) : NamedConnection :=
  { conn with password := conn.password.map fun _ => keyringSentinel }

/-- What is read from the file once it is rewritten for a connection. -/
def MultiConfig.rewritePasswordToSentinel (config : MultiConfig) (connectionName : Text) :
    MultiConfig :=
  if config.connections.isEmpty then
    { config with password := config.password.map fun _ => keyringSentinel }
  else
    { config with
      connections := config.connections.map fun (name, conn) =>
        (name, if name = connectionName then conn.withSentinel else conn)
      sorted := by
        have names : (config.connections.map fun (name, conn) =>
            (name, if name = connectionName then conn.withSentinel else conn)).map Prod.fst =
            config.connections.map Prod.fst := by
          rw [List.map_map]
          rfl
        rw [names]
        exact config.sorted }

end OpenGauss.Gaussdb
