/-! Escaping of literals and identifiers (`opengauss-protocol`, `escape/mod.rs`). -/

set_option autoImplicit false

namespace OpenGauss.Protocol

def escapeInternal (input : List Char) (asIdent : Bool) : List Char :=
  let quoteChar := if asIdent then '"' else '\''
  let numQuotes := input.countP (· == quoteChar)
  let numBackslashes := input.countP fun ch => ch != quoteChar && ch == '\\'
  let start := if !asIdent && 0 < numBackslashes then [' ', 'E', quoteChar] else [quoteChar]
  let body :=
    if numQuotes = 0 ∧ (numBackslashes = 0 ∨ asIdent) then input
    else input.flatMap fun ch =>
      if ch == quoteChar || (!asIdent && ch == '\\') then [ch, ch] else [ch]
  start ++ body ++ [quoteChar]

def escapeLiteral (input : List Char) : List Char := escapeInternal input false

def escapeIdentifier (input : List Char) : List Char := escapeInternal input true

end OpenGauss.Protocol
