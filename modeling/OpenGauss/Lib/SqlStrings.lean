import OpenGauss.Lib.SqlLexical
import OpenGauss.Lib.Utf8

/-! The values of PostgreSQL's string constants and quoted identifiers. A reader
is behind the opening quote and answers the value and the text behind the
closing quote; it fails where the lexer reports an error, as at the end of the
text. -/

set_option autoImplicit false

namespace OpenGauss.Lib.SqlStrings

open SqlLexical

def prepend {Item : Type} (items : List Item) (read : Option (List Item × List Char)) :
    Option (List Item × List Char) :=
  read.map fun (value, rest) => (items ++ value, rest)

/-- No escapes but the doubled quote. A text ends at a null character. -/
def quotedValue (quote : Char) : List Char → Option (List Char × List Char)
  | [] => none
  | char :: rest =>
      if char = '\x00' then none
      else if char = quote then
        match rest with
        | [] => some ([], [])
        | next :: later =>
            if next = quote then prepend [quote] (quotedValue quote later) else some ([], next :: later)
      else prepend [char] (quotedValue quote rest)

def digitValue? (base : Nat) (char : Char) : Option Nat :=
  let value :=
    if char.isDigit then char.toNat - 48
    else if 'a' ≤ char ∧ char ≤ 'f' then char.toNat - 87
    else if 'A' ≤ char ∧ char ≤ 'F' then char.toNat - 55
    else base
  if value < base then some value else none

/-- The number of at most `count` digits at the front of a text. -/
def numeral (base count : Nat) (text : List Char) : Nat × List Char :=
  match count, text with
  | count + 1, char :: rest =>
      match digitValue? base char with
      | some digit =>
          let (value, rest) := numeral base count rest
          (digit * base ^ (text.length - 1 - rest.length) + value, rest)
      | none => (0, text)
  | _, _ => (0, text)

/-- A code of exactly `count` hexadecimal digits. -/
def code? (count : Nat) (text : List Char) : Option (Nat × List Char) :=
  let (value, rest) := numeral 16 count text
  if rest.length + count = text.length then some (value, rest) else none

def codeLength (char : Char) : Nat := if char = 'u' then 4 else 8

/-- A character by its code; two surrogates make one. -/
def unicode? (count : Nat) (text : List Char) : Option (List UInt8 × List Char) := do
  let (first, rest) ← code? count text
  if 0xD800 ≤ first ∧ first < 0xDC00 then
    match rest with
    | '\\' :: char :: rest =>
        if char = 'u' ∨ char = 'U' then
          let (second, rest) ← code? (codeLength char) rest
          if 0xDC00 ≤ second ∧ second < 0xE000 then
            let scalar := 0x10000 + (first - 0xD800) * 0x400 + (second - 0xDC00)
            some (Utf8.encode [Char.ofNat scalar], rest)
          else none
        else none
    | _ => none
  else if first = 0 ∨ 0xDC00 ≤ first ∧ first < 0xE000 ∨ 0x110000 ≤ first then none
  else some (Utf8.encode [Char.ofNat first], rest)

/-- What a backslash before a text stands for, in bytes. -/
def escape? : List Char → Option (List UInt8 × List Char)
  | [] => none
  | char :: rest =>
      match char with
      | '\x00' => none
      | 'b' => some ([8], rest)
      | 't' => some ([9], rest)
      | 'n' => some ([10], rest)
      | 'v' => some ([11], rest)
      | 'f' => some ([12], rest)
      | 'r' => some ([13], rest)
      | 'u' => unicode? 4 rest
      | 'U' => unicode? 8 rest
      | 'x' =>
          let (value, later) := numeral 16 2 rest
          some (if later.length = rest.length then Utf8.encode [char] else [UInt8.ofNat value], later)
      | _ =>
          if (digitValue? 8 char).isSome then
            let (value, later) := numeral 8 3 (char :: rest)
            some ([UInt8.ofNat value], later)
          else some (Utf8.encode [char], rest)

/-- The bytes of a constant with escapes; every turn takes a character or more. -/
def escapedBytes : Nat → List Char → Option (List UInt8 × List Char)
  | 0, _ | _, [] => none
  | fuel + 1, char :: rest =>
      if char = '\x00' then none
      else if char = '\'' then
        match rest with
        | '\'' :: later => prepend [39] (escapedBytes fuel later)
        | _ => some ([], rest)
      else if char = '\\' then
        match escape? rest with
        | none => none
        | some (bytes, later) => prepend bytes (escapedBytes fuel later)
      else prepend (Utf8.encode [char]) (escapedBytes fuel rest)

/-- The bytes have to be a text without a null character. -/
def escapedValue (text : List Char) : Option (List Char × List Char) := do
  let (bytes, rest) ← escapedBytes text.length text
  let value ← Utf8.decode? bytes
  if '\x00' ∈ value then none else some (value, rest)

/-- The characters of a name within a number of bytes. -/
def clip : Nat → List Char → List Char
  | _, [] => []
  | limit, char :: rest =>
      if char.utf8Size ≤ limit then char :: clip (limit - char.utf8Size) rest else []

/-- `NAMEDATALEN - 1`. -/
def nameBytes : Nat := 63

inductive Token where
  | string (value : List Char)
  | identifier (name : List Char)
  deriving DecidableEq, Repr

/-- There is no identifier without a character, and a long one is cut. -/
def identifierToken : Option (List Char × List Char) → Option (Token × List Char)
  | some ([], _) | none => none
  | some (name, rest) => some (.identifier (clip nameBytes name), rest)

/-- The token at the front of a text, after its white space, if it is a string
constant or a quoted identifier. -/
def token (standardConforming : Bool) (text : List Char) : Option (Token × List Char) :=
  let named (read : List Char × List Char) := (Token.string read.1, read.2)
  match text.dropWhile isSpace with
  | '\'' :: rest =>
      (if standardConforming then quotedValue '\'' rest else escapedValue rest).map named
  | 'E' :: '\'' :: rest | 'e' :: '\'' :: rest => (escapedValue rest).map named
  | '"' :: rest => identifierToken (quotedValue '"' rest)
  | _ => none

/-! ### The readers, character by character -/

theorem quotedValue_char {quote char : Char} (charText : char ≠ '\x00') (other : char ≠ quote) (rest : List Char) :
    quotedValue quote (char :: rest) = prepend [char] (quotedValue quote rest) := by
  cases rest <;> exact (if_neg charText).trans (if_neg other)

theorem quotedValue_double {quote : Char} (text : quote ≠ '\x00') (later : List Char) :
    quotedValue quote (quote :: quote :: later) = prepend [quote] (quotedValue quote later) :=
  ((if_neg text).trans (if_pos rfl)).trans (if_pos rfl)

theorem quotedValue_end {quote : Char} (text : quote ≠ '\x00') :
    quotedValue quote [quote] = some ([], []) :=
  (if_neg text).trans (if_pos rfl)

theorem escapedBytes_char {char : Char} (text : char ≠ '\x00') (other : char ≠ '\'') (literal : char ≠ '\\')
    (fuel : Nat) (rest : List Char) :
    escapedBytes (fuel + 1) (char :: rest) = prepend (Utf8.encode [char]) (escapedBytes fuel rest) :=
  ((if_neg text).trans (if_neg other)).trans (if_neg literal)

theorem escapedBytes_double (fuel : Nat) (later : List Char) :
    escapedBytes (fuel + 1) ('\'' :: '\'' :: later) = prepend [39] (escapedBytes fuel later) := rfl

theorem escapedBytes_end (fuel : Nat) : escapedBytes (fuel + 1) ['\''] = some ([], []) := rfl

theorem escapedBytes_backslash (fuel : Nat) (later : List Char) :
    escapedBytes (fuel + 1) ('\\' :: '\\' :: later) = prepend [92] (escapedBytes fuel later) := rfl

end OpenGauss.Lib.SqlStrings
