import OpenGauss.Lib.Text

/-! The documents of TOML 1.0, as its grammar reads them: what is read from the
front of a text, and the text behind it. A document is the list of its
statements, and it means the list of what stands at which path. -/

set_option autoImplicit false

namespace OpenGauss.Lib.Toml

open Text

inductive Scalar where
  | string (value : List Char)
  | integer (value : Int)
  /-- a float, a boolean, a date or a time -/
  | other (text : List Char)
  deriving DecidableEq, Repr

inductive Segment where
  | key (name : List Char)
  | index (place : Nat)
  deriving DecidableEq, Repr

abbrev Path := List Segment

/-- What stands at a path. Tables that are not opened in their own right, as
those above a table or before a dot, are not listed. -/
inductive Item (V : Type) where
  | scalar (value : V)
  | array
  | table
  deriving DecidableEq, Repr

abbrev Flat (V : Type) := List (Path × Item V)

variable {V W : Type}

def under (path : Path) (items : Flat V) : Flat V := items.map (Prod.map (path ++ ·) id)

inductive Statement (V : Type) where
  | header (keys : List (List Char))
  | arrayHeader (keys : List (List Char))
  | pair (keys : List (List Char)) (value : Flat V)
  deriving DecidableEq, Repr

def Item.map (change : V → W) : Item V → Item W
  | .scalar value => .scalar (change value)
  | .array => .array
  | .table => .table

def mapItems (change : V → W) (items : Flat V) : Flat W := items.map (Prod.map id (Item.map change))

def Statement.map (change : V → W) : Statement V → Statement W
  | .header keys => .header keys
  | .arrayHeader keys => .arrayHeader keys
  | .pair keys value => .pair keys (mapItems change value)

/-! ### The meaning of a document -/

/-- Where keys lead to from a table: to the last element of an array of tables. -/
def resolve (arrays : List Path) : Path → List (List Char) → Path
  | table, [] => table
  | table, key :: keys =>
      let path := table ++ [.key key]
      resolve arrays
        (if path ∈ arrays then path ++ [.index (arrays.count path - 1)] else path) keys

/-- The table that is open, the elements of arrays of tables so far, and what
has been read. -/
structure Reading (V : Type) where
  table : Path
  arrays : List Path
  items : Flat V
  deriving DecidableEq, Repr

def Reading.next (reading : Reading V) : Statement V → Reading V
  | .header keys =>
      let table := resolve reading.arrays [] keys
      { reading with table, items := reading.items ++ [(table, .table)] }
  | .arrayHeader keys =>
      let path := resolve reading.arrays [] keys.dropLast ++ (keys.getLast?.toList.map .key)
      let table := path ++ [.index (reading.arrays.count path)]
      { table, arrays := reading.arrays ++ [path], items := reading.items ++ [(table, .table)] }
  | .pair keys value =>
      { reading with items := reading.items ++ under (reading.table ++ keys.map .key) value }

def read (statements : List (Statement V)) : Reading V :=
  statements.foldl Reading.next { table := [], arrays := [], items := [] }

def meaning (statements : List (Statement V)) : Flat V := (read statements).items

/-- How numbers, booleans and dates are written, and which statements may stand
in one document: which tables may be opened again or get more keys. This is
told without the values, and no path is given twice. -/
structure Dialect where
  unquoted : List Char → Scalar → Prop
  coherent : List (Statement Unit) → Prop
  unquoted_text : ∀ {text scalar}, unquoted text scalar →
    text ≠ [] ∧ ∀ char ∈ text, char ≠ '\n' ∧ char ≠ '\r'
  once : ∀ {statements}, coherent statements → ((meaning statements).map Prod.fst).Nodup

/-! ### Blanks and comments -/

def isBlank (char : Char) : Bool := char = ' ' || char = '\t'

/-- No control character but the tab. -/
def isPlain (char : Char) : Bool := char = '\t' || (0x20 ≤ char.toNat && char.toNat ≠ 0x7F)

/-- A character that stands in front of the rest. -/
def Mark (char : Char) (text rest : List Char) : Prop := text = char :: rest

def Run (inside : Char → Bool) (text chars rest : List Char) : Prop :=
  text = chars ++ rest ∧ ∀ char ∈ chars, inside char = true

def Blanks (text rest : List Char) : Prop := ∃ chars, Run isBlank text chars rest

def Newline (text rest : List Char) : Prop := text = '\n' :: rest ∨ text = '\r' :: '\n' :: rest

/-- What is read first, and what is read then. -/
def Then (first second : List Char → List Char → Prop) (text rest : List Char) : Prop :=
  ∃ middle, first text middle ∧ second middle rest

/-- The comment at the end of a line, if there is one. -/
inductive Remark : List Char → List Char → Prop where
  | none (text : List Char) : Remark text text
  | comment {text chars rest : List Char} (run : Run isPlain text chars rest) :
      Remark ('#' :: text) rest

/-- Blanks and line ends, and also comments. -/
inductive Gap (comments : Bool) : List Char → List Char → Prop where
  | done (text : List Char) : Gap comments text text
  | blank {char : Char} {text rest : List Char} (blank : isBlank char = true)
      (gap : Gap comments text rest) : Gap comments (char :: text) rest
  | newline {text middle rest : List Char} (newline : Newline text middle)
      (gap : Gap comments middle rest) : Gap comments text rest
  | comment {text chars middle later rest : List Char} (allowed : comments = true)
      (run : Run isPlain text chars middle) (newline : Newline middle later)
      (gap : Gap comments later rest) : Gap comments ('#' :: text) rest

/-! ### Strings -/

def hexDigit (char : Char) : Option Nat :=
  if char.isDigit then some (char.toNat - '0'.toNat)
  else if 'a' ≤ char ∧ char ≤ 'f' then some (char.toNat - 'a'.toNat + 10)
  else if 'A' ≤ char ∧ char ≤ 'F' then some (char.toNat - 'A'.toNat + 10)
  else none

def hexCode (values : List Nat) : Nat := values.foldl (fun code value => 16 * code + value) 0

def escapes : List (Char × Char) :=
  [('b', '\x08'), ('t', '\t'), ('n', '\n'), ('f', '\x0c'), ('r', '\r'), ('"', '"'), ('\\', '\\')]

/-- What stands behind a backslash. -/
inductive Escape : List Char → Char → List Char → Prop where
  | simple {mark char : Char} (known : (mark, char) ∈ escapes) (rest : List Char) :
      Escape (mark :: rest) char rest
  | unicode {mark : Char} {digits : List Char} {values : List Nat}
      (size : mark = 'u' ∧ digits.length = 4 ∨ mark = 'U' ∧ digits.length = 8)
      (hex : digits.map hexDigit = values.map some)
      (valid : (hexCode values).isValidChar) (rest : List Char) :
      Escape (mark :: (digits ++ rest)) (Char.ofNat (hexCode values)) rest

/-- The two ways to write a string. -/
structure Style where
  quote : Char
  escaped : Bool

def basic : Style := ⟨'"', true⟩

def literal : Style := ⟨'\'', false⟩

def Style.plain (style : Style) (char : Char) : Bool :=
  isPlain char && char ≠ style.quote && !(style.escaped && char = '\\')

/-- The rest of a string on one line. -/
inductive Single (style : Style) : List Char → List Char → List Char → Prop where
  | close (rest : List Char) : Single style (style.quote :: rest) [] rest
  | char {char : Char} {text value rest : List Char} (plain : style.plain char = true)
      (others : Single style text value rest) : Single style (char :: text) (char :: value) rest
  | escape {char : Char} {text middle value rest : List Char} (escaped : style.escaped = true)
      (escape : Escape text char middle) (others : Single style middle value rest) :
      Single style ('\\' :: text) (char :: value) rest

/-- The rest of a string on several lines: whether a line end is part of it, as
the first one is not, and how many quotes have come one after the other. -/
inductive Multi (style : Style) : Bool → Nat → List Char → List Char → List Char → Prop where
  | close {opened : Bool} {quotes : Nat} (rest : List Char) :
      Multi style opened quotes (style.quote :: style.quote :: style.quote :: rest) [] rest
  | quote {opened : Bool} {quotes : Nat} {text value rest : List Char} (few : quotes < 2)
      (others : Multi style true (quotes + 1) text value rest) :
      Multi style opened quotes (style.quote :: text) (style.quote :: value) rest
  | char {opened : Bool} {quotes : Nat} {char : Char} {text value rest : List Char}
      (plain : style.plain char = true) (others : Multi style true 0 text value rest) :
      Multi style opened quotes (char :: text) (char :: value) rest
  | newline {quotes : Nat} {text middle value rest : List Char} (newline : Newline text middle)
      (others : Multi style true 0 middle value rest) :
      Multi style true quotes text ('\n' :: value) rest
  | escape {opened : Bool} {quotes : Nat} {char : Char} {text middle value rest : List Char}
      (escaped : style.escaped = true) (escape : Escape text char middle)
      (others : Multi style true 0 middle value rest) :
      Multi style opened quotes ('\\' :: text) (char :: value) rest
  | continued {opened : Bool} {quotes : Nat} {text blank line later value rest : List Char}
      (escaped : style.escaped = true) (blanks : Blanks text blank) (newline : Newline blank line)
      (gap : Gap false line later) (others : Multi style true 0 later value rest) :
      Multi style opened quotes ('\\' :: text) value rest

/-- A line end behind the opening quotes is no part of the string. -/
inductive StringText : List Char → List Char → List Char → Prop where
  | single {style : Style} {text value rest : List Char} (known : style = basic ∨ style = literal)
      (single : Single style text value rest) : StringText (style.quote :: text) value rest
  | multi {style : Style} {text value rest : List Char} (known : style = basic ∨ style = literal)
      (multi : Multi style false 0 text value rest) :
      StringText (style.quote :: style.quote :: style.quote :: text) value rest
  | multiLine {style : Style} {text line value rest : List Char}
      (known : style = basic ∨ style = literal) (newline : Newline text line)
      (multi : Multi style true 0 line value rest) :
      StringText (style.quote :: style.quote :: style.quote :: text) value rest

/-! ### Keys and values -/

def isKeyChar (char : Char) : Bool := char.isAlphanum || char = '_' || char = '-'

inductive SimpleKey : List Char → List Char → List Char → Prop where
  | bare {text key rest : List Char} (some : key ≠ []) (run : Run isKeyChar text key rest) :
      SimpleKey text key rest
  | quoted {style : Style} {text key rest : List Char} (known : style = basic ∨ style = literal)
      (single : Single style text key rest) : SimpleKey (style.quote :: text) key rest

inductive Keys : List Char → List (List Char) → List Char → Prop where
  | one {text key rest : List Char} (simple : SimpleKey text key rest) : Keys text [key] rest
  | dotted {text key rest : List Char} {keys : List (List Char)} {first second third : List Char}
      (simple : SimpleKey text key first) (before : Blanks first ('.' :: second))
      (after : Blanks second third) (others : Keys third keys rest) :
      Keys text (key :: keys) rest

/-- The keys of a pair, and the equals sign with the blanks around it. -/
inductive KeyPart : List Char → List (List Char) → List Char → Prop where
  | keys {text first second third rest : List Char} {keys : List (List Char)}
      (start : Blanks text first) (named : Keys first keys second)
      (before : Blanks second ('=' :: third)) (after : Blanks third rest) : KeyPart text keys rest

inductive Part where
  | value
  | elements (index : Nat)
  | pairs

/-- Values, the elements of an array from one on, and the pairs in a table on
one line. -/
inductive Value (dialect : Dialect) : Part → List Char → Flat Scalar → List Char → Prop where
  | string {text value rest : List Char} (string : StringText text value rest) :
      Value dialect .value text [([], .scalar (.string value))] rest
  | unquoted {chars : List Char} {scalar : Scalar} (written : dialect.unquoted chars scalar)
      (rest : List Char) : Value dialect .value (chars ++ rest) [([], .scalar scalar)] rest
  | array {text rest : List Char} {items : Flat Scalar}
      (elements : Value dialect (.elements 0) text items rest) :
      Value dialect .value ('[' :: text) (([], .array) :: items) rest
  | empty {text rest : List Char} (blanks : Blanks text ('}' :: rest)) :
      Value dialect .value ('{' :: text) [([], .table)] rest
  | table {text rest : List Char} {items : Flat Scalar}
      (pairs : Value dialect .pairs text items rest) :
      Value dialect .value ('{' :: text) (([], .table) :: items) rest
  | noElement {index : Nat} {text rest : List Char} (gap : Gap true text (']' :: rest)) :
      Value dialect (.elements index) text [] rest
  | lastElement {index : Nat} {text first second rest : List Char} {value : Flat Scalar}
      (before : Gap true text first) (element : Value dialect .value first value second)
      (after : Gap true second (']' :: rest)) :
      Value dialect (.elements index) text (under [.index index] value) rest
  | element {index : Nat} {text first second third rest : List Char} {value items : Flat Scalar}
      (before : Gap true text first) (element : Value dialect .value first value second)
      (after : Gap true second (',' :: third))
      (others : Value dialect (.elements (index + 1)) third items rest) :
      Value dialect (.elements index) text (under [.index index] value ++ items) rest
  | lastPair {text first second rest : List Char} {keys : List (List Char)} {value : Flat Scalar}
      (keyPart : KeyPart text keys first) (pair : Value dialect .value first value second)
      (after : Blanks second ('}' :: rest)) :
      Value dialect .pairs text (under (keys.map .key) value) rest
  | pair {text first second third rest : List Char} {keys : List (List Char)}
      {value items : Flat Scalar} (keyPart : KeyPart text keys first)
      (pair : Value dialect .value first value second) (after : Blanks second (',' :: third))
      (others : Value dialect .pairs third items rest) :
      Value dialect .pairs text (under (keys.map .key) value ++ items) rest

/-! ### Documents -/

/-- What stands between two line ends; a string or an array in it can have more. -/
inductive Expression (dialect : Dialect) :
    List Char → Option (Statement Scalar) → List Char → Prop where
  | blank {text first rest : List Char} (blanks : Blanks text first) (remark : Remark first rest) :
      Expression dialect text none rest
  | pair {text first second third rest : List Char} {keys : List (List Char)} {value : Flat Scalar}
      (keyPart : KeyPart text keys first) (read : Value dialect .value first value second)
      (blanks : Blanks second third) (remark : Remark third rest) :
      Expression dialect text (some (.pair keys value)) rest
  | header {text first second third fourth fifth rest : List Char} {keys : List (List Char)}
      (start : Blanks text ('[' :: first)) (before : Blanks first second)
      (named : Keys second keys third) (after : Blanks third (']' :: fourth))
      (blanks : Blanks fourth fifth) (remark : Remark fifth rest) :
      Expression dialect text (some (.header keys)) rest
  | arrayHeader {text first second third fourth fifth rest : List Char} {keys : List (List Char)}
      (start : Blanks text ('[' :: '[' :: first)) (before : Blanks first second)
      (named : Keys second keys third) (after : Blanks third (']' :: ']' :: fourth))
      (blanks : Blanks fourth fifth) (remark : Remark fifth rest) :
      Expression dialect text (some (.arrayHeader keys)) rest

/-- An expression with the line end behind it. -/
def Line (dialect : Dialect) (text : List Char) (statement : Option (Statement Scalar))
    (rest : List Char) : Prop :=
  Then (Expression dialect · statement ·) Newline text rest

/-- Complete lines. -/
def Lines (dialect : Dialect) (text : List Char) (statements : List (Statement Scalar))
    (rest : List Char) : Prop :=
  ∃ lines, Items (Line dialect) text lines rest ∧ statements = lines.filterMap id

/-- The last line has no line end. -/
def Document (dialect : Dialect) (text : List Char) (statements : List (Statement Scalar)) : Prop :=
  ∃ before last middle, Lines dialect text before middle ∧ Expression dialect middle last [] ∧
    statements = before ++ last.toList

/-- A text is a document, and its statements go together. -/
structure Valid (dialect : Dialect) (text : List Char) (statements : List (Statement Scalar)) :
    Prop where
  document : Document dialect text statements
  coherent : dialect.coherent (statements.map (Statement.map fun _ => ()))

end OpenGauss.Lib.Toml
