import Mathlib.Data.List.TakeWhile

/-! The lexical elements of PostgreSQL's SQL, as far as they tell where a
semicolon is a token. A reader of an element answers its text and the text
behind it; an element without an end takes the whole text. -/

set_option autoImplicit false

namespace OpenGauss.Lib.SqlLexical

def isNewline (char : Char) : Bool := char == '\n' || char == '\r'

def isSpace (char : Char) : Bool :=
  char == ' ' || char == '\t' || char == '\x0c' || char == '\x0b' || isNewline char

def isIdentStart (char : Char) : Bool := char.isAlpha || char == '_' || 128 ≤ char.toNat

/-- The characters of a dollar quote's tag after the first one. -/
def isTagChar (char : Char) : Bool := isIdentStart char || char.isDigit

def isIdentChar (char : Char) : Bool := isTagChar char || char == '$'

def keep (chars : List Char) (read : List Char × List Char) : List Char × List Char :=
  (chars ++ read.1, read.2)

def span (inside : Char → Bool) (text : List Char) : List Char × List Char :=
  (text.takeWhile inside, text.dropWhile inside)

/-- The rest of a quoted element, in which a doubled quote stands for itself. -/
def quoted (quote : Char) : List Char → List Char × List Char
  | [] => ([], [])
  | char :: rest =>
      if char = quote then
        match rest with
        | [] => ([char], [])
        | next :: later =>
            if next = quote then keep [char, next] (quoted quote later) else ([char], next :: later)
      else keep [char] (quoted quote rest)

/-- The rest of a string constant with backslash escapes. -/
def escaped : List Char → List Char × List Char
  | [] => ([], [])
  | char :: rest =>
      if char = '\\' then
        match rest with
        | [] => ([char], [])
        | next :: later => keep [char, next] (escaped later)
      else if char = '\'' then
        match rest with
        | [] => ([char], [])
        | next :: later =>
            if next = '\'' then keep [char, next] (escaped later) else ([char], next :: later)
      else keep [char] (escaped rest)

/-- The rest of a block comment in which `depth` more are open. -/
def blockComment : Nat → List Char → List Char × List Char
  | _, [] => ([], [])
  | _, [char] => ([char], [])
  | depth, char :: next :: later =>
      if char = '/' ∧ next = '*' then keep [char, next] (blockComment (depth + 1) later)
      else if char = '*' ∧ next = '/' then
        match depth with
        | 0 => ([char, next], later)
        | depth + 1 => keep [char, next] (blockComment depth later)
      else keep [char] (blockComment depth (next :: later))

/-- The rest of a line comment, with the end of its line. -/
def lineComment : List Char → List Char × List Char
  | [] => ([], [])
  | char :: rest =>
      if char = '\n' then ([char], rest)
      else if char = '\r' then
        if rest.head? = some '\n' then ([char, '\n'], rest.drop 1) else ([char], rest)
      else keep [char] (lineComment rest)

/-- What a dollar sign before a text opens, if such characters are in tags. -/
def tagBy (start inside : Char → Bool) (text : List Char) : Option (List Char) :=
  if text.head? = some '$' then some []
  else if text.head?.any start ∧ (text.dropWhile inside).head? = some '$' then
    some (text.takeWhile inside)
  else none

/-- The tag of the dollar quote that a dollar sign opens before a text. -/
def dollarTag (text : List Char) : Option (List Char) := tagBy isIdentStart isTagChar text

/-- The text up to the first place of a delimiter, and the delimiter. -/
def delimited (delimiter : List Char) : List Char → List Char × List Char
  | [] => ([], [])
  | char :: rest =>
      if delimiter.isPrefixOf (char :: rest) then
        (delimiter, (char :: rest).drop delimiter.length)
      else keep [char] (delimited delimiter rest)

def sign (text : List Char) : List Char × List Char :=
  if text.head? = some '+' ∨ text.head? = some '-' then (text.take 1, text.drop 1) else ([], text)

/-- The exponent at the start of a text, if there is one. -/
def exponent (text : List Char) : List Char × List Char :=
  match text with
  | [] => ([], [])
  | char :: rest =>
      if (char = 'e' ∨ char = 'E') ∧ (sign rest).2.head?.any Char.isDigit then
        keep (char :: (sign rest).1) (span Char.isDigit (sign rest).2)
      else ([], text)

def fraction (text : List Char) : List Char × List Char :=
  match text with
  | [] => ([], [])
  | char :: rest => if char = '.' then keep [char] (span Char.isDigit rest) else ([], text)

def number (text : List Char) : List Char × List Char :=
  let whole := span Char.isDigit text
  let fraction := fraction whole.2
  keep (whole.1 ++ fraction.1) (exponent fraction.2)

inductive Kind where
  | semicolon
  | blank
  | lineComment
  | blockComment
  | string
  | escapeString
  | quotedIdentifier
  | dollarString (tag : List Char)
  | parameter
  | number
  | identifier
  | symbol
  deriving DecidableEq, Repr

structure Lexeme where
  kind : Kind
  text : List Char
  deriving DecidableEq, Repr

def lexeme (kind : Kind) (read : List Char × List Char) : Lexeme × List Char :=
  (⟨kind, read.1⟩, read.2)

/-- What a dollar sign begins: a dollar-quoted string or a parameter. -/
def dollar (rest : List Char) : Lexeme × List Char :=
  match dollarTag rest with
  | some tag =>
      lexeme (.dollarString tag) (keep ('$' :: tag ++ ['$'])
        (delimited ('$' :: tag ++ ['$']) (rest.drop (tag.length + 1))))
  | none =>
      if rest.head?.any Char.isDigit then lexeme .parameter (keep ['$'] (span Char.isDigit rest))
      else (⟨.symbol, ['$']⟩, rest)

/-- The first element of a text. `gap` is there after a string constant with
escapes and the blanks and line comments behind it, and tells whether they have
a line end: if so, a quote continues the constant. -/
def next (gap : Option Bool) (char : Char) (rest : List Char) : Lexeme × List Char :=
  if char = ';' then (⟨.semicolon, [char]⟩, rest)
  else if isSpace char then (⟨.blank, [char]⟩, rest)
  else if char = '-' ∧ rest.head? = some '-' then
    lexeme .lineComment (keep [char, '-'] (lineComment (rest.drop 1)))
  else if char = '/' ∧ rest.head? = some '*' then
    lexeme .blockComment (keep [char, '*'] (blockComment 0 (rest.drop 1)))
  else if char = '\'' then
    if gap = some true then lexeme .escapeString (keep [char] (escaped rest))
    else lexeme .string (keep [char] (quoted char rest))
  else if char = '"' then lexeme .quotedIdentifier (keep [char] (quoted char rest))
  else if char = '$' then dollar rest
  else if char.isDigit ∨ char = '.' ∧ rest.head?.any Char.isDigit then
    lexeme .number (number (char :: rest))
  else if isIdentStart char then
    if (char = 'e' ∨ char = 'E') ∧ rest.head? = some '\'' then
      lexeme .escapeString (keep [char, '\''] (escaped (rest.drop 1)))
    else lexeme .identifier (span isIdentChar (char :: rest))
  else (⟨.symbol, [char]⟩, rest)

def gapAfter (gap : Option Bool) (lexeme : Lexeme) : Option Bool :=
  match lexeme.kind with
  | .escapeString => some false
  | .blank | .lineComment => gap.map fun seen => seen || lexeme.text.any isNewline
  | _ => none

/-- Every element takes a character or more. -/
def lexemesFrom : Nat → Option Bool → List Char → List Lexeme
  | 0, _, _ | _, _, [] => []
  | fuel + 1, gap, char :: rest =>
      let (lexeme, after) := next gap char rest
      lexeme :: lexemesFrom fuel (gapAfter gap lexeme) after

def lexemes (text : List Char) : List Lexeme := lexemesFrom text.length none text

/-- The texts between the semicolons, the first one after `current`; the last
one comes apart. -/
def cutFrom (current : List Char) : List Lexeme → List (List Char) × List Char
  | [] => ([], current)
  | lexeme :: lexemes =>
      if lexeme.kind = .semicolon then
        let (pieces, rest) := cutFrom [] lexemes
        (current :: pieces, rest)
      else cutFrom (current ++ lexeme.text) lexemes

def cut (lexemes : List Lexeme) : List (List Char) × List Char := cutFrom [] lexemes

/-! ### The readers, character by character -/

theorem quoted_cons (quote char : Char) (rest : List Char) :
    quoted quote (char :: rest) =
      if char = quote then
        match rest with
        | [] => ([char], [])
        | next :: later =>
            if next = quote then keep [char, next] (quoted quote later) else ([char], next :: later)
      else keep [char] (quoted quote rest) := by
  cases rest <;> rfl

theorem quoted_char {quote char : Char} (other : char ≠ quote) (rest : List Char) :
    quoted quote (char :: rest) = keep [char] (quoted quote rest) := by
  rw [quoted_cons, if_neg other]

theorem quoted_double (quote : Char) (later : List Char) :
    quoted quote (quote :: quote :: later) = keep [quote, quote] (quoted quote later) := by
  simp [quoted_cons]

theorem quoted_end {quote : Char} {rest : List Char} (ends : rest.head? ≠ some quote) :
    quoted quote (quote :: rest) = ([quote], rest) := by
  cases rest with
  | nil => simp [quoted_cons]
  | cons next later =>
      have other : next ≠ quote := by simpa using ends
      simp [quoted_cons, other]

theorem escaped_cons (char : Char) (rest : List Char) :
    escaped (char :: rest) =
      if char = '\\' then
        match rest with
        | [] => ([char], [])
        | next :: later => keep [char, next] (escaped later)
      else if char = '\'' then
        match rest with
        | [] => ([char], [])
        | next :: later =>
            if next = '\'' then keep [char, next] (escaped later) else ([char], next :: later)
      else keep [char] (escaped rest) := by
  cases rest <;> rfl

theorem escaped_char {char : Char} (literal : char ≠ '\\') (other : char ≠ '\'')
    (rest : List Char) : escaped (char :: rest) = keep [char] (escaped rest) := by
  rw [escaped_cons, if_neg literal, if_neg other]

theorem escaped_end {rest : List Char} (ends : rest.head? ≠ some '\'') :
    escaped ('\'' :: rest) = (['\''], rest) := by
  cases rest with
  | nil => rfl
  | cons next later =>
      have other : next ≠ '\'' := by simpa using ends
      rw [escaped_cons, if_neg (by decide), if_pos rfl]
      exact if_neg other

theorem blockComment_cons (depth : Nat) (char next : Char) (later : List Char) :
    blockComment depth (char :: next :: later) =
      if char = '/' ∧ next = '*' then keep [char, next] (blockComment (depth + 1) later)
      else if char = '*' ∧ next = '/' then
        match depth with
        | 0 => ([char, next], later)
        | depth + 1 => keep [char, next] (blockComment depth later)
      else keep [char] (blockComment depth (next :: later)) := by
  cases depth <;> rfl

theorem blockComment_open (depth : Nat) (later : List Char) :
    blockComment depth ('/' :: '*' :: later) = keep ['/', '*'] (blockComment (depth + 1) later) := by
  rw [blockComment_cons, if_pos ⟨rfl, rfl⟩]

theorem blockComment_end (later : List Char) :
    blockComment 0 ('*' :: '/' :: later) = (['*', '/'], later) := by
  rw [blockComment_cons, if_neg (by decide), if_pos ⟨rfl, rfl⟩]

theorem blockComment_close (depth : Nat) (later : List Char) :
    blockComment (depth + 1) ('*' :: '/' :: later) =
      keep ['*', '/'] (blockComment depth later) := by
  rw [blockComment_cons, if_neg (by decide), if_pos ⟨rfl, rfl⟩]

theorem blockComment_char {char : Char} {rest : List Char} (depth : Nat)
    (noOpen : ¬(char = '/' ∧ rest.head? = some '*'))
    (noClose : ¬(char = '*' ∧ rest.head? = some '/')) :
    blockComment depth (char :: rest) = keep [char] (blockComment depth rest) := by
  cases rest with
  | nil => rfl
  | cons next later =>
      rw [blockComment_cons, if_neg (by simpa using noOpen), if_neg (by simpa using noClose)]

/-! ### What an element begins with -/

/-- The cases of `next`. -/
inductive Begins (char : Char) (rest : List Char) : Lexeme × List Char → Prop where
  | semicolon (same : char = ';') : Begins char rest (⟨.semicolon, [char]⟩, rest)
  | blank (space : isSpace char = true) : Begins char rest (⟨.blank, [char]⟩, rest)
  | lineComment (dash : char = '-') (again : rest.head? = some '-') :
      Begins char rest (lexeme .lineComment (keep [char, '-'] (lineComment (rest.drop 1))))
  | blockComment (slash : char = '/') (star : rest.head? = some '*') :
      Begins char rest (lexeme .blockComment (keep [char, '*'] (blockComment 0 (rest.drop 1))))
  | continued (quote : char = '\'') :
      Begins char rest (lexeme .escapeString (keep [char] (escaped rest)))
  | string (quote : char = '\'') : Begins char rest (lexeme .string (keep [char] (quoted char rest)))
  | quotedIdentifier (quote : char = '"') :
      Begins char rest (lexeme .quotedIdentifier (keep [char] (quoted char rest)))
  | dollar (sign : char = '$') : Begins char rest (dollar rest)
  | number (starts : char.isDigit ∨ char = '.' ∧ rest.head?.any Char.isDigit) :
      Begins char rest (lexeme .number (number (char :: rest)))
  | escapeString (letter : char = 'e' ∨ char = 'E') (quote : rest.head? = some '\'') :
      Begins char rest (lexeme .escapeString (keep [char, '\''] (escaped (rest.drop 1))))
  | identifier (starts : isIdentStart char = true) :
      Begins char rest (lexeme .identifier (span isIdentChar (char :: rest)))
  | symbol (common : char ≠ ';' ∧ char ≠ '\'' ∧ char ≠ '"' ∧ char ≠ '$')
      (noComment : ¬(char = '-' ∧ rest.head? = some '-') ∧ ¬(char = '/' ∧ rest.head? = some '*')) :
      Begins char rest (⟨.symbol, [char]⟩, rest)

theorem next_begins (gap : Option Bool) (char : Char) (rest : List Char) :
    Begins char rest (next gap char rest) := by
  rw [next]
  by_cases semicolon : char = ';'
  · exact if_pos semicolon ▸ .semicolon semicolon
  rw [if_neg semicolon]
  by_cases space : isSpace char = true
  · exact if_pos space ▸ .blank space
  rw [if_neg space]
  by_cases dashes : char = '-' ∧ rest.head? = some '-'
  · exact if_pos dashes ▸ .lineComment dashes.1 dashes.2
  rw [if_neg dashes]
  by_cases slash : char = '/' ∧ rest.head? = some '*'
  · exact if_pos slash ▸ .blockComment slash.1 slash.2
  rw [if_neg slash]
  by_cases quote : char = '\''
  · rw [if_pos quote]
    split
    · exact .continued quote
    · exact .string quote
  rw [if_neg quote]
  by_cases double : char = '"'
  · exact if_pos double ▸ .quotedIdentifier double
  rw [if_neg double]
  by_cases sign : char = '$'
  · exact if_pos sign ▸ .dollar sign
  rw [if_neg sign]
  by_cases digit : char.isDigit ∨ char = '.' ∧ rest.head?.any Char.isDigit
  · exact if_pos digit ▸ .number digit
  rw [if_neg digit]
  by_cases start : isIdentStart char = true
  · rw [if_pos start]
    split
    · rename_i escape
      exact .escapeString escape.1 escape.2
    · exact .identifier start
  rw [if_neg start]
  exact .symbol ⟨semicolon, quote, double, sign⟩ ⟨dashes, slash⟩

/-! ### No character is lost -/

/-- A reader splits its text. -/
def Splits (text : List Char) (read : List Char × List Char) : Prop := read.1 ++ read.2 = text

theorem Splits.keep {text : List Char} {read : List Char × List Char} (splits : Splits text read)
    (chars : List Char) : Splits (chars ++ text) (keep chars read) := by
  rw [Splits, SqlLexical.keep, List.append_assoc, splits]

theorem Splits.head {text : List Char} {read : List Char × List Char} (splits : Splits text read)
    {char : Char} (first : read.1.head? = some char) : text.head? = some char := by
  obtain ⟨rest, same⟩ := List.head?_eq_some_iff.mp first
  rw [← splits, same]
  rfl

theorem span_splits (inside : Char → Bool) (text : List Char) : Splits text (span inside text) :=
  List.takeWhile_append_dropWhile

theorem quoted_splits (quote : Char) (text : List Char) : Splits text (quoted quote text) := by
  induction text using quoted.induct quote with
  | case1 => rfl
  | case2 =>
      have ends : ([] : List Char).head? ≠ some quote := (Option.some_ne_none quote).symm
      rw [quoted_end ends]
      rfl
  | case3 later ih =>
      rw [quoted_double]
      exact ih.keep [quote, quote]
  | case4 next later other =>
      have ends : (next :: later).head? ≠ some quote := by simpa using other
      rw [quoted_end ends]
      rfl
  | case5 char rest other ih =>
      rw [quoted_char other]
      exact ih.keep [char]

theorem escaped_splits (text : List Char) : Splits text (escaped text) := by
  induction text using escaped.induct with
  | case1 | case2 | case4 => rfl
  | case3 next later ih => exact ih.keep ['\\', next]
  | case5 later _ ih => exact ih.keep ['\'', '\'']
  | case6 next later other =>
      have ends : (next :: later).head? ≠ some '\'' := by simpa using other
      rw [escaped_end ends]
      rfl
  | case7 char rest literal other ih =>
      rw [escaped_char literal other]
      exact ih.keep [char]

theorem blockComment_splits (depth : Nat) (text : List Char) :
    Splits text (blockComment depth text) := by
  induction depth, text using blockComment.induct with
  | case1 | case2 => rfl
  | case3 depth char next later opens ih =>
      rw [blockComment_cons, if_pos opens]
      exact ih.keep [char, next]
  | case4 char next later noOpen closes =>
      rw [blockComment_cons, if_neg noOpen, if_pos closes]
      rfl
  | case5 char next later noOpen closes depth ih =>
      rw [blockComment_cons, if_neg noOpen, if_pos closes]
      exact ih.keep [char, next]
  | case6 depth char next later noOpen noClose ih =>
      rw [blockComment_cons, if_neg noOpen, if_neg noClose]
      exact ih.keep [char]

theorem lineComment_splits (text : List Char) : Splits text (lineComment text) := by
  induction text with
  | nil => rfl
  | cons char rest ih =>
      rw [lineComment]
      split
      · rfl
      · split
        · cases rest with
          | nil => rfl
          | cons next later =>
              split
              · rename_i newline
                obtain rfl := Option.some.inj newline
                rfl
              · rfl
        · exact ih.keep [char]

theorem delimited_splits (delimiter text : List Char) :
    Splits text (delimited delimiter text) := by
  induction text with
  | nil => rfl
  | cons char rest ih =>
      rw [delimited]
      split
      · rename_i found
        obtain ⟨after, same⟩ := List.isPrefixOf_iff_prefix.mp found
        rw [← same, List.drop_left]
        rfl
      · exact ih.keep [char]

theorem exponent_splits (text : List Char) : Splits text (exponent text) := by
  cases text with
  | nil => rfl
  | cons char rest =>
      rw [exponent]
      split
      · have signed : (sign rest).1 ++ (sign rest).2 = rest := by
          rw [sign]
          split
          · exact List.take_append_drop 1 rest
          · rfl
        have splits := (span_splits Char.isDigit (sign rest).2).keep (char :: (sign rest).1)
        rwa [List.cons_append, signed] at splits
      · rfl

theorem fraction_splits (text : List Char) : Splits text (fraction text) := by
  cases text with
  | nil => rfl
  | cons char rest =>
      rw [fraction]
      split
      · exact (span_splits Char.isDigit rest).keep [char]
      · rfl

theorem number_splits (text : List Char) : Splits text (number text) := by
  have whole := span_splits Char.isDigit text
  have fraction := fraction_splits (span Char.isDigit text).2
  have rest := (exponent_splits (SqlLexical.fraction (span Char.isDigit text).2).2).keep
    ((span Char.isDigit text).1 ++ (SqlLexical.fraction (span Char.isDigit text).2).1)
  rwa [List.append_assoc, fraction, whole] at rest

theorem tagBy_iff {start inside : Char → Bool} (starts : ∀ char, start char = true → inside char = true)
    (dollar : inside '$' = false) {text tag : List Char} :
    tagBy start inside text = some tag ↔
      ∃ after, text = tag ++ '$' :: after ∧ (∀ char ∈ tag, inside char = true) ∧
        ∀ char, tag.head? = some char → start char = true := by
  constructor
  · intro found
    rw [tagBy] at found
    split at found
    · rename_i empty
      obtain rfl := Option.some.inj found
      obtain ⟨after, rfl⟩ := List.head?_eq_some_iff.mp empty
      exact ⟨after, rfl, fun _ member => absurd member List.not_mem_nil, fun _ first => by cases first⟩
    split at found
    · rename_i tagged
      obtain rfl := Option.some.inj found
      obtain ⟨after, dropped⟩ := List.head?_eq_some_iff.mp tagged.2
      have whole : text.takeWhile inside ++ '$' :: after = text := by
        rw [← dropped, List.takeWhile_append_dropWhile]
      refine ⟨after, whole.symm, fun char => List.mem_takeWhile_imp, fun char first => ?_⟩
      have splits : Splits text (text.takeWhile inside, '$' :: after) := whole
      have head := splits.head first
      simpa [head] using tagged.1
    · cases found
  · rintro ⟨after, rfl, all, first⟩
    have closes : ('$' :: after).dropWhile inside = '$' :: after := by
      rw [List.dropWhile_cons, dollar]
      rfl
    cases tag with
    | nil => rfl
    | cons char tag =>
        have start := first char rfl
        have other : char ≠ '$' := by
          rintro rfl
          rw [starts '$' start] at dollar
          cases dollar
        have taken : (char :: tag ++ '$' :: after).takeWhile inside = char :: tag := by
          rw [List.takeWhile_append_of_pos all, List.takeWhile_cons, dollar]
          exact List.append_nil _
        have left : (char :: tag ++ '$' :: after).dropWhile inside = '$' :: after := by
          rw [List.dropWhile_append_of_pos all, closes]
        rw [tagBy, taken, left]
        exact (if_neg fun same => other (Option.some.inj same)).trans (if_pos ⟨start, rfl⟩)

theorem isIdentStart_isTagChar (char : Char) (starts : isIdentStart char = true) :
    isTagChar char = true := by
  rw [isTagChar, starts, Bool.true_or]

theorem dollarTag_iff {text tag : List Char} :
    dollarTag text = some tag ↔
      ∃ after, text = tag ++ '$' :: after ∧ (∀ char ∈ tag, isTagChar char = true) ∧
        ∀ char, tag.head? = some char → isIdentStart char = true :=
  tagBy_iff isIdentStart_isTagChar (by decide)

theorem lexeme_splits {kind : Kind} {text : List Char} {read : List Char × List Char}
    (splits : Splits text read) : (lexeme kind read).1.text ++ (lexeme kind read).2 = text :=
  splits

theorem drop_tag (tag after : List Char) : (tag ++ '$' :: after).drop (tag.length + 1) = after := by
  have size : tag.length + 1 = (tag ++ ['$']).length := by rw [List.length_append]; rfl
  rw [List.append_cons, size, List.drop_left]

theorem dollar_splits (rest : List Char) : (dollar rest).1.text ++ (dollar rest).2 = '$' :: rest := by
  cases tagged : dollarTag rest with
  | none =>
      rw [dollar, tagged]
      dsimp only
      split
      · exact lexeme_splits ((span_splits Char.isDigit rest).keep ['$'])
      · rfl
  | some tag =>
      rw [dollar, tagged]
      obtain ⟨after, rfl, -⟩ := dollarTag_iff.mp tagged
      dsimp only
      rw [drop_tag]
      have splits := (delimited_splits ('$' :: tag ++ ['$']) after).keep ('$' :: tag ++ ['$'])
      rw [List.append_assoc] at splits
      exact lexeme_splits splits

theorem next_splits (gap : Option Bool) (char : Char) (rest : List Char) :
    (next gap char rest).1.text ++ (next gap char rest).2 = char :: rest := by
  have second {other : Char} (seen : rest.head? = some other) :
      [char, other] ++ rest.drop 1 = char :: rest := by
    obtain ⟨after, rfl⟩ := List.head?_eq_some_iff.mp seen
    rfl
  have begins := next_begins gap char rest
  generalize next gap char rest = read at begins ⊢
  cases begins with
  | semicolon | blank | symbol => rfl
  | lineComment dash again =>
      exact (lexeme_splits ((lineComment_splits _).keep _)).trans (second again)
  | blockComment slash star =>
      exact (lexeme_splits ((blockComment_splits _ _).keep _)).trans (second star)
  | continued => exact lexeme_splits ((escaped_splits _).keep [char])
  | string | quotedIdentifier => exact lexeme_splits ((quoted_splits _ _).keep [char])
  | dollar sign => exact sign ▸ dollar_splits rest
  | number => exact lexeme_splits (number_splits _)
  | escapeString letter quote =>
      exact (lexeme_splits ((escaped_splits _).keep _)).trans (second quote)
  | identifier => exact lexeme_splits (span_splits _ _)

theorem dollar_text (rest : List Char) : (dollar rest).1.text ≠ [] := by
  rw [dollar]
  cases dollarTag rest with
  | some tag => exact List.cons_ne_nil _ _
  | none =>
      dsimp only
      split <;> exact List.cons_ne_nil _ _

theorem number_text {char : Char} {rest : List Char}
    (starts : char.isDigit ∨ char = '.' ∧ rest.head?.any Char.isDigit) :
    (number (char :: rest)).1 ≠ [] := by
  rw [number, keep, List.append_assoc]
  obtain digit | ⟨rfl, -⟩ := starts
  · rw [span, List.takeWhile_cons_of_pos digit]
    exact List.cons_ne_nil _ _
  · exact List.cons_ne_nil _ _

theorem next_text (gap : Option Bool) (char : Char) (rest : List Char) :
    (next gap char rest).1.text ≠ [] := by
  have begins := next_begins gap char rest
  generalize next gap char rest = read at begins ⊢
  cases begins with
  | dollar sign => exact dollar_text rest
  | number starts => exact number_text starts
  | identifier starts =>
      have inside : isIdentChar char = true := by simp [isIdentChar, isTagChar, starts]
      rw [lexeme, span, List.takeWhile_cons_of_pos inside]
      exact List.cons_ne_nil _ _
  | _ => exact List.cons_ne_nil _ _

theorem next_semicolon (gap : Option Bool) (rest : List Char) :
    next gap ';' rest = (⟨.semicolon, [';']⟩, rest) := if_pos rfl

theorem next_kind (gap : Option Bool) {char : Char} (other : char ≠ ';') (rest : List Char) :
    (next gap char rest).1.kind ≠ .semicolon := by
  have begins := next_begins gap char rest
  generalize next gap char rest = read at begins ⊢
  cases begins with
  | semicolon same => exact absurd same other
  | dollar =>
      rw [dollar]
      cases dollarTag rest with
      | some tag => exact Kind.noConfusion
      | none =>
          dsimp only
          split <;> exact Kind.noConfusion
  | _ => exact Kind.noConfusion

theorem next_length (gap : Option Bool) (char : Char) (rest : List Char) :
    (next gap char rest).2.length ≤ rest.length := by
  have splits := congrArg List.length (next_splits gap char rest)
  have taken := List.length_pos_iff.mpr (next_text gap char rest)
  rw [List.length_append, List.length_cons] at splits
  omega

/-- The elements of a text make it up. -/
theorem lexemesFrom_flatMap {fuel : Nat} {text : List Char} (enough : text.length ≤ fuel)
    (gap : Option Bool) : (lexemesFrom fuel gap text).flatMap Lexeme.text = text := by
  induction fuel generalizing gap text with
  | zero =>
      obtain rfl := List.length_eq_zero_iff.mp (Nat.le_zero.mp enough)
      rfl
  | succ fuel ih =>
      cases text with
      | nil => rfl
      | cons char rest =>
          have shorter := next_length gap char rest
          rw [lexemesFrom, List.flatMap_cons, ih (Nat.le_trans shorter (Nat.le_of_succ_le_succ enough)),
            next_splits]

theorem lexemes_flatMap (text : List Char) : (lexemes text).flatMap Lexeme.text = text :=
  lexemesFrom_flatMap (Nat.le_refl _) none

end OpenGauss.Lib.SqlLexical
