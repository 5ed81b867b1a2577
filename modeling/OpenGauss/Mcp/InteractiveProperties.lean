import OpenGauss.Lib.SqlLexical
import OpenGauss.Mcp.Interactive

/-! Where the interactive mode cuts: at the semicolons of SQL, if no element is
of a kind that the loop reads in another way. -/

set_option autoImplicit false

namespace OpenGauss.Mcp.SqlTokenizer

open Driver Lib Lib.Text

/-! ### The loop comes to the end of its text -/

theorem quoteTurn_drop (quote : Char) (state : State) (c : Char) (rest : Text) :
    ∃ count, (quoteTurn quote state c rest).2 = rest.drop count := by
  rw [quoteTurn]
  split
  · exact ⟨1, rfl⟩
  · split <;> exact ⟨0, rfl⟩

theorem topTurn_drop (state : State) (c : Char) (rest : Text) :
    ∃ count, (topTurn state c rest).2 = rest.drop count := by
  rw [topTurn]
  split
  · exact ⟨0, rfl⟩
  split
  · exact ⟨0, rfl⟩
  split
  · cases openingTag rest with
    | none => exact ⟨0, rfl⟩
    | some tag => exact ⟨tag.length + 1, rfl⟩
  split
  · exact ⟨1, rfl⟩
  split
  · exact ⟨1, rfl⟩
  split <;> exact ⟨0, rfl⟩

theorem turn_drop (state : State) (c : Char) (rest : Text) :
    ∃ count, (turn state c rest).2 = rest.drop count := by
  rw [turn]
  cases state.mode with
  | lineComment => exact ⟨0, rfl⟩
  | blockComment depth =>
      dsimp only
      split
      · exact ⟨1, rfl⟩
      · split
        · exact ⟨1, rfl⟩
        · exact ⟨0, rfl⟩
  | singleQuote | doubleQuote => exact quoteTurn_drop ..
  | dollarQuote tag =>
      dsimp only
      split
      · exact ⟨tag.length + 1, rfl⟩
      · exact ⟨0, rfl⟩
  | top => exact topTurn_drop ..

theorem turn_length (state : State) (c : Char) (rest : Text) :
    (turn state c rest).2.length ≤ rest.length := by
  obtain ⟨count, dropped⟩ := turn_drop state c rest
  rw [dropped, List.length_drop]
  exact Nat.sub_le ..

theorem run_nil (fuel : Nat) (state : State) : run fuel state [] = state := by
  cases fuel <;> rfl

theorem run_fuel {fuel : Nat} {text : Text} (enough : text.length ≤ fuel) (state : State) :
    run fuel state text = run text.length state text := by
  induction fuel using Nat.strongRecOn generalizing state text with
  | ind fuel ih =>
      cases text with
      | nil => rw [run_nil, run_nil]
      | cons c rest =>
          obtain ⟨fuel, rfl⟩ : ∃ less, fuel = less + 1 := Nat.exists_eq_add_one.mpr (by
            rw [List.length_cons] at enough
            omega)
          have shorter := turn_length state c rest
          have inner : rest.length ≤ fuel := Nat.le_of_succ_le_succ enough
          have left := ih fuel (Nat.lt_succ_self _) (Nat.le_trans shorter inner) (turn state c rest).1
          have right := ih rest.length (Nat.lt_succ_of_le inner) shorter (turn state c rest).1
          exact left.trans right.symm

/-- What the loop answers if it goes on with a text. -/
def finish (state : State) (text : Text) : SplitResult :=
  let final := run text.length state text
  { complete := final.complete, remainder := trimStart final.current }

theorem finish_cons (state : State) (c : Char) (rest : Text) :
    finish state (c :: rest) = finish (turn state c rest).1 (turn state c rest).2 := by
  have final := run_fuel (turn_length state c rest) (turn state c rest).1
  rw [finish, finish, ← final]
  rfl

/-! ### What the loop reads in a mode -/

/-- In a mode the loop takes from a text what a reader does, and is then outside
of any element. -/
def Follows (mode : Mode) (text : Text) (read : Text × Text) : Prop :=
  ∀ complete current, finish ⟨complete, current, mode⟩ text =
    finish ⟨complete, current ++ read.1, .top⟩ read.2

/-- A turn that takes `chars`. -/
def Turns (mode : Mode) (c : Char) (rest : Text) (chars : Text) (after : Mode) (later : Text) : Prop :=
  ∀ complete current, turn ⟨complete, current, mode⟩ c rest = (⟨complete, current ++ chars, after⟩, later)

theorem Follows.nil (mode : Mode) : Follows mode [] ([], []) := by
  intro complete current
  rw [List.append_nil]
  rfl

theorem Turns.follows {mode after : Mode} {c : Char} {rest chars later : Text} {read : Text × Text}
    (turns : Turns mode c rest chars after later) (follows : Follows after later read) :
    Follows mode (c :: rest) (SqlLexical.keep chars read) := by
  intro complete current
  rw [finish_cons, turns, follows, List.append_assoc]
  rfl

/-- A turn into a mode, and what the loop reads in it. -/
theorem Follows.enter {c : Char} {rest chars later : Text} {read : Text × Text} (after : Mode)
    (turns : Turns .top c rest chars after later) (follows : Follows after later read) :
    Follows .top (c :: rest) (SqlLexical.keep chars read) := turns.follows follows

theorem Follows.refl (text : Text) : Follows .top text ([], text) := by
  intro complete current
  rw [List.append_nil]

theorem Turns.ends {mode : Mode} {c : Char} {rest chars later : Text}
    (turns : Turns mode c rest chars .top later) : Follows mode (c :: rest) (chars, later) := by
  have follows := turns.follows (Follows.refl later)
  rwa [SqlLexical.keep, List.append_nil] at follows

theorem Follows.trans {mode : Mode} {text chars later : Text} {read : Text × Text}
    (first : Follows mode text (chars, later)) (second : Follows .top later read) :
    Follows mode text (SqlLexical.keep chars read) := by
  intro complete current
  rw [first, second, List.append_assoc]
  rfl

/-! ### Quotes -/

section Quotes

variable {mode : Mode} {quote : Char}
  (quotes : ∀ state c rest, state.mode = mode → turn state c rest = quoteTurn quote state c rest)

include quotes

theorem quoted_follows (text : Text) : Follows mode text (SqlLexical.quoted quote text) := by
  have ends {rest : Text} (last : rest.head? ≠ some quote) :
      Follows mode (quote :: rest) ([quote], rest) := by
    apply Turns.ends
    intro complete current
    rw [quotes _ _ _ rfl, quoteTurn, if_neg fun both => last both.2, if_pos rfl]
    rfl
  induction text using SqlLexical.quoted.induct quote with
  | case1 => exact .nil mode
  | case2 =>
      have last : ([] : Text).head? ≠ some quote := (Option.some_ne_none quote).symm
      exact SqlLexical.quoted_end last ▸ ends last
  | case3 later ih =>
      rw [SqlLexical.quoted_double]
      refine Turns.follows (fun complete current => ?_) ih
      rw [quotes _ _ _ rfl, quoteTurn, if_pos ⟨rfl, rfl⟩]
      rfl
  | case4 next later other =>
      have last : (next :: later).head? ≠ some quote := by simpa using other
      exact SqlLexical.quoted_end last ▸ ends last
  | case5 char rest other ih =>
      rw [SqlLexical.quoted_char other]
      refine Turns.follows (fun complete current => ?_) ih
      rw [quotes _ _ _ rfl, quoteTurn, if_neg fun both => other both.1, if_neg other]
      rfl

end Quotes

theorem singleQuote_follows (text : Text) :
    Follows .singleQuote text (SqlLexical.quoted '\'' text) := by
  refine quoted_follows (fun state c rest same => ?_) text
  rw [turn, same]

theorem doubleQuote_follows (text : Text) :
    Follows .doubleQuote text (SqlLexical.quoted '"' text) := by
  refine quoted_follows (fun state c rest same => ?_) text
  rw [turn, same]

/-- Whether a string constant has a quote behind a backslash. -/
def escapesQuote : Text → Bool
  | [] | [_] => false
  | c :: next :: later =>
      if c = '\\' then next == '\'' || escapesQuote later else escapesQuote (next :: later)

theorem escapesQuote_pair (next : Char) (later : Text) :
    escapesQuote ('\\' :: next :: later) = (next == '\'' || escapesQuote later) := rfl

theorem escapesQuote_char {c : Char} (literal : c ≠ '\\') (rest : Text) :
    escapesQuote (c :: rest) = escapesQuote rest := by
  cases rest with
  | nil => rfl
  | cons next later => exact if_neg literal

theorem escaped_quoted {text : Text} (plain : escapesQuote (SqlLexical.escaped text).1 = false) :
    SqlLexical.escaped text = SqlLexical.quoted '\'' text := by
  induction text using SqlLexical.escaped.induct with
  | case1 | case2 | case4 => rfl
  | case3 next later ih =>
      change escapesQuote ('\\' :: next :: (SqlLexical.escaped later).1) = false at plain
      rw [escapesQuote_pair, Bool.or_eq_false_iff] at plain
      have other : next ≠ '\'' := by simpa using plain.1
      rw [SqlLexical.quoted_char (by decide), SqlLexical.quoted_char other, ← ih plain.2]
      rfl
  | case5 later _ ih =>
      change escapesQuote ('\'' :: '\'' :: (SqlLexical.escaped later).1) = false at plain
      rw [escapesQuote_char (by decide), escapesQuote_char (by decide)] at plain
      rw [SqlLexical.quoted_double, ← ih plain]
      rfl
  | case6 next later other =>
      have last : (next :: later).head? ≠ some '\'' := by simpa using other
      rw [SqlLexical.escaped_end last, SqlLexical.quoted_end last]
  | case7 char rest literal other ih =>
      rw [SqlLexical.escaped_char literal other] at plain ⊢
      change escapesQuote (char :: (SqlLexical.escaped rest).1) = false at plain
      rw [escapesQuote_char literal] at plain
      rw [SqlLexical.quoted_char other, ih plain]

/-! ### Comments -/

theorem lineComment_follows {text : Text}
    (newline : (SqlLexical.lineComment text).1.getLast? ≠ some '\r') :
    Follows .lineComment text (SqlLexical.lineComment text) := by
  induction text with
  | nil => exact .nil _
  | cons char rest ih =>
      have skips {char : Char} {later : Text} (other : char ≠ '\n') :
          Turns .lineComment char later [char] .lineComment later := by
        intro complete current
        rw [turn, if_neg other]
        rfl
      have ends (later : Text) : Turns .lineComment '\n' later ['\n'] .top later :=
        fun _ _ => rfl
      rw [SqlLexical.lineComment] at newline ⊢
      by_cases last : char = '\n'
      · rw [if_pos last, last]
        exact (ends rest).ends
      rw [if_neg last] at newline ⊢
      by_cases carriage : char = '\r'
      · rw [if_pos carriage] at newline ⊢
        by_cases both : rest.head? = some '\n'
        · rw [if_pos both]
          obtain ⟨later, rfl⟩ := List.head?_eq_some_iff.mp both
          exact carriage ▸ (skips last).follows (ends later).ends
        · rw [if_neg both, carriage] at newline
          exact absurd rfl newline
      · rw [if_neg carriage] at newline ⊢
        refine (skips last).follows (ih fun lone => newline ?_)
        rw [SqlLexical.keep, List.getLast?_append, lone]
        rfl

/-- Whether less than `limit` comments are open at every place of the rest of a
block comment in which `depth` more are open. -/
def nestsBelow (limit : Nat) : Nat → Text → Bool
  | _, [] | _, [_] => true
  | depth, char :: next :: later =>
      if char = '/' ∧ next = '*' then depth + 2 < limit && nestsBelow limit (depth + 1) later
      else if char = '*' ∧ next = '/' then nestsBelow limit (depth - 1) later
      else nestsBelow limit depth (next :: later)

theorem nestsBelow_cons (limit depth : Nat) (char next : Char) (later : Text) :
    nestsBelow limit depth (char :: next :: later) =
      if char = '/' ∧ next = '*' then depth + 2 < limit && nestsBelow limit (depth + 1) later
      else if char = '*' ∧ next = '/' then nestsBelow limit (depth - 1) later
      else nestsBelow limit depth (next :: later) := rfl

theorem nestsBelow_char {char : Char} {rest : Text} {limit depth : Nat}
    (noOpen : ¬(char = '/' ∧ rest.head? = some '*'))
    (noClose : ¬(char = '*' ∧ rest.head? = some '/')) :
    nestsBelow limit depth (char :: rest) = nestsBelow limit depth rest := by
  cases rest with
  | nil => rfl
  | cons next later =>
      rw [nestsBelow_cons, if_neg (by simpa using noOpen), if_neg (by simpa using noClose)]

theorem blockDepth_below {depth : Nat} (below : depth + 1 < 2 ^ 32) :
    blockDepth (depth + 1) = .blockComment (depth + 1) := by
  rw [blockDepth, Nat.mod_eq_of_lt below, if_neg (Nat.succ_ne_zero depth)]

theorem blockComment_follows {depth : Nat} {text : Text} (below : depth + 1 < 2 ^ 32)
    (nests : nestsBelow (2 ^ 32) depth (SqlLexical.blockComment depth text).1 = true) :
    Follows (.blockComment (depth + 1)) text (SqlLexical.blockComment depth text) := by
  have skips {depth : Nat} {char : Char} {rest : Text}
      (noOpen : ¬(char = '/' ∧ rest.head? = some '*'))
      (noClose : ¬(char = '*' ∧ rest.head? = some '/')) :
      Turns (.blockComment (depth + 1)) char rest [char] (.blockComment (depth + 1)) rest := by
    exact fun complete current => (if_neg noOpen).trans (if_neg noClose)
  have closes (depth : Nat) (later : Text) :
      Turns (.blockComment (depth + 1)) '*' ('/' :: later) ['*', '/'] (blockDepth depth) later :=
    fun _ _ => rfl
  induction depth, text using SqlLexical.blockComment.induct with
  | case1 => exact .nil _
  | case2 depth char =>
      exact (skips (fun both => by cases both.2) (fun both => by cases both.2)).follows (.nil _)
  | case3 depth char next later opens ih =>
      obtain ⟨rfl, rfl⟩ := opens
      rw [SqlLexical.blockComment_open] at nests ⊢
      change nestsBelow (2 ^ 32) depth ('/' :: '*' :: (SqlLexical.blockComment (depth + 1) later).1) = true at nests
      rw [nestsBelow_cons, if_pos ⟨rfl, rfl⟩, Bool.and_eq_true, decide_eq_true_eq] at nests
      have deeper := ih nests.1 nests.2
      rw [← blockDepth_below nests.1] at deeper
      exact Turns.follows (fun _ _ => rfl) deeper
  | case4 char next later noOpen ends =>
      obtain ⟨rfl, rfl⟩ := ends
      rw [SqlLexical.blockComment_end]
      exact (closes 0 later).ends
  | case5 char next later noOpen ends depth ih =>
      obtain ⟨rfl, rfl⟩ := ends
      rw [SqlLexical.blockComment_close] at nests ⊢
      have outer : depth + 1 < 2 ^ 32 := Nat.lt_of_succ_lt below
      have follows := ih outer nests
      rw [← blockDepth_below outer] at follows
      exact (closes (depth + 1) later).follows follows
  | case6 depth char next later noOpen noClose ih =>
      have left : ¬(char = '/' ∧ (next :: later).head? = some '*') := by simpa using noOpen
      have right : ¬(char = '*' ∧ (next :: later).head? = some '/') := by simpa using noClose
      rw [SqlLexical.blockComment_char depth left right] at nests ⊢
      have inside := SqlLexical.blockComment_splits depth (next :: later)
      change nestsBelow _ _ (char :: (SqlLexical.blockComment depth (next :: later)).1) = true at nests
      rw [nestsBelow_char (fun opens => left ⟨opens.1, inside.head opens.2⟩)
        fun closes => right ⟨closes.1, inside.head closes.2⟩] at nests
      exact (skips left right).follows (ih below nests)

/-! ### Dollar quotes -/

theorem dollarQuote_follows (tag text : Text) :
    Follows (.dollarQuote tag) text (SqlLexical.delimited ('$' :: tag ++ ['$']) text) := by
  induction text with
  | nil => exact .nil _
  | cons char rest ih =>
      have same : ('$' :: tag ++ ['$']).isPrefixOf (char :: rest) = true ↔
          char = '$' ∧ (tag ++ ['$']).isPrefixOf rest = true := by
        rw [List.cons_append, List.isPrefixOf_cons_cons, Bool.and_eq_true, beq_iff_eq, eq_comm]
      rw [SqlLexical.delimited]
      split
      · rename_i found
        obtain ⟨rfl, closes⟩ := same.mp found
        have size : ('$' :: tag ++ ['$']).length = tag.length + 1 + 1 := by
          rw [List.length_append]
          rfl
        rw [size]
        exact Turns.ends fun _ _ => if_pos ⟨rfl, closes⟩
      · rename_i noEnd
        exact Turns.follows (fun _ _ => if_neg fun both => noEnd (same.mpr both)) ih

theorem openingTag_iff {text tag : Text} :
    openingTag text = some tag ↔
      ∃ after, text = tag ++ '$' :: after ∧ (∀ char ∈ tag, isTagChar char = true) ∧
        ∀ char, tag.head? = some char → isTagStart char = true := by
  refine SqlLexical.tagBy_iff (fun char starts => ?_) (by decide)
  simp only [isTagStart, isTagChar, Char.isAlphanum, Bool.or_eq_true] at starts ⊢
  exact starts.imp_left .inl

theorem isTagStart_ascii {char : Char} (ascii : char.toNat < 128) :
    isTagStart char = SqlLexical.isIdentStart char := by
  have wide : ¬128 ≤ char.toNat := Nat.not_le.mpr ascii
  simp [isTagStart, SqlLexical.isIdentStart, wide]

theorem isTagChar_ascii {char : Char} (ascii : char.toNat < 128) :
    isTagChar char = SqlLexical.isTagChar char := by
  rw [SqlLexical.isTagChar, ← isTagStart_ascii ascii, isTagChar, isTagStart, Char.isAlphanum]
  exact Bool.or_right_comm ..

theorem ascii_of_isTagChar {char : Char} (inside : isTagChar char = true) : char.toNat < 128 := by
  have letters : char.isAlpha = (char.isUpper || char.isLower) := rfl
  have capital : char.isUpper = decide (char.val ≥ 'A'.val ∧ char.val ≤ 'Z'.val) := rfl
  have small : char.isLower = (decide (char.val ≥ 'a'.val) && decide (char.val ≤ 'z'.val)) := rfl
  simp only [isTagChar, Char.isAlphanum, letters, capital, small, Char.isDigit, Bool.or_eq_true,
    Bool.and_eq_true, decide_eq_true_eq, beq_iff_eq, ge_iff_le, UInt32.le_iff_toNat_le] at inside
  obtain ((⟨-, upper⟩ | ⟨-, upper⟩) | ⟨-, upper⟩) | rfl := inside
  · exact Nat.lt_of_le_of_lt upper (by decide)
  · exact Nat.lt_of_le_of_lt upper (by decide)
  · exact Nat.lt_of_le_of_lt upper (by decide)
  · decide

theorem openingTag_dollarTag {text tag : Text} :
    openingTag text = some tag ↔
      SqlLexical.dollarTag text = some tag ∧ ∀ char ∈ tag, char.toNat < 128 := by
  rw [openingTag_iff, SqlLexical.dollarTag_iff]
  constructor
  · rintro ⟨after, rfl, all, first⟩
    have ascii : ∀ char ∈ tag, char.toNat < 128 := fun char member =>
      ascii_of_isTagChar (all char member)
    refine ⟨⟨after, rfl, fun char member => ?_, fun char head => ?_⟩, ascii⟩
    · exact isTagChar_ascii (ascii char member) ▸ all char member
    · exact isTagStart_ascii (ascii char (List.mem_of_mem_head? head)) ▸ first char head
  · rintro ⟨⟨after, rfl, all, first⟩, ascii⟩
    refine ⟨after, rfl, fun char member => ?_, fun char head => ?_⟩
    · exact isTagChar_ascii (ascii char member) ▸ all char member
    · exact isTagStart_ascii (ascii char (List.mem_of_mem_head? head)) ▸ first char head

/-- Whether the loop takes a dollar sign of a text to open a quote. -/
def opensDollarQuote : Text → Bool
  | [] => false
  | c :: rest => c == '$' && (openingTag rest).isSome || opensDollarQuote rest

theorem openingTag_append {text after : Text} (quiet : openingTag text = none)
    (boundary : ∀ char, after.head? = some char → SqlLexical.isIdentChar char = false) :
    openingTag (text ++ after) = none := by
  by_contra opens
  obtain ⟨tag, opens⟩ := Option.ne_none_iff_exists'.mp opens
  obtain ⟨later, same, all, first⟩ := openingTag_iff.mp opens
  obtain ⟨inside, rfl, behind⟩ | ⟨inside, whole, behind⟩ := List.append_eq_append_iff.mp same
  · cases inside with
    | nil =>
        have ends := boundary '$' (by rw [behind]; rfl)
        cases ends
    | cons char inside =>
        have ends := boundary char (by rw [behind]; rfl)
        have tagged := all char (List.mem_append_right text List.mem_cons_self)
        rw [isTagChar_ascii (ascii_of_isTagChar tagged)] at tagged
        rw [SqlLexical.isIdentChar, tagged] at ends
        cases ends
  · cases inside with
    | nil =>
        have ends := boundary '$' (by rw [← List.nil_append after, ← behind]; rfl)
        cases ends
    | cons char inside =>
        obtain ⟨rfl, -⟩ := List.cons.inj behind
        have found := openingTag_iff.mpr ⟨inside, whole, all, first⟩
        rw [quiet] at found
        cases found

/-! ### Outside of any element -/

theorem pushes {c : Char} {rest : Text} (common : c ≠ '\'' ∧ c ≠ '"' ∧ c ≠ ';')
    (noComment : ¬(c = '-' ∧ rest.head? = some '-') ∧ ¬(c = '/' ∧ rest.head? = some '*'))
    (noQuote : c = '$' → openingTag rest = none) : Turns .top c rest [c] .top rest := by
  intro complete current
  change topTurn _ c rest = _
  rw [topTurn, if_neg common.1, if_neg common.2.1]
  by_cases dollar : c = '$'
  · rw [if_pos dollar, noQuote dollar]
    rfl
  · rw [if_neg dollar, if_neg noComment.1, if_neg noComment.2, if_neg common.2.2]
    rfl

/-- A character that begins no element of more than one character for the loop. -/
def Quiet (c : Char) : Prop := ∀ special ∈ ['\'', '"', '$', '-', '/', ';'], c ≠ special

theorem Quiet.pushes {c : Char} (quiet : Quiet c) (rest : Text) : Turns .top c rest [c] .top rest := by
  have other (special : Char) (member : special ∈ ['\'', '"', '$', '-', '/', ';']) : c ≠ special :=
    quiet special member
  refine SqlTokenizer.pushes ⟨other _ (by decide), other _ (by decide), other _ (by decide)⟩
    ⟨fun both => ?_, fun both => ?_⟩ fun dollar => ?_
  · exact other '-' (by decide) both.1
  · exact other '/' (by decide) both.1
  · exact absurd dollar (other '$' (by decide))

theorem span_follows {inside : Char → Bool} (quiet : ∀ c, inside c = true → Quiet c) (text : Text) :
    Follows .top text (SqlLexical.span inside text) := by
  induction text with
  | nil => exact .nil _
  | cons c rest ih =>
      by_cases taken : inside c = true
      · have step := ((quiet c taken).pushes rest).follows ih
        rw [SqlLexical.span, List.takeWhile_cons_of_pos taken, List.dropWhile_cons_of_pos taken]
        exact step
      · rw [SqlLexical.span, List.takeWhile_cons_of_neg taken, List.dropWhile_cons_of_neg taken]
        exact .refl _

theorem quiet_of {inside : Char → Bool}
    (outside : ∀ special ∈ ['\'', '"', '$', '-', '/', ';'], inside special = false) {c : Char}
    (taken : inside c = true) : Quiet c := by
  rintro special member rfl
  rw [outside c member] at taken
  cases taken

theorem quiet_of_isDigit {c : Char} (digit : c.isDigit = true) : Quiet c :=
  quiet_of (by decide) digit

theorem quiet_of_isSpace {c : Char} (space : SqlLexical.isSpace c = true) : Quiet c :=
  quiet_of (by decide) space

theorem quiet_of_isTagChar {c : Char} (inside : SqlLexical.isTagChar c = true) : Quiet c :=
  quiet_of (by decide) inside

theorem sign_follows {text : Text} (digit : (SqlLexical.sign text).2.head?.any Char.isDigit = true) :
    Follows .top text (SqlLexical.sign text) := by
  rw [SqlLexical.sign] at digit ⊢
  split
  · rename_i signed
    rw [if_pos signed] at digit
    obtain ⟨c, rest, rfl⟩ : ∃ c rest, text = c :: rest := by
      cases text with
      | nil => cases signed <;> contradiction
      | cons c rest => exact ⟨c, rest, rfl⟩
    have letter : c = '+' ∨ c = '-' := by simpa using signed
    have notAgain {other : Char} (special : other.isDigit = false) : rest.head? ≠ some other := by
      intro seen
      rw [List.drop_one, List.tail_cons, seen, Option.any_some, special] at digit
      cases digit
    refine Turns.ends (SqlTokenizer.pushes ?_ ⟨fun both => ?_, fun both => ?_⟩ fun dollar => ?_)
    · obtain rfl | rfl := letter <;> decide
    · exact notAgain (by decide) both.2
    · exact notAgain (by decide) both.2
    · obtain rfl | rfl := letter <;> cases dollar
  · exact .refl _

theorem exponent_follows (text : Text) : Follows .top text (SqlLexical.exponent text) := by
  cases text with
  | nil => exact .nil _
  | cons c rest =>
      rw [SqlLexical.exponent]
      split
      · rename_i both
        obtain ⟨letter, digit⟩ := both
        have quiet : Quiet c := by
          obtain rfl | rfl := letter <;> (rw [Quiet]; decide)
        have digits := span_follows (fun _ => quiet_of_isDigit) (SqlLexical.sign rest).2
        exact (quiet.pushes rest).follows ((sign_follows digit).trans digits)
      · exact .refl _

theorem fraction_follows (text : Text) : Follows .top text (SqlLexical.fraction text) := by
  cases text with
  | nil => exact .nil _
  | cons c rest =>
      rw [SqlLexical.fraction]
      split
      · rename_i point
        have quiet : Quiet c := by
          rw [point, Quiet]
          decide
        exact (quiet.pushes rest).follows (span_follows (fun _ => quiet_of_isDigit) rest)
      · exact .refl _

theorem number_follows (text : Text) : Follows .top text (SqlLexical.number text) := by
  have whole := span_follows (fun _ => quiet_of_isDigit) text
  exact (whole.trans (fraction_follows _)).trans (exponent_follows _)

theorem identifier_follows {text after : Text}
    (inside : ∀ c ∈ text, SqlLexical.isIdentChar c = true) (closed : opensDollarQuote text = false)
    (boundary : ∀ char, after.head? = some char → SqlLexical.isIdentChar char = false) :
    Follows .top (text ++ after) (text, after) := by
  induction text with
  | nil => exact .refl _
  | cons c text ih =>
      rw [opensDollarQuote, Bool.or_eq_false_iff] at closed
      have later := ih (fun char member => inside char (List.mem_cons_of_mem _ member)) closed.2
      have first := inside c List.mem_cons_self
      rw [SqlLexical.isIdentChar, Bool.or_eq_true, beq_iff_eq] at first
      by_cases dollar : c = '$'
      · have unopened : openingTag text = none := by simpa [dollar] using closed.1
        refine Turns.follows (SqlTokenizer.pushes ?_ ⟨fun both => ?_, fun both => ?_⟩ fun _ => ?_) later
        · rw [dollar]
          decide
        · exact absurd (dollar ▸ both.1) (by decide)
        · exact absurd (dollar ▸ both.1) (by decide)
        · exact openingTag_append unopened boundary
      · exact ((quiet_of_isTagChar (first.resolve_right dollar)).pushes _).follows later

/-! ### The statements -/

/-- Whether the loop reads an element as it is: it knows no backslash escapes
and no identifiers, takes only ASCII letters for those of a tag, ends a line
only at a line feed and counts open comments in 32 bits. -/
def readsAsIs (lexeme : SqlLexical.Lexeme) : Bool :=
  match lexeme.kind with
  | .escapeString => !escapesQuote lexeme.text
  | .identifier => !opensDollarQuote lexeme.text
  | .dollarString tag => tag.all (·.toNat < 128)
  | .lineComment => lexeme.text.getLast? != some '\r'
  | .blockComment => nestsBelow (2 ^ 32) 0 (lexeme.text.drop 2)
  | _ => true

theorem escaped_follows {text : Text} (plain : escapesQuote (SqlLexical.escaped text).1 = false) :
    Follows .singleQuote text (SqlLexical.escaped text) := by
  rw [escaped_quoted plain]
  exact singleQuote_follows text

theorem dollar_follows {rest : Text} (asIs : readsAsIs (SqlLexical.dollar rest).1 = true) :
    Follows .top ('$' :: rest) ((SqlLexical.dollar rest).1.text, (SqlLexical.dollar rest).2) := by
  cases tagged : SqlLexical.dollarTag rest with
  | some tag =>
      rw [SqlLexical.dollar, tagged] at asIs ⊢
      have ascii : ∀ char ∈ tag, char.toNat < 128 := by simpa [readsAsIs, SqlLexical.lexeme] using asIs
      have opens : openingTag rest = some tag := openingTag_dollarTag.mpr ⟨tagged, ascii⟩
      refine Follows.enter (.dollarQuote tag) (fun complete current => ?_) (dollarQuote_follows tag _)
      change topTurn _ '$' rest = _
      rw [topTurn, if_neg (by decide), if_neg (by decide), if_pos rfl, opens]
      rfl
  | none =>
      have unopened : openingTag rest = none := by
        by_contra opens
        obtain ⟨tag, opens⟩ := Option.ne_none_iff_exists'.mp opens
        rw [(openingTag_dollarTag.mp opens).1] at tagged
        cases tagged
      have sign : Turns .top '$' rest ['$'] .top rest :=
        SqlTokenizer.pushes (by decide) ⟨fun both => absurd both.1 (by decide),
          fun both => absurd both.1 (by decide)⟩ fun _ => unopened
      rw [SqlLexical.dollar, tagged]
      dsimp only
      split
      · exact sign.follows (span_follows (fun _ => quiet_of_isDigit) rest)
      · exact sign.ends

theorem next_follows {gap : Option Bool} {char : Char} {rest : Text}
    (asIs : readsAsIs (SqlLexical.next gap char rest).1 = true)
    (inside : (SqlLexical.next gap char rest).1.kind ≠ .semicolon) :
    Follows .top (char :: rest) ((SqlLexical.next gap char rest).1.text, (SqlLexical.next gap char rest).2) := by
  have begins := SqlLexical.next_begins gap char rest
  generalize SqlLexical.next gap char rest = read at begins asIs inside ⊢
  cases begins with
  | semicolon => exact absurd rfl inside
  | blank space => exact ((quiet_of_isSpace space).pushes rest).ends
  | lineComment dash again =>
      obtain rfl := dash
      obtain ⟨later, rfl⟩ := List.head?_eq_some_iff.mp again
      have last : (['-', '-'] ++ (SqlLexical.lineComment later).1).getLast? ≠ some '\r' :=
        bne_iff_ne.mp asIs
      rw [List.getLast?_append] at last
      have newline : (SqlLexical.lineComment later).1.getLast? ≠ some '\r' :=
        fun lone => last (by rw [lone]; rfl)
      exact Follows.enter .lineComment (fun _ _ => rfl) (lineComment_follows newline)
  | blockComment slash star =>
      obtain rfl := slash
      obtain ⟨later, rfl⟩ := List.head?_eq_some_iff.mp star
      have nests : nestsBelow (2 ^ 32) 0 (SqlLexical.blockComment 0 later).1 = true := asIs
      exact Follows.enter (.blockComment 1) (fun _ _ => rfl) (blockComment_follows (by decide) nests)
  | continued quote =>
      obtain rfl := quote
      have plain : (!escapesQuote ('\'' :: (SqlLexical.escaped rest).1)) = true := asIs
      rw [Bool.not_eq_true', escapesQuote_char (by decide)] at plain
      exact Follows.enter .singleQuote (fun _ _ => rfl) (escaped_follows plain)
  | string quote =>
      obtain rfl := quote
      exact Follows.enter .singleQuote (fun _ _ => rfl) (singleQuote_follows rest)
  | quotedIdentifier quote =>
      obtain rfl := quote
      exact Follows.enter .doubleQuote (fun _ _ => rfl) (doubleQuote_follows rest)
  | dollar sign =>
      obtain rfl := sign
      exact dollar_follows asIs
  | number => exact number_follows _
  | escapeString letter quote =>
      obtain ⟨later, rfl⟩ := List.head?_eq_some_iff.mp quote
      have quiet : Quiet char := by
        obtain rfl | rfl := letter <;> (rw [Quiet]; decide)
      have literal : char ≠ '\\' := by
        obtain rfl | rfl := letter <;> decide
      have plain : (!escapesQuote (char :: '\'' :: (SqlLexical.escaped later).1)) = true := asIs
      rw [Bool.not_eq_true', escapesQuote_char literal, escapesQuote_char (by decide)] at plain
      have string : Follows .top ('\'' :: later) (SqlLexical.keep ['\''] (SqlLexical.escaped later)) :=
        Follows.enter .singleQuote (fun _ _ => rfl) (escaped_follows plain)
      exact (quiet.pushes _).follows string
  | identifier starts =>
      have whole : (char :: rest).takeWhile SqlLexical.isIdentChar ++
          (char :: rest).dropWhile SqlLexical.isIdentChar = char :: rest :=
        List.takeWhile_append_dropWhile
      have closed : opensDollarQuote ((char :: rest).takeWhile SqlLexical.isIdentChar) = false :=
        (Bool.not_eq_true' _).mp asIs
      have boundary (c : Char)
          (first : ((char :: rest).dropWhile SqlLexical.isIdentChar).head? = some c) :
          SqlLexical.isIdentChar c = false := by
        have ends := List.head?_dropWhile_not SqlLexical.isIdentChar (char :: rest)
        rwa [first] at ends
      have follows := identifier_follows (fun _ => List.mem_takeWhile_imp) closed boundary
      rwa [whole] at follows
  | symbol common noComment =>
      exact (SqlTokenizer.pushes ⟨common.2.1, common.2.2.1, common.1⟩ noComment
        fun dollar => absurd dollar common.2.2.2).ends

/-- The statements of a text, without the empty ones. -/
def statements (pieces : List Text × Text) : SplitResult :=
  { complete := (pieces.1.map trim).filter (· ≠ []), remainder := trimStart pieces.2 }

theorem finish_semicolon (complete : List Text) (current rest : Text) :
    finish ⟨complete, current, .top⟩ (';' :: rest) =
      finish ⟨complete ++ [trim current].filter (· ≠ []), [], .top⟩ rest := by
  rw [finish_cons]
  change finish (State.finishStatement _) rest = _
  rw [State.finishStatement]
  by_cases empty : trim current = []
  · simp [empty]
  · simp [empty]

theorem finish_nil (complete : List Text) (current : Text) (mode : Mode) :
    finish ⟨complete, current, mode⟩ [] = ⟨complete ++ [], trimStart current⟩ := by
  rw [List.append_nil]
  rfl

theorem finish_lexemes {fuel : Nat} {gap : Option Bool} {text : Text} (enough : text.length ≤ fuel)
    (asIs : ∀ lexeme ∈ SqlLexical.lexemesFrom fuel gap text, readsAsIs lexeme = true)
    (complete : List Text) (current : Text) :
    finish ⟨complete, current, .top⟩ text =
      let pieces := statements (SqlLexical.cutFrom current (SqlLexical.lexemesFrom fuel gap text))
      { pieces with complete := complete ++ pieces.complete } := by
  induction fuel generalizing gap text complete current with
  | zero =>
      obtain rfl := List.length_eq_zero_iff.mp (Nat.le_zero.mp enough)
      exact finish_nil complete current .top
  | succ fuel ih =>
      cases text with
      | nil => exact finish_nil complete current .top
      | cons char rest =>
          rw [SqlLexical.lexemesFrom] at asIs ⊢
          have shorter := SqlLexical.next_length gap char rest
          have behind : ∀ lexeme ∈ SqlLexical.lexemesFrom fuel
              (SqlLexical.gapAfter gap (SqlLexical.next gap char rest).1)
              (SqlLexical.next gap char rest).2, readsAsIs lexeme = true :=
            fun lexeme member => asIs lexeme (List.mem_cons_of_mem _ member)
          have later := ih (Nat.le_trans shorter (Nat.le_of_succ_le_succ enough)) behind
          by_cases ends : char = ';'
          · obtain rfl := ends
            rw [SqlLexical.next_semicolon] at later ⊢
            rw [finish_semicolon, later, SqlLexical.cutFrom, if_pos rfl]
            simp only [statements, List.append_assoc, List.map_cons, ← List.filter_append]
            rfl
          · have inside := SqlLexical.next_kind gap ends rest
            have follows := next_follows (asIs _ List.mem_cons_self) inside
            rw [follows, later, SqlLexical.cutFrom, if_neg inside]

/-- The loop cuts a text at the semicolons of SQL, if it reads every element as
it is. -/
theorem splitStatements_cuts (input : Text)
    (asIs : ∀ lexeme ∈ SqlLexical.lexemes input, readsAsIs lexeme = true) :
    splitStatements input = statements (SqlLexical.cut (SqlLexical.lexemes input)) :=
  finish_lexemes (Nat.le_refl _) asIs [] []

theorem splitStatements_cuts_elements :
    splitStatements "SELECT $t$;$t$, ';''', E'\\n;' /* /* ; */ ; */; ; -- ;\n UPDATE a$1 SET \";\" = $1".toList =
      ⟨["SELECT $t$;$t$, ';''', E'\\n;' /* /* ; */ ; */".toList],
        "-- ;\n UPDATE a$1 SET \";\" = $1".toList⟩ :=
  (splitStatements_cuts _ (by decide +kernel)).trans (by decide +kernel)

/-- The loop ends an escape string at a quote behind a backslash. -/
theorem not_cuts_escapedQuote :
    splitStatements "SELECT E'\\'; DROP TABLE t; --';".toList ≠
      statements (SqlLexical.cut (SqlLexical.lexemes "SELECT E'\\'; DROP TABLE t; --';".toList)) := by
  decide +kernel

end OpenGauss.Mcp.SqlTokenizer
