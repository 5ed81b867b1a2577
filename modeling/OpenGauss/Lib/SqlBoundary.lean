import OpenGauss.Lib.SqlLexical

/-! The elements of a text that stands in another one. In front of a character
that no element goes on with, they are those of the text alone, unless the text
leaves one open, which then goes on past the text whatever follows. -/

set_option autoImplicit false

namespace OpenGauss.Lib.SqlLexical

/-- The characters that no element goes on with. -/
def stops : List Char := [')', ';', ' ', '\t', '\x0b', '\x0c', '\r', '\n']

/-- What a reader answers for a text, `here`, and for the text with a stop and a
tail behind it: the stop is left there, or the reader goes on past it. -/
inductive Meets {α : Type} (stop : Char) (here : α × List Char)
    (there : List Char → α × List Char) : Prop where
  | leaves (same : ∀ tail, there tail = (here.1, here.2 ++ stop :: tail))
  | takes (past : ∀ tail, (there tail).2.length ≤ tail.length)

theorem Meets.keep {stop : Char} {here : List Char × List Char}
    {there : List Char → List Char × List Char} (meets : Meets stop here there)
    (chars : List Char) : Meets stop (keep chars here) (fun tail => keep chars (there tail)) := by
  cases meets with
  | leaves same => exact .leaves fun tail => by rw [same]; rfl
  | takes past => exact .takes past

theorem Meets.lexeme {stop : Char} {here : List Char × List Char}
    {there : List Char → List Char × List Char} (meets : Meets stop here there) (kind : Kind) :
    Meets stop (lexeme kind here) (fun tail => lexeme kind (there tail)) := by
  cases meets with
  | leaves same => exact .leaves fun tail => by rw [same]; rfl
  | takes past => exact .takes past

/-- The stop is not the second half of a line end. -/
def NoReturn (stop : Char) (front : List Char) : Prop :=
  stop = '\n' → front.getLast? ≠ some '\r'

theorem NoReturn.suffix {stop : Char} {before front : List Char}
    (apart : NoReturn stop (before ++ front)) : NoReturn stop front := by
  intro newline last
  apply apart newline
  rw [List.getLast?_append, last]
  rfl

theorem Splits.length {text : List Char} {read : List Char × List Char}
    (splits : Splits text read) : read.2.length ≤ text.length := by
  rw [← splits, List.length_append]
  exact Nat.le_add_left _ _

/-! ### The readers before a stop -/

section Stops

variable {stop : Char} (member : stop ∈ stops)

include member

theorem stop_ne {char : Char} (other : char ∉ stops) : stop ≠ char := by
  intro same
  exact other (same ▸ member)

theorem stop_outside {test : Char → Bool} (outside : (stops.all fun char => !test char) = true) :
    test stop = false := by
  have all := List.all_eq_true.mp outside stop member
  rwa [Bool.not_eq_true'] at all

theorem stop_isIdentChar : isIdentChar stop = false := stop_outside member (by decide)

theorem stop_isTagChar : isTagChar stop = false := stop_outside member (by decide)

theorem stop_isIdentStart : isIdentStart stop = false := stop_outside member (by decide)

theorem stop_isDigit : stop.isDigit = false := stop_outside member (by decide)

theorem head_stop {char : Char} (other : char ∉ stops) (front tail : List Char) :
    (front ++ stop :: tail).head? = some char ↔ front.head? = some char := by
  cases front with
  | nil =>
      have apart : stop ≠ char := stop_ne member other
      constructor
      · intro first
        exact absurd (Option.some.inj first) apart
      · intro first
        cases first
  | cons => exact Iff.rfl

omit member in
theorem any_stop {test : Char → Bool} (outside : test stop = false) (front tail : List Char) :
    (front ++ stop :: tail).head?.any test = front.head?.any test := by
  cases front with
  | nil => exact outside
  | cons => rfl

omit member in
theorem drop_stop {char : Char} {front : List Char} (first : front.head? = some char)
    (tail : List Char) : (front ++ stop :: tail).drop 1 = front.drop 1 ++ stop :: tail := by
  obtain ⟨after, rfl⟩ := List.head?_eq_some_iff.mp first
  rfl

omit member in
theorem span_stop {inside : Char → Bool} (outside : inside stop = false) (front tail : List Char) :
    span inside (front ++ stop :: tail) =
      ((span inside front).1, (span inside front).2 ++ stop :: tail) := by
  induction front with
  | nil =>
      rw [span, List.nil_append, List.takeWhile_cons_of_neg (by simp [outside]),
        List.dropWhile_cons_of_neg (by simp [outside])]
      rfl
  | cons char front ih =>
      have parts := Prod.ext_iff.mp ih
      cases holds : inside char with
      | true =>
          have taken := congrArg (List.cons char) parts.1
          simp only [span] at taken parts
          simp only [span, List.cons_append, List.takeWhile_cons_of_pos holds,
            List.dropWhile_cons_of_pos holds, taken, parts.2]
      | false =>
          have not : ¬inside char = true := by simp [holds]
          simp only [span, List.cons_append, List.takeWhile_cons_of_neg not,
            List.dropWhile_cons_of_neg not]

theorem quoted_meets {quote : Char} (other : quote ∉ stops) (front : List Char) :
    Meets stop (quoted quote front) (fun tail => quoted quote (front ++ stop :: tail)) := by
  have apart : stop ≠ quote := stop_ne member other
  induction front using quoted.induct quote with
  | case1 =>
      apply Meets.takes
      intro tail
      rw [List.nil_append, quoted_char apart]
      exact (quoted_splits quote tail).length
  | case2 =>
      apply Meets.leaves
      intro tail
      have ends : (stop :: tail).head? ≠ some quote := by simpa using apart
      have alone : ([] : List Char).head? ≠ some quote := (Option.some_ne_none quote).symm
      rw [quoted_end alone]
      exact quoted_end ends
  | case3 later ih =>
      have meets := ih.keep [quote, quote]
      rw [← quoted_double] at meets
      simpa only [List.cons_append, quoted_double] using meets
  | case4 next later differs =>
      apply Meets.leaves
      intro tail
      have ends : (next :: later).head? ≠ some quote := by simpa using differs
      rw [quoted_end ends]
      exact quoted_end (by simpa using differs)
  | case5 char rest differs ih =>
      have meets := ih.keep [char]
      rw [← quoted_char differs] at meets
      simpa only [List.cons_append, quoted_char differs] using meets

theorem escaped_meets (front : List Char) :
    Meets stop (escaped front) (fun tail => escaped (front ++ stop :: tail)) := by
  have literal : stop ≠ '\\' := stop_ne member (by decide)
  have apart : stop ≠ '\'' := stop_ne member (by decide)
  induction front using escaped.induct with
  | case1 =>
      apply Meets.takes
      intro tail
      rw [List.nil_append, escaped_char literal apart]
      exact (escaped_splits tail).length
  | case2 =>
      apply Meets.takes
      intro tail
      exact (escaped_splits tail).length
  | case3 next later ih => exact ih.keep ['\\', next]
  | case4 =>
      apply Meets.leaves
      intro tail
      exact escaped_end (by simpa using apart)
  | case5 later differs ih => exact ih.keep ['\'', '\'']
  | case6 next later differs =>
      apply Meets.leaves
      intro tail
      have ends : (next :: later).head? ≠ some '\'' := by simpa using differs
      rw [escaped_end ends]
      exact escaped_end (by simpa using differs)
  | case7 char rest escape differs ih =>
      have meets := ih.keep [char]
      rw [← escaped_char escape differs] at meets
      simpa only [List.cons_append, escaped_char escape differs] using meets

theorem blockComment_meets (depth : Nat) (front : List Char) :
    Meets stop (blockComment depth front) (fun tail => blockComment depth (front ++ stop :: tail)) := by
  have star : stop ≠ '*' := stop_ne member (by decide)
  have slash : stop ≠ '/' := stop_ne member (by decide)
  induction depth, front using blockComment.induct with
  | case1 depth =>
      apply Meets.takes
      intro tail
      rw [List.nil_append, blockComment_char depth (fun both => slash both.1)
        (fun both => star both.1)]
      exact (blockComment_splits depth tail).length
  | case2 depth char =>
      apply Meets.takes
      intro tail
      have noOpen : ¬(char = '/' ∧ (stop :: tail).head? = some '*') :=
        fun both => star (Option.some.inj both.2)
      have noClose : ¬(char = '*' ∧ (stop :: tail).head? = some '/') :=
        fun both => slash (Option.some.inj both.2)
      rw [List.singleton_append, blockComment_char depth noOpen noClose,
        blockComment_char depth (fun both => slash both.1) (fun both => star both.1)]
      exact (blockComment_splits depth tail).length
  | case3 depth char next later opens ih =>
      have meets := ih.keep [char, next]
      simpa only [List.cons_append, blockComment_cons, if_pos opens] using meets
  | case4 char next later noOpen closes =>
      apply Meets.leaves
      intro tail
      rw [List.cons_append, List.cons_append, blockComment_cons, blockComment_cons, if_neg noOpen,
        if_neg noOpen, if_pos closes, if_pos closes]
  | case5 char next later noOpen closes depth ih =>
      have meets := ih.keep [char, next]
      simpa only [List.cons_append, blockComment_cons, if_neg noOpen, if_pos closes] using meets
  | case6 depth char next later noOpen noClose ih =>
      have meets := ih.keep [char]
      simpa only [List.cons_append, blockComment_cons, if_neg noOpen, if_neg noClose] using meets

omit member in
theorem lineComment_meets {front : List Char} (noReturn : NoReturn stop front) :
    Meets stop (lineComment front) (fun tail => lineComment (front ++ stop :: tail)) := by
  induction front with
  | nil =>
      apply Meets.takes
      intro tail
      rw [List.nil_append, lineComment]
      split
      · exact Nat.le_refl _
      · split
        · split
          · exact (List.drop_sublist 1 tail).length_le
          · exact Nat.le_refl _
        · exact (lineComment_splits tail).length
  | cons char rest ih =>
      by_cases newline : char = '\n'
      · apply Meets.leaves
        intro tail
        rw [List.cons_append, lineComment, lineComment, if_pos newline, if_pos newline]
      by_cases back : char = '\r'
      · apply Meets.leaves
        intro tail
        rw [List.cons_append, lineComment, lineComment, if_neg newline, if_neg newline, if_pos back,
          if_pos back]
        cases rest with
        | nil =>
            have apart : stop ≠ '\n' := fun same => noReturn same (congrArg some back)
            exact if_neg fun first => apart (Option.some.inj first)
        | cons next later =>
            by_cases second : next = '\n'
            · rw [second]
              rfl
            · have other : (next :: later).head? ≠ some '\n' :=
                fun first => second (Option.some.inj first)
              rw [if_neg other]
              exact if_neg other
      · have behind : NoReturn stop ([char] ++ rest) := noReturn
        have meets := (ih behind.suffix).keep [char]
        simpa only [List.cons_append, lineComment, if_neg newline, if_neg back] using meets

omit member in
theorem isPrefixOf_stop {delimiter : List Char} (outside : stop ∉ delimiter)
    (front tail : List Char) :
    delimiter.isPrefixOf (front ++ stop :: tail) = delimiter.isPrefixOf front := by
  induction front generalizing delimiter with
  | nil =>
      cases delimiter with
      | nil => rfl
      | cons char delimiter =>
          have apart : char ≠ stop := fun same => outside (same ▸ List.mem_cons_self)
          simp [List.isPrefixOf, apart]
  | cons char front ih =>
      cases delimiter with
      | nil => rfl
      | cons first delimiter =>
          have later : stop ∉ delimiter := fun inside => outside (List.mem_cons_of_mem _ inside)
          simp only [List.cons_append, List.isPrefixOf, ih later]

omit member in
theorem delimited_meets {delimiter : List Char} (outside : stop ∉ delimiter)
    (some : delimiter ≠ []) (front : List Char) :
    Meets stop (delimited delimiter front) (fun tail => delimited delimiter (front ++ stop :: tail)) := by
  induction front with
  | nil =>
      apply Meets.takes
      intro tail
      have absent : ¬delimiter.isPrefixOf (stop :: tail) = true := by
        have same := isPrefixOf_stop outside [] tail
        rw [List.nil_append] at same
        rw [same]
        cases delimiter with
        | nil => exact absurd rfl some
        | cons => exact Bool.false_ne_true
      rw [List.nil_append, delimited, if_neg absent]
      exact (delimited_splits delimiter tail).length
  | cons char rest ih =>
      have same (tail : List Char) := isPrefixOf_stop outside (char :: rest) tail
      by_cases found : delimiter.isPrefixOf (char :: rest) = true
      · apply Meets.leaves
        intro tail
        have whole := same tail
        rw [List.cons_append] at whole
        have fits := (List.isPrefixOf_iff_prefix.mp found).length_le
        rw [List.cons_append, delimited, delimited, if_pos found, if_pos (whole.trans found),
          ← List.cons_append, List.drop_append_of_le_length fits]
      · have meets := ih.keep [char]
        have absent (tail : List Char) : ¬delimiter.isPrefixOf (char :: (rest ++ stop :: tail)) = true := by
          rw [← List.cons_append, same]
          exact found
        simp only [List.cons_append, delimited, if_neg found, if_neg (absent _)]
        exact meets

theorem sign_stop (front tail : List Char) :
    sign (front ++ stop :: tail) = ((sign front).1, (sign front).2 ++ stop :: tail) := by
  simp only [sign, head_stop member (show '+' ∉ stops by decide),
    head_stop member (show '-' ∉ stops by decide)]
  by_cases signed : front.head? = some '+' ∨ front.head? = some '-'
  · rw [if_pos signed, if_pos signed]
    rcases signed with plus | minus
    · obtain ⟨after, rfl⟩ := List.head?_eq_some_iff.mp plus
      rfl
    · obtain ⟨after, rfl⟩ := List.head?_eq_some_iff.mp minus
      rfl
  · rw [if_neg signed, if_neg signed]

theorem exponent_stop (front tail : List Char) :
    exponent (front ++ stop :: tail) = ((exponent front).1, (exponent front).2 ++ stop :: tail) := by
  have digit := stop_isDigit member
  cases front with
  | nil =>
      have small : stop ≠ 'e' := stop_ne member (by decide)
      have large : stop ≠ 'E' := stop_ne member (by decide)
      exact if_neg fun both => both.1.elim small large
  | cons char rest =>
      simp only [List.cons_append, exponent, sign_stop member, any_stop digit]
      split
      · rw [span_stop digit]
        rfl
      · rfl

theorem fraction_stop (front tail : List Char) :
    fraction (front ++ stop :: tail) = ((fraction front).1, (fraction front).2 ++ stop :: tail) := by
  cases front with
  | nil =>
      have point : stop ≠ '.' := stop_ne member (by decide)
      exact if_neg point
  | cons char rest =>
      simp only [List.cons_append, fraction, span_stop (stop_isDigit member)]
      split <;> rfl

theorem number_stop (front tail : List Char) :
    number (front ++ stop :: tail) = ((number front).1, (number front).2 ++ stop :: tail) := by
  rw [number, number, span_stop (stop_isDigit member), fraction_stop member, exponent_stop member]
  rfl

theorem dollarTag_stop (front tail : List Char) :
    dollarTag (front ++ stop :: tail) = dollarTag front := by
  have spans := Prod.ext_iff.mp (span_stop (stop_isTagChar member) front tail)
  simp only [span] at spans
  rw [dollarTag, dollarTag, tagBy, tagBy, spans.1, spans.2, any_stop (stop_isIdentStart member)]
  simp only [head_stop member (show '$' ∉ stops by decide)]

theorem dollar_meets (front : List Char) :
    Meets stop (dollar front) (fun tail => dollar (front ++ stop :: tail)) := by
  have digit := stop_isDigit member
  cases tagged : dollarTag front with
  | none =>
      apply Meets.leaves
      intro tail
      rw [dollar, dollar, dollarTag_stop member, tagged]
      dsimp only
      rw [any_stop digit, span_stop digit]
      split <;> rfl
  | some tag =>
      obtain ⟨after, same, inside, -⟩ := dollarTag_iff.mp tagged
      have sign : stop ≠ '$' := stop_ne member (by decide)
      have outside : stop ∉ '$' :: tag ++ ['$'] := by
        intro among
        rw [List.cons_append, List.mem_cons, List.mem_append, List.mem_singleton] at among
        rcases among with first | within | last
        · exact sign first
        · have tagChar := inside stop within
          rw [stop_isTagChar member] at tagChar
          cases tagChar
        · exact sign last
      have meets := ((delimited_meets outside (List.cons_ne_nil _ _) after).keep
        ('$' :: tag ++ ['$'])).lexeme (.dollarString tag)
      simp only [dollar, dollarTag_stop member, tagged]
      rw [same, drop_tag]
      simp only [List.append_assoc, List.cons_append, drop_tag]
      exact meets

omit member in
theorem Meets.ite {α : Type} {condition : Prop} [Decidable condition] {here other : α × List Char}
    {there past : List Char → α × List Char} (yes : condition → Meets stop here there)
    (no : ¬condition → Meets stop other past) :
    Meets stop (if condition then here else other)
      (fun tail => if condition then there tail else past tail) := by
  by_cases holds : condition
  · simpa only [if_pos holds] using yes holds
  · simpa only [if_neg holds] using no holds

/-- The element at the start of a text leaves a stop behind the text where it
is, or goes on past it. -/
theorem next_meets (gap : Option Bool) (char : Char) {front : List Char}
    (noReturn : NoReturn stop front) :
    Meets stop (next gap char front) (fun tail => next gap char (front ++ stop :: tail)) := by
  have digit := stop_isDigit member
  simp only [next, head_stop member (show '-' ∉ stops by decide),
    head_stop member (show '*' ∉ stops by decide), head_stop member (show '\'' ∉ stops by decide),
    any_stop digit]
  refine .ite (fun _ => .leaves fun _ => rfl) fun _ => ?_
  refine .ite (fun _ => .leaves fun _ => rfl) fun _ => ?_
  refine .ite (fun dashes => ?_) fun _ => ?_
  · have whole : NoReturn stop (front.take 1 ++ front.drop 1) :=
      (List.take_append_drop 1 front).symm ▸ noReturn
    simp only [drop_stop dashes.2]
    exact ((lineComment_meets whole.suffix).keep _).lexeme _
  refine .ite (fun slash => ?_) fun _ => ?_
  · simp only [drop_stop slash.2]
    exact ((blockComment_meets member 0 _).keep _).lexeme _
  refine .ite (fun single => ?_) fun _ => ?_
  · have other : char ∉ stops := by
      rw [single]
      decide
    exact .ite (fun _ => ((escaped_meets member _).keep _).lexeme _)
      fun _ => ((quoted_meets member other _).keep _).lexeme _
  refine .ite (fun double => ?_) fun _ => ?_
  · have other : char ∉ stops := by
      rw [double]
      decide
    exact ((quoted_meets member other _).keep _).lexeme _
  refine .ite (fun _ => dollar_meets member front) fun _ => ?_
  refine .ite (fun _ => ?_) fun _ => ?_
  · simp only [← List.cons_append, number_stop member]
    exact .leaves fun _ => rfl
  refine .ite (fun _ => ?_) fun _ => .leaves fun _ => rfl
  refine .ite (fun escape => ?_) fun _ => ?_
  · simp only [drop_stop escape.2]
    exact ((escaped_meets member _).keep _).lexeme _
  · simp only [← List.cons_append, span_stop (stop_isIdentChar member)]
    exact .leaves fun _ => rfl

end Stops

/-! ### The elements of a text with an end behind it -/

/-- The elements of a text behind such a gap. -/
def lexemesAfter (gap : Option Bool) (text : List Char) : List Lexeme :=
  lexemesFrom text.length gap text

theorem lexemesFrom_cons (fuel : Nat) (gap : Option Bool) (char : Char) (rest : List Char) :
    lexemesFrom (fuel + 1) gap (char :: rest) =
      (next gap char rest).1 ::
        lexemesFrom fuel (gapAfter gap (next gap char rest).1) (next gap char rest).2 := rfl

theorem lexemesFrom_fuel {fuel : Nat} {text : List Char} (enough : text.length ≤ fuel)
    (gap : Option Bool) : lexemesFrom fuel gap text = lexemesAfter gap text := by
  have some (fuel other : Nat) (text : List Char) (gap : Option Bool) (enough : text.length ≤ fuel)
      (also : text.length ≤ other) : lexemesFrom fuel gap text = lexemesFrom other gap text := by
    induction fuel generalizing other text gap with
    | zero =>
        obtain rfl := List.length_eq_zero_iff.mp (Nat.le_zero.mp enough)
        cases other <;> rfl
    | succ fuel ih =>
        cases text with
        | nil => cases other <;> rfl
        | cons char rest =>
            cases other with
            | zero => exact absurd also (Nat.not_succ_le_zero _)
            | succ other =>
                have shorter := next_length gap char rest
                have left := Nat.le_trans shorter (Nat.le_of_succ_le_succ enough)
                have right := Nat.le_trans shorter (Nat.le_of_succ_le_succ also)
                rw [lexemesFrom_cons, lexemesFrom_cons, ih other _ _ left right]
  exact some fuel text.length text gap enough (Nat.le_refl _)

theorem lexemesAfter_cons (gap : Option Bool) (char : Char) (rest : List Char) :
    lexemesAfter gap (char :: rest) =
      (next gap char rest).1 ::
        lexemesAfter (gapAfter gap (next gap char rest).1) (next gap char rest).2 := by
  have enough := next_length gap char rest
  rw [lexemesAfter, List.length_cons, lexemesFrom_cons, lexemesFrom_fuel enough]

theorem lexemesAfter_flatMap (gap : Option Bool) (text : List Char) :
    (lexemesAfter gap text).flatMap Lexeme.text = text :=
  lexemesFrom_flatMap (Nat.le_refl _) gap

/-- The gap behind such elements. -/
def gapBehind (gap : Option Bool) (lexemes : List Lexeme) : Option Bool :=
  lexemes.foldl gapAfter gap

/-- Some of the elements, from the first one on, make up the text. -/
def Ends (text : List Char) (lexemes : List Lexeme) : Prop :=
  ∃ front, front <+: lexemes ∧ front.flatMap Lexeme.text = text

/-- A text in front of a stop is read as it is alone, or no element ends where
the text does. -/
theorem lexemesAfter_stop {stop : Char} (member : stop ∈ stops) (gap : Option Bool)
    {text : List Char} (noReturn : NoReturn stop text) :
    (∀ tail, lexemesAfter gap (text ++ stop :: tail) =
        lexemesAfter gap text ++ lexemesAfter (gapBehind gap (lexemesAfter gap text)) (stop :: tail)) ∨
      ∀ tail, ¬Ends text (lexemesAfter gap (text ++ stop :: tail)) := by
  induction size : text.length using Nat.strong_induction_on generalizing gap text with
  | _ length ih =>
      cases text with
      | nil => exact .inl fun tail => rfl
      | cons char rest =>
          have splits := next_splits gap char rest
          have whole : NoReturn stop ([char] ++ rest) := noReturn
          cases next_meets member gap char whole.suffix with
          | leaves same =>
              have shorter : (next gap char rest).2.length < length := by
                rw [← size]
                exact Nat.lt_succ_of_le (next_length gap char rest)
              have behind : NoReturn stop (next gap char rest).2 := by
                rw [← splits] at noReturn
                exact noReturn.suffix
              rcases ih _ shorter (gapAfter gap (next gap char rest).1) behind rfl with alone | opened
              · left
                intro tail
                rw [List.cons_append, lexemesAfter_cons, same, lexemesAfter_cons gap char rest, alone tail]
                rfl
              · right
                intro tail ends
                obtain ⟨front, begins, whole⟩ := ends
                rw [List.cons_append, lexemesAfter_cons, same] at begins
                cases front with
                | nil => cases whole
                | cons first front =>
                    have parts := List.cons_prefix_cons.mp begins
                    refine opened tail ⟨front, parts.2, ?_⟩
                    rw [List.flatMap_cons, parts.1, ← splits] at whole
                    exact List.append_cancel_left whole
          | takes past =>
              right
              intro tail ends
              obtain ⟨front, begins, whole⟩ := ends
              rw [List.cons_append, lexemesAfter_cons] at begins
              cases front with
              | nil => cases whole
              | cons first front =>
                  have parts := List.cons_prefix_cons.mp begins
                  have all := congrArg List.length (next_splits gap char (rest ++ stop :: tail))
                  have some := congrArg List.length whole
                  have left := past tail
                  rw [List.flatMap_cons, parts.1] at some
                  simp only [List.length_append, List.length_cons] at all some
                  omega

/-! ### A closing parenthesis -/

def closing : Lexeme := ⟨.symbol, [')']⟩

theorem lexemesAfter_closing (gap : Option Bool) (tail : List Char) :
    lexemesAfter gap (')' :: tail) = closing :: lexemes tail := by
  have element : next gap ')' tail = (closing, tail) := rfl
  rw [lexemesAfter_cons, element]
  rfl

/-- A closing parenthesis behind the text is an element of its own. -/
def Closed (text : List Char) : Prop := lexemes (text ++ [')']) = lexemes text ++ [closing]

instance (text : List Char) : Decidable (Closed text) := by
  unfold Closed
  infer_instance

theorem closed_or (text : List Char) :
    (∀ tail, lexemes (text ++ ')' :: tail) = lexemes text ++ closing :: lexemes tail) ∨
      ∀ tail, ¬Ends text (lexemes (text ++ ')' :: tail)) := by
  have apart : NoReturn ')' text := fun same => by cases same
  have either := lexemesAfter_stop (show ')' ∈ stops by decide) none apart
  simp only [lexemesAfter_closing] at either
  exact either

theorem Closed.ends {text : List Char} (closed : Closed text) :
    Ends text (lexemes (text ++ [')'])) := by
  refine ⟨lexemes text, ?_, lexemes_flatMap text⟩
  rw [closed]
  exact List.prefix_append _ _

theorem Closed.lexemes {text : List Char} (closed : Closed text) (tail : List Char) :
    lexemes (text ++ ')' :: tail) = lexemes text ++ closing :: lexemes tail := by
  rcases closed_or text with alone | opened
  · exact alone tail
  · exact absurd closed.ends (opened [])

theorem Ends.closed {text tail : List Char} (ends : Ends text (lexemes (text ++ ')' :: tail))) :
    Closed text := by
  rcases closed_or text with alone | opened
  · exact alone []
  · exact absurd ends (opened tail)

end OpenGauss.Lib.SqlLexical
