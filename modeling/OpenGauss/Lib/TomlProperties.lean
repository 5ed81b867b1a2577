import Mathlib.Data.List.Basic
import OpenGauss.Lib.Toml

/-! What is read from a text does not depend on the text behind it, nor on how
its lines end. -/

set_option autoImplicit false

namespace OpenGauss.Lib.Toml

open Text

/-- A text, and what is left of it when no line ends with a carriage return. -/
inductive Eased : List Char → List Char → Prop where
  | nil : Eased [] []
  | char {char : Char} {text eased : List Char} (other : char ≠ '\r') (rest : Eased text eased) :
      Eased (char :: text) (char :: eased)
  | lineEnd {text eased : List Char} (rest : Eased text eased) :
      Eased ('\r' :: '\n' :: text) ('\n' :: eased)

theorem Eased.append {first second firstEased secondEased : List Char}
    (before : Eased first firstEased) (after : Eased second secondEased) :
    Eased (first ++ second) (firstEased ++ secondEased) := by
  induction before with
  | nil => exact after
  | char other _ ih => exact .char other ih
  | lineEnd _ ih => exact .lineEnd ih

theorem Eased.same {text : List Char} (others : ∀ char ∈ text, char ≠ '\r') : Eased text text := by
  induction text with
  | nil => exact .nil
  | cons char text ih =>
      exact .char (others char List.mem_cons_self)
        (ih fun other member => others other (List.mem_cons_of_mem char member))

/-- A reader takes some text, whatever follows it, and with its line ends eased. -/
def Moves (reads : List Char → List Char → Prop) (text rest : List Char) : Prop :=
  ∃ taken eased, text = taken ++ rest ∧ Eased taken eased ∧
    ∀ other, reads (taken ++ other) other ∧ reads (eased ++ other) other

namespace Moves

variable {reads first second : List Char → List Char → Prop} {text middle rest : List Char}

theorem suffix (moves : Moves reads text rest) : rest <:+ text := by
  obtain ⟨taken, -, same, -⟩ := moves
  exact ⟨taken, same.symm⟩

theorem imp (moves : Moves first text rest)
    (implied : ∀ text rest, first text rest → second text rest) : Moves second text rest := by
  obtain ⟨taken, eased, same, easing, both⟩ := moves
  exact ⟨taken, eased, same, easing, fun other =>
    ⟨implied _ _ (both other).1, implied _ _ (both other).2⟩⟩

theorem stay (text : List Char) : Moves Eq text text :=
  ⟨[], [], rfl, .nil, fun _ => ⟨rfl, rfl⟩⟩

theorem mark {char : Char} (other : char ≠ '\r') (rest : List Char) :
    Moves (Mark char) (char :: rest) rest :=
  ⟨[char], [char], rfl, .char other .nil, fun _ => ⟨rfl, rfl⟩⟩

theorem thenMoves (before : Moves first text middle) (after : Moves second middle rest) :
    Moves (Then first second) text rest := by
  obtain ⟨taken, eased, rfl, easing, both⟩ := before
  obtain ⟨later, laterEased, rfl, laterEasing, laterBoth⟩ := after
  refine ⟨taken ++ later, eased ++ laterEased, (List.append_assoc _ _ _).symm,
    easing.append laterEasing, fun other => ?_⟩
  rw [List.append_assoc, List.append_assoc]
  exact ⟨⟨_, (both _).1, (laterBoth other).1⟩, ⟨_, (both _).2, (laterBoth other).2⟩⟩

/-- A character, and then what another reader takes. -/
theorem cons {char : Char} (other : char ≠ '\r') (moves : Moves first text rest)
    (implied : ∀ text rest, first text rest → second (char :: text) rest) :
    Moves second (char :: text) rest := by
  refine ((mark other text).thenMoves moves).imp ?_
  rintro _ rest ⟨middle, rfl, reads⟩
  exact implied middle rest reads

end Moves

/-! ### Blanks and comments -/

theorem isPlain_return : isPlain '\r' = false := by decide

theorem Run.moves {inside : Char → Bool} (noReturn : inside '\r' = false)
    {text chars rest : List Char} (run : Run inside text chars rest) :
    Moves (Run inside · chars ·) text rest := by
  obtain ⟨rfl, all⟩ := run
  have easing : Eased chars chars := Eased.same fun char member same => by
    rw [same] at member
    exact absurd (all _ member) (by rw [noReturn]; decide)
  exact ⟨chars, chars, rfl, easing, fun _ => ⟨⟨rfl, all⟩, rfl, all⟩⟩

theorem Blanks.moves {text rest : List Char} (blanks : Blanks text rest) :
    Moves Blanks text rest := by
  obtain ⟨chars, run⟩ := blanks
  exact (run.moves (by decide)).imp fun _ _ run => ⟨chars, run⟩

theorem Newline.moves {text rest : List Char} (newline : Newline text rest) :
    Moves Newline text rest := by
  rcases newline with rfl | rfl
  · exact ⟨['\n'], ['\n'], rfl, .char (by decide) .nil, fun _ => ⟨.inl rfl, .inl rfl⟩⟩
  · exact ⟨['\r', '\n'], ['\n'], rfl, .lineEnd .nil, fun _ => ⟨.inr rfl, .inl rfl⟩⟩

theorem Remark.moves {text rest : List Char} (remark : Remark text rest) :
    Moves Remark text rest := by
  cases remark with
  | none => exact (Moves.stay _).imp fun _ _ same => same ▸ .none _
  | comment run => exact (run.moves isPlain_return).cons (by decide) fun _ _ run => .comment run

theorem Gap.moves {comments : Bool} {text rest : List Char} (gap : Gap comments text rest) :
    Moves (Gap comments) text rest := by
  induction gap with
  | done => exact (Moves.stay _).imp fun _ _ same => same ▸ .done _
  | @blank char _ _ blank _ ih =>
      have other : char ≠ '\r' := by
        rintro rfl
        exact absurd blank (by decide)
      exact ih.cons other fun _ _ gap => .blank blank gap
  | newline newline _ ih =>
      refine (newline.moves.thenMoves ih).imp ?_
      rintro _ _ ⟨_, newline, gap⟩
      exact .newline newline gap
  | comment allowed run newline _ ih =>
      refine ((run.moves isPlain_return).thenMoves (newline.moves.thenMoves ih)).cons (by decide) ?_
      rintro _ _ ⟨_, run, _, newline, gap⟩
      exact .comment allowed run newline gap

/-! ### Strings -/

theorem Escape.moves {text rest : List Char} {char : Char} (escape : Escape text char rest) :
    Moves (Escape · char ·) text rest := by
  cases escape with
  | @simple mark _ known =>
      have other : mark ≠ '\r' := by
        rintro rfl
        revert known
        simp [escapes]
      exact (Moves.stay rest).cons other fun _ _ same => same ▸ .simple known _
  | @unicode mark digits values size hex valid =>
      have other : mark ≠ '\r' := by
        rcases size with ⟨rfl, -⟩ | ⟨rfl, -⟩
        · decide
        · decide
      have easing : Eased digits digits := Eased.same fun char member same => by
        have digit := List.mem_map_of_mem (f := hexDigit) member
        rw [hex, same] at digit
        have none : hexDigit '\r' = none := by decide
        rw [none] at digit
        obtain ⟨_, -, some⟩ := List.mem_map.mp digit
        cases some
      exact ⟨mark :: digits, mark :: digits, rfl, .char other easing, fun other =>
        ⟨.unicode size hex valid other, .unicode size hex valid other⟩⟩

theorem Style.quote_ne {style : Style} (known : style = basic ∨ style = literal) :
    style.quote ≠ '\r' ∧ style.quote ≠ '\n' := by
  rcases known with rfl | rfl
  · decide
  · decide

theorem Style.plain_ne {style : Style} {char : Char} (plain : style.plain char = true) :
    char ≠ '\r' := by
  rintro rfl
  rw [Style.plain, isPlain_return] at plain
  cases plain

theorem Single.moves {style : Style} (known : style = basic ∨ style = literal)
    {text value rest : List Char} (single : Single style text value rest) :
    Moves (Single style · value ·) text rest := by
  induction single with
  | close rest =>
      exact (Moves.stay rest).cons (Style.quote_ne known).1 fun _ _ same => same ▸ .close _
  | char plain _ ih =>
      exact ih.cons (Style.plain_ne plain) fun _ _ others => .char plain others
  | escape escaped escape _ ih =>
      refine (escape.moves.thenMoves ih).cons (by decide) ?_
      rintro _ _ ⟨_, escape, others⟩
      exact .escape escaped escape others

theorem Multi.moves {style : Style} (known : style = basic ∨ style = literal) {opened : Bool}
    {quotes : Nat} {text value rest : List Char} (multi : Multi style opened quotes text value rest) :
    Moves (Multi style opened quotes · value ·) text rest := by
  have quoteOther := (Style.quote_ne known).1
  induction multi with
  | close rest =>
      have marks := (Moves.mark quoteOther _).thenMoves
        ((Moves.mark quoteOther _).thenMoves (Moves.mark quoteOther rest))
      refine marks.imp ?_
      rintro _ rest ⟨_, rfl, _, rfl, rfl⟩
      exact .close rest
  | quote few _ ih => exact ih.cons quoteOther fun _ _ others => .quote few others
  | char plain _ ih =>
      exact ih.cons (Style.plain_ne plain) fun _ _ others => .char plain others
  | newline newline _ ih =>
      refine (newline.moves.thenMoves ih).imp ?_
      rintro _ _ ⟨_, newline, others⟩
      exact .newline newline others
  | escape escaped escape _ ih =>
      refine (escape.moves.thenMoves ih).cons (by decide) ?_
      rintro _ _ ⟨_, escape, others⟩
      exact .escape escaped escape others
  | continued escaped blanks newline gap _ ih =>
      refine (blanks.moves.thenMoves (newline.moves.thenMoves (gap.moves.thenMoves ih))).cons
        (by decide) ?_
      rintro _ _ ⟨_, blanks, _, newline, _, gap, others⟩
      exact .continued escaped blanks newline gap others

theorem StringText.moves {text value rest : List Char} (string : StringText text value rest) :
    Moves (StringText · value ·) text rest := by
  cases string with
  | single known single =>
      exact (single.moves known).cons (Style.quote_ne known).1 fun _ _ single =>
        .single known single
  | @multi style _ _ _ known multi =>
      have quoteOther := (Style.quote_ne known).1
      have marks := (Moves.mark quoteOther _).thenMoves
        ((Moves.mark quoteOther _).thenMoves ((Moves.mark quoteOther _).thenMoves (multi.moves known)))
      refine marks.imp ?_
      rintro _ _ ⟨_, rfl, _, rfl, _, rfl, multi⟩
      exact .multi known multi
  | @multiLine style _ _ _ _ known newline multi =>
      have quoteOther := (Style.quote_ne known).1
      have marks := (Moves.mark quoteOther _).thenMoves ((Moves.mark quoteOther _).thenMoves
        ((Moves.mark quoteOther _).thenMoves (newline.moves.thenMoves (multi.moves known))))
      refine marks.imp ?_
      rintro _ _ ⟨_, rfl, _, rfl, _, rfl, _, newline, multi⟩
      exact .multiLine known newline multi

/-! ### Keys and values -/

theorem SimpleKey.moves {text key rest : List Char} (simple : SimpleKey text key rest) :
    Moves (SimpleKey · key ·) text rest := by
  cases simple with
  | bare some run => exact (run.moves (by decide)).imp fun _ _ run => .bare some run
  | quoted known single =>
      exact (single.moves known).cons (Style.quote_ne known).1 fun _ _ single =>
        .quoted known single

theorem Keys.moves {text rest : List Char} {keys : List (List Char)} (named : Keys text keys rest) :
    Moves (Keys · keys ·) text rest := by
  induction named with
  | one simple => exact simple.moves.imp fun _ _ simple => .one simple
  | dotted simple before after _ ih =>
      have dot := before.moves.thenMoves (Moves.mark (by decide) _)
      refine (simple.moves.thenMoves (dot.thenMoves (after.moves.thenMoves ih))).imp ?_
      rintro _ _ ⟨_, simple, _, ⟨_, before, rfl⟩, _, after, others⟩
      exact .dotted simple before after others

theorem KeyPart.moves {text rest : List Char} {keys : List (List Char)}
    (keyPart : KeyPart text keys rest) : Moves (KeyPart · keys ·) text rest := by
  cases keyPart with
  | keys start named before after =>
      have equals := before.moves.thenMoves (Moves.mark (by decide) _)
      refine (start.moves.thenMoves (named.moves.thenMoves (equals.thenMoves after.moves))).imp ?_
      rintro _ _ ⟨_, start, _, named, _, ⟨_, before, rfl⟩, after⟩
      exact .keys start named before after

theorem Value.moves {dialect : Dialect} {part : Part} {text rest : List Char} {items : Flat Scalar}
    (value : Value dialect part text items rest) :
    Moves (Value dialect part · items ·) text rest := by
  induction value with
  | string string => exact string.moves.imp fun _ _ string => .string string
  | @unquoted chars scalar written rest =>
      have easing : Eased chars chars := Eased.same fun char member =>
        ((dialect.unquoted_text written).2 char member).2
      exact ⟨chars, chars, rfl, easing, fun other =>
        ⟨.unquoted written other, .unquoted written other⟩⟩
  | array _ ih => exact ih.cons (by decide) fun _ _ elements => .array elements
  | empty blanks =>
      have close := blanks.moves.thenMoves (Moves.mark (by decide) _)
      refine close.cons (by decide) ?_
      rintro _ _ ⟨_, blanks, rfl⟩
      exact .empty blanks
  | table _ ih => exact ih.cons (by decide) fun _ _ pairs => .table pairs
  | noElement gap =>
      refine (gap.moves.thenMoves (Moves.mark (by decide) _)).imp ?_
      rintro _ _ ⟨_, gap, rfl⟩
      exact .noElement gap
  | lastElement before _ after ih =>
      have close := after.moves.thenMoves (Moves.mark (by decide) _)
      refine (before.moves.thenMoves (ih.thenMoves close)).imp ?_
      rintro _ _ ⟨_, before, _, element, _, after, rfl⟩
      exact .lastElement before element after
  | element before _ after _ elementIH othersIH =>
      have comma := after.moves.thenMoves (Moves.mark (by decide) _)
      refine (before.moves.thenMoves (elementIH.thenMoves (comma.thenMoves othersIH))).imp ?_
      rintro _ _ ⟨_, before, _, element, _, ⟨_, after, rfl⟩, others⟩
      exact .element before element after others
  | lastPair keyPart _ after ih =>
      have close := after.moves.thenMoves (Moves.mark (by decide) _)
      refine (keyPart.moves.thenMoves (ih.thenMoves close)).imp ?_
      rintro _ _ ⟨_, keyPart, _, pair, _, after, rfl⟩
      exact .lastPair keyPart pair after
  | pair keyPart _ after _ pairIH othersIH =>
      have comma := after.moves.thenMoves (Moves.mark (by decide) _)
      refine (keyPart.moves.thenMoves (pairIH.thenMoves (comma.thenMoves othersIH))).imp ?_
      rintro _ _ ⟨_, keyPart, _, pair, _, ⟨_, after, rfl⟩, others⟩
      exact .pair keyPart pair after others

/-! ### Documents -/

section Documents

variable {dialect : Dialect}

theorem Expression.moves {text rest : List Char} {statement : Option (Statement Scalar)}
    (expression : Expression dialect text statement rest) :
    Moves (Expression dialect · statement ·) text rest := by
  cases expression with
  | blank blanks remark =>
      refine (blanks.moves.thenMoves remark.moves).imp ?_
      rintro _ _ ⟨_, blanks, remark⟩
      exact .blank blanks remark
  | pair keyPart value blanks remark =>
      refine (keyPart.moves.thenMoves
        (value.moves.thenMoves (blanks.moves.thenMoves remark.moves))).imp ?_
      rintro _ _ ⟨_, keyPart, _, value, _, blanks, remark⟩
      exact .pair keyPart value blanks remark
  | header start before named after blanks remark =>
      have opens := start.moves.thenMoves (Moves.mark (by decide) _)
      have closes := after.moves.thenMoves (Moves.mark (by decide) _)
      refine (opens.thenMoves (before.moves.thenMoves (named.moves.thenMoves
        (closes.thenMoves (blanks.moves.thenMoves remark.moves))))).imp ?_
      rintro _ _ ⟨_, ⟨_, start, rfl⟩, _, before, _, named, _, ⟨_, after, rfl⟩, _, blanks, remark⟩
      exact .header start before named after blanks remark
  | arrayHeader start before named after blanks remark =>
      have opens := start.moves.thenMoves
        ((Moves.mark (by decide) _).thenMoves (Moves.mark (by decide) _))
      have closes := after.moves.thenMoves
        ((Moves.mark (by decide) _).thenMoves (Moves.mark (by decide) _))
      refine (opens.thenMoves (before.moves.thenMoves (named.moves.thenMoves
        (closes.thenMoves (blanks.moves.thenMoves remark.moves))))).imp ?_
      rintro _ _ ⟨_, ⟨_, start, _, rfl, rfl⟩, _, before, _, named, _, ⟨_, after, _, rfl, rfl⟩, _,
        blanks, remark⟩
      exact .arrayHeader start before named after blanks remark

theorem Line.moves {text rest : List Char} {statement : Option (Statement Scalar)}
    (line : Line dialect text statement rest) : Moves (Line dialect · statement ·) text rest := by
  obtain ⟨middle, expression, newline⟩ := line
  exact expression.moves.thenMoves newline.moves

theorem Lines.done (text : List Char) : Lines dialect text [] text := ⟨[], .done text, rfl⟩

theorem Lines.next {text later rest : List Char} {statement : Option (Statement Scalar)}
    {statements : List (Statement Scalar)} (line : Line dialect text statement later)
    (others : Lines dialect later statements rest) :
    Lines dialect text (statement.toList ++ statements) rest := by
  obtain ⟨lines, items, rfl⟩ := others
  refine ⟨statement :: lines, .next line items, ?_⟩
  cases statement <;> rfl

theorem Lines.moves {text rest : List Char} {statements : List (Statement Scalar)}
    (lines : Lines dialect text statements rest) :
    Moves (Lines dialect · statements ·) text rest := by
  obtain ⟨items, read, rfl⟩ := lines
  induction read with
  | done => exact (Moves.stay _).imp fun _ _ same => same ▸ .done _
  | @next _ _ _ item items line _ ih =>
      refine (line.moves.thenMoves ih).imp ?_
      rintro _ _ ⟨_, line, others⟩
      have both := Lines.next line others
      cases item <;> exact both

/-! ### The end of a text -/

theorem Single.last {style : Style} {text value rest : List Char}
    (single : Single style text value rest) : style.quote :: rest <:+ text := by
  induction single with
  | close => exact List.suffix_refl _
  | char _ _ ih => exact ih.trans (List.suffix_cons _ _)
  | escape _ escape _ ih => exact (ih.trans escape.moves.suffix).trans (List.suffix_cons _ _)

theorem Multi.last {style : Style} {opened : Bool} {quotes : Nat} {text value rest : List Char}
    (multi : Multi style opened quotes text value rest) : style.quote :: rest <:+ text := by
  induction multi with
  | close => exact (List.suffix_cons _ _).trans (List.suffix_cons _ _)
  | quote _ _ ih => exact ih.trans (List.suffix_cons _ _)
  | char _ _ ih => exact ih.trans (List.suffix_cons _ _)
  | newline newline _ ih => exact ih.trans newline.moves.suffix
  | escape _ escape _ ih => exact (ih.trans escape.moves.suffix).trans (List.suffix_cons _ _)
  | continued _ blanks newline gap _ ih =>
      exact (((ih.trans gap.moves.suffix).trans newline.moves.suffix).trans
        blanks.moves.suffix).trans (List.suffix_cons _ _)

theorem StringText.last {text value rest : List Char} (string : StringText text value rest) :
    ∃ char, char ≠ '\n' ∧ char :: rest <:+ text := by
  cases string with
  | single known single =>
      exact ⟨_, (Style.quote_ne known).2, single.last.trans (List.suffix_cons _ _)⟩
  | multi known multi =>
      exact ⟨_, (Style.quote_ne known).2, multi.last.trans
        ((List.suffix_cons _ _).trans ((List.suffix_cons _ _).trans (List.suffix_cons _ _)))⟩
  | multiLine known newline multi =>
      exact ⟨_, (Style.quote_ne known).2, (multi.last.trans newline.moves.suffix).trans
        ((List.suffix_cons _ _).trans ((List.suffix_cons _ _).trans (List.suffix_cons _ _)))⟩

/-- A value ends with a character that is no line end. -/
theorem Value.last {part : Part} {text rest : List Char} {items : Flat Scalar}
    (value : Value dialect part text items rest) :
    ∃ char, char ≠ '\n' ∧ char :: rest <:+ text := by
  induction value with
  | string string => exact string.last
  | @unquoted chars _ written rest =>
      obtain ⟨some, visible⟩ := dialect.unquoted_text written
      refine ⟨chars.getLast some, (visible _ (List.getLast_mem some)).1, chars.dropLast, ?_⟩
      rw [List.append_cons, List.dropLast_concat_getLast]
  | array _ ih | table _ ih =>
      obtain ⟨char, other, suffix⟩ := ih
      exact ⟨char, other, suffix.trans (List.suffix_cons _ _)⟩
  | empty blanks => exact ⟨_, by decide, blanks.moves.suffix.trans (List.suffix_cons _ _)⟩
  | noElement gap => exact ⟨_, by decide, gap.moves.suffix⟩
  | lastElement before element after _ =>
      exact ⟨_, by decide,
        (after.moves.suffix.trans element.moves.suffix).trans before.moves.suffix⟩
  | element before element after _ _ ih =>
      obtain ⟨char, other, suffix⟩ := ih
      exact ⟨char, other, ((suffix.trans ((List.suffix_cons _ _).trans after.moves.suffix)).trans
        element.moves.suffix).trans before.moves.suffix⟩
  | lastPair keyPart pair after _ =>
      exact ⟨_, by decide,
        (after.moves.suffix.trans pair.moves.suffix).trans keyPart.moves.suffix⟩
  | pair keyPart pair after _ _ ih =>
      obtain ⟨char, other, suffix⟩ := ih
      exact ⟨char, other, ((suffix.trans ((List.suffix_cons _ _).trans after.moves.suffix)).trans
        pair.moves.suffix).trans keyPart.moves.suffix⟩

/-- Blanks and a comment have no line end in them. -/
theorem Remark.behind {text middle rest : List Char} (blanks : Blanks text middle)
    (remark : Remark middle rest) : ∃ taken, text = taken ++ rest ∧ '\n' ∉ taken := by
  obtain ⟨chars, rfl, blank⟩ := blanks
  have noEnd : '\n' ∉ chars := fun member => absurd (blank _ member) (by decide)
  cases remark with
  | none => exact ⟨chars, rfl, noEnd⟩
  | @comment text comment rest run =>
      obtain ⟨rfl, plain⟩ := run
      refine ⟨chars ++ '#' :: comment, by rw [List.append_assoc, List.cons_append], ?_⟩
      intro member
      rcases List.mem_append.mp member with member | member
      · exact noEnd member
      · rcases List.mem_cons.mp member with same | member
        · exact absurd same (by decide)
        · exact absurd (plain _ member) (by decide)

/-- What an expression that is not blank ends with. -/
theorem Expression.last {text rest : List Char} {statement : Statement Scalar}
    (expression : Expression dialect text (some statement) rest) :
    ∃ taken char more, text = taken ++ char :: (more ++ rest) ∧ char ≠ '\n' ∧ '\n' ∉ more := by
  have assemble {char : Char} {first second : List Char} (other : char ≠ '\n')
      (suffix : char :: first <:+ text) (blanks : Blanks first second)
      (remark : Remark second rest) :
      ∃ taken char more, text = taken ++ char :: (more ++ rest) ∧ char ≠ '\n' ∧ '\n' ∉ more := by
    obtain ⟨more, same, noEnd⟩ := remark.behind blanks
    obtain ⟨taken, whole⟩ := suffix
    exact ⟨taken, char, more, by rw [← whole, same], other, noEnd⟩
  cases expression with
  | pair keyPart value blanks remark =>
      obtain ⟨char, other, suffix⟩ := value.last
      exact assemble other (suffix.trans keyPart.moves.suffix) blanks remark
  | header start before named after blanks remark =>
      exact @assemble ']' _ _ (by decide) ((((after.moves.suffix.trans named.moves.suffix).trans
        before.moves.suffix).trans (List.suffix_cons _ _)).trans start.moves.suffix) blanks remark
  | arrayHeader start before named after blanks remark =>
      exact @assemble ']' _ _ (by decide)
        ((((((List.suffix_cons _ _).trans after.moves.suffix).trans named.moves.suffix).trans
          before.moves.suffix).trans ((List.suffix_cons _ _).trans (List.suffix_cons _ _))).trans
          start.moves.suffix) blanks remark

theorem Expression.blank_of_nil {rest : List Char} {statement : Option (Statement Scalar)}
    (expression : Expression dialect [] statement rest) : statement = none := by
  cases statement with
  | none => rfl
  | some statement =>
      obtain ⟨taken, char, more, same, -⟩ := expression.last
      exact absurd same.symm (List.append_ne_nil_of_right_ne_nil _ (List.cons_ne_nil _ _))

/-- An expression at the end of a text has no line end behind it. -/
theorem Expression.getLast {text : List Char} {statement : Option (Statement Scalar)}
    (expression : Expression dialect text statement []) : text.getLast? ≠ some '\n' := by
  have inside {before more : List Char} (noEnd : '\n' ∉ more) (some : more ≠ []) :
      (before ++ more).getLast? ≠ Option.some '\n' := by
    rw [List.getLast?_append, List.getLast?_eq_some_getLast some, Option.some_or]
    intro last
    have member := List.getLast_mem some
    rw [Option.some.inj last] at member
    exact noEnd member
  cases statement with
  | none =>
      cases expression with
      | blank blanks remark =>
          obtain ⟨taken, same, noEnd⟩ := remark.behind blanks
          rw [same, List.append_nil]
          exact fun last => noEnd (List.mem_of_getLast? last)
  | some statement =>
      obtain ⟨taken, char, more, rfl, other, noEnd⟩ := expression.last
      rw [List.append_nil]
      refine inside (fun member => ?_) (List.cons_ne_nil _ _)
      rcases List.mem_cons.mp member with same | member
      · exact other same.symm
      · exact noEnd member

/-! ### Changing the end of a document -/

theorem Document.eased {text : List Char} {statements : List (Statement Scalar)}
    (document : Document dialect text statements) :
    ∃ eased, Eased text eased ∧ Document dialect eased statements := by
  obtain ⟨before, last, middle, lines, expression, rfl⟩ := document
  obtain ⟨taken, eased, rfl, easing, both⟩ := lines.moves.thenMoves expression.moves
  obtain ⟨middle, lines, expression⟩ := (both []).2
  rw [List.append_nil] at lines ⊢
  exact ⟨eased, easing, before, last, middle, lines, expression, rfl⟩

theorem Lines.append {text middle rest : List Char} {first second : List (Statement Scalar)}
    (before : Lines dialect text first middle) (after : Lines dialect middle second rest) :
    Lines dialect text (first ++ second) rest := by
  obtain ⟨lines, items, rfl⟩ := before
  induction items with
  | done => exact after
  | @next _ _ _ item items line _ ih =>
      have both := Lines.next line (ih after)
      cases item <;> exact both

/-- A line end more at the end. -/
theorem Document.ended {text : List Char} {statements : List (Statement Scalar)}
    (document : Document dialect text statements) :
    Document dialect (text ++ ['\n']) statements := by
  obtain ⟨before, last, middle, lines, expression, rfl⟩ := document
  obtain ⟨taken, _, rfl, _, both⟩ := lines.moves.thenMoves expression.moves
  obtain ⟨middle, lines, expression⟩ := (both ['\n']).1
  rw [List.append_nil]
  have line : Line dialect middle last [] := ⟨['\n'], expression, .inl rfl⟩
  have blank : Expression dialect [] none [] := .blank ⟨[], rfl, by simp⟩ (.none [])
  refine ⟨before ++ last.toList, none, [], lines.append ?_, blank, (List.append_nil _).symm⟩
  have single := Lines.next line (.done [])
  rwa [List.append_nil] at single

theorem Line.unended {text : List Char} {statement : Option (Statement Scalar)}
    (line : Line dialect (text ++ ['\n']) statement []) (noReturn : text.getLast? ≠ some '\r') :
    Expression dialect text statement [] := by
  obtain ⟨middle, expression, rfl | rfl⟩ := line
  · obtain ⟨taken, _, same, _, both⟩ := expression.moves
    obtain rfl := List.append_cancel_right same
    have alone := (both []).1
    rwa [List.append_nil] at alone
  · obtain ⟨taken, _, same, _⟩ := expression.moves
    have short : text ++ ['\n'] = taken ++ ['\r'] ++ ['\n'] := by
      rw [same, List.append_assoc]
      rfl
    rw [List.append_cancel_right short, List.getLast?_concat] at noReturn
    exact absurd rfl noReturn

theorem Document.next {text later : List Char} {statement : Option (Statement Scalar)}
    {statements : List (Statement Scalar)} (line : Line dialect text statement later)
    (document : Document dialect later statements) :
    Document dialect text (statement.toList ++ statements) := by
  obtain ⟨before, last, middle, lines, expression, rfl⟩ := document
  exact ⟨_, last, middle, .next line lines, expression, (List.append_assoc _ _ _).symm⟩

theorem Line.some {statement : Option (Statement Scalar)} {rest : List Char} :
    ¬Line dialect [] statement rest := by
  rintro ⟨middle, expression, newline⟩
  have none := List.suffix_nil.mp expression.moves.suffix
  rw [none] at newline
  rcases newline with same | same
  · cases same
  · cases same

/-- The last of the line ends, if all is lines. -/
theorem unended_of_items {text : List Char} {lines : List (Option (Statement Scalar))}
    (items : Items (Line dialect) (text ++ ['\n']) lines []) (noReturn : text.getLast? ≠ some '\r') :
    Document dialect text (lines.filterMap id) := by
  generalize whole : text ++ ['\n'] = full at items
  generalize ending : ([] : List Char) = rest at items
  induction items generalizing text with
  | done => exact absurd (whole.trans ending.symm) (by simp)
  | @next full later rest item items line others ih =>
      have statements : (item :: items).filterMap id = item.toList ++ items.filterMap id := by
        cases item <;> rfl
      rw [statements]
      subst ending whole
      rcases List.eq_nil_or_concat' later with rfl | ⟨later, char, rfl⟩
      · have none : items = [] := by
          cases others with
          | done => rfl
          | next line _ => exact absurd line Line.some
        rw [none]
        exact ⟨[], item, text, .done text, line.unended noReturn, by simp⟩
      · obtain ⟨taken, _, same, _, both⟩ := line.moves
        rw [← List.append_assoc] at same
        obtain ⟨rfl, ends⟩ := List.append_inj' same rfl
        obtain rfl := List.cons.inj ends |>.1
        refine Document.next (both later).1 (ih ?_ rfl rfl)
        intro last
        exact noReturn (by rw [List.getLast?_append, last]; rfl)

/-- A line end less at the end. -/
theorem Document.unended {text : List Char} {statements : List (Statement Scalar)}
    (document : Document dialect (text ++ ['\n']) statements)
    (noReturn : text.getLast? ≠ some '\r') : Document dialect text statements := by
  obtain ⟨before, last, middle, ⟨items, read, rfl⟩, expression, rfl⟩ := document
  have none : middle = [] := by
    obtain ⟨taken, same⟩ := (Lines.moves ⟨items, read, rfl⟩).suffix
    rcases List.eq_nil_or_concat' middle with rfl | ⟨front, char, rfl⟩
    · rfl
    · rw [← List.append_assoc] at same
      obtain ⟨-, ends⟩ := List.append_inj' same rfl
      obtain rfl := List.cons.inj ends |>.1
      exact absurd (List.getLast?_concat) expression.getLast
  subst none
  rw [expression.blank_of_nil, Option.toList_none, List.append_nil]
  exact unended_of_items read noReturn

end Documents

/-! ### The meaning of a document -/

section Meaning

variable {V W : Type}

/-- What statements add does not depend on what has been read. -/
theorem foldl_next (statements : List (Statement V)) (table : Path) (arrays : List Path) :
    ∃ later more added, ∀ items, statements.foldl Reading.next { table, arrays, items } =
      { table := later, arrays := more, items := items ++ added } := by
  induction statements generalizing table arrays with
  | nil => exact ⟨table, arrays, [], fun items => by rw [List.append_nil, List.foldl_nil]⟩
  | cons statement statements ih =>
      have one : ∃ later more added, ∀ items, Reading.next { table, arrays, items } statement =
          { table := later, arrays := more, items := items ++ added } := by
        cases statement with
        | header keys =>
            exact ⟨resolve arrays [] keys, arrays, [(resolve arrays [] keys, .table)], fun _ => rfl⟩
        | arrayHeader keys =>
            let path := resolve arrays [] keys.dropLast ++ keys.getLast?.toList.map .key
            exact ⟨path ++ [.index (arrays.count path)], arrays ++ [path],
              [(path ++ [.index (arrays.count path)], .table)], fun _ => rfl⟩
        | pair keys value => exact ⟨_, _, under (table ++ keys.map .key) value, fun _ => rfl⟩
      obtain ⟨later, more, added, next⟩ := one
      obtain ⟨last, most, others, rest⟩ := ih later more
      refine ⟨last, most, added ++ others, fun items => ?_⟩
      rw [List.foldl_cons, next, rest, List.append_assoc]

/-- A pair with one key among the other statements. -/
theorem meaning_pair (before after : List (Statement V)) (key : List Char) :
    ∃ first second, ∀ item, meaning (before ++ .pair [key] [([], item)] :: after) =
      first ++ ((read before).table ++ [.key key], item) :: second := by
  obtain ⟨later, more, added, rest⟩ := foldl_next after (read before).table (read before).arrays
  refine ⟨(read before).items, added, fun item => ?_⟩
  have next : (read before).next (.pair [key] [([], item)]) =
      { table := (read before).table
        arrays := (read before).arrays
        items := (read before).items ++ [((read before).table ++ [.key key], item)] } := by
    simp [Reading.next, under]
  rw [meaning, read, List.foldl_append, List.foldl_cons, ← read, next, rest, List.append_assoc]
  rfl

theorem mapItems_append (change : V → W) (first second : Flat V) :
    mapItems change (first ++ second) = mapItems change first ++ mapItems change second :=
  List.map_append

theorem mapItems_under (change : V → W) (path : Path) (items : Flat V) :
    mapItems change (under path items) = under path (mapItems change items) := by
  simp only [mapItems, under, List.map_map]
  exact List.map_congr_left fun _ _ => rfl

theorem mapItems_paths (change : V → W) (items : Flat V) :
    (mapItems change items).map Prod.fst = items.map Prod.fst := by
  rw [mapItems, List.map_map]
  exact List.map_congr_left fun _ _ => rfl

/-- Where things stand is told without the values. -/
theorem read_map (change : V → W) (statements : List (Statement V)) :
    read (statements.map (Statement.map change)) =
      { table := (read statements).table
        arrays := (read statements).arrays
        items := mapItems change (read statements).items } := by
  have run : ∀ reading : Reading V,
      (statements.map (Statement.map change)).foldl Reading.next
          { table := reading.table, arrays := reading.arrays
            items := mapItems change reading.items } =
        { table := (statements.foldl Reading.next reading).table
          arrays := (statements.foldl Reading.next reading).arrays
          items := mapItems change (statements.foldl Reading.next reading).items } := by
    induction statements with
    | nil => exact fun _ => rfl
    | cons statement statements ih =>
        intro reading
        rw [List.map_cons, List.foldl_cons, List.foldl_cons, ← ih]
        cases statement with
        | header keys =>
            simp only [Statement.map, Reading.next, mapItems_append]
            rfl
        | arrayHeader keys =>
            simp only [Statement.map, Reading.next, mapItems_append]
            rfl
        | pair keys value =>
            simp only [Statement.map, Reading.next, mapItems_append, mapItems_under]
  exact run { table := [], arrays := [], items := [] }

/-- In a valid document nothing stands at two places. -/
theorem Valid.nodup {dialect : Dialect} {text : List Char} {statements : List (Statement Scalar)}
    (valid : Valid dialect text statements) : ((meaning statements).map Prod.fst).Nodup := by
  have once := dialect.once valid.coherent
  rw [meaning, read_map, mapItems_paths] at once
  exact once

end Meaning

end OpenGauss.Lib.Toml
