import Mathlib.Data.List.TakeWhile
import OpenGauss.Gaussdb.RewriteToml
import OpenGauss.Lib.TomlProperties

/-! When a file gets the sentinel in the right place. -/

set_option autoImplicit false

namespace OpenGauss.Gaussdb

open Driver Lib.Text Lib.Toml

/-! ### Lines -/

/-- Induction on the lines of a text. -/
theorem line_induction {motive : Text → Prop} (last : ∀ line, '\n' ∉ line → motive line)
    (next : ∀ line rest, '\n' ∉ line → motive rest → motive (line ++ '\n' :: rest))
    (text : Text) : motive text := by
  have sized : ∀ size : Nat, ∀ text : Text, text.length ≤ size → motive text := by
    intro size
    induction size with
    | zero =>
        intro text short
        obtain rfl := List.length_eq_zero_iff.mp (Nat.le_zero.mp short)
        exact last [] List.not_mem_nil
    | succ size ih =>
        intro text short
        by_cases member : '\n' ∈ text
        · obtain ⟨line, rest, rfl, noEnd⟩ := List.eq_append_cons_of_mem member
          rw [List.length_append, List.length_cons] at short
          exact next line rest noEnd (ih rest (by omega))
        · exact last text member
  exact sized text.length text (Nat.le_refl _)

theorem lines_next {line : Text} (noEnd : '\n' ∉ line) (rest : Text) :
    lines (line ++ '\n' :: rest) = stripCarriageReturn line :: lines rest := by
  have pieces : (line ++ '\n' :: rest).splitOn '\n' = line :: rest.splitOn '\n' :=
    List.splitOn_append_cons_self_of_not_mem noEnd rest
  have some : rest.splitOn '\n' ≠ [] := List.splitOn_ne_nil _ _
  simp only [lines, pieces]
  rw [List.dropLast_cons_of_ne_nil some, List.getLast?_cons_of_ne_nil some]
  rfl

theorem lines_last {line : Text} (noEnd : '\n' ∉ line) :
    lines line = if line.isEmpty then [] else [line] := by
  simp only [lines, List.splitOn_eq_singleton noEnd]
  cases line <;> rfl

/-- A text that consists of complete lines. -/
def Ended (text : Text) : Prop := text = [] ∨ text.getLast? = some '\n'

theorem Ended.rest {line rest : Text} (ended : Ended (line ++ '\n' :: rest)) : Ended rest := by
  rcases List.eq_nil_or_concat' rest with rfl | ⟨front, char, rfl⟩
  · exact .inl rfl
  · rcases ended with none | last
    · exact absurd none (List.append_ne_nil_of_right_ne_nil _ (List.cons_ne_nil _ _))
    · rw [← List.cons_append, ← List.append_assoc, List.getLast?_concat] at last
      exact .inr (by rw [List.getLast?_concat, last])

theorem ended_line {line : Text} (noEnd : '\n' ∉ line) (ended : Ended line) : line = [] := by
  rcases ended with none | last
  · exact none
  · exact absurd (List.mem_of_getLast? last) noEnd

theorem lines_append {front : Text} (ended : Ended front) (rest : Text) :
    lines (front ++ rest) = lines front ++ lines rest := by
  induction front using line_induction with
  | last line noEnd =>
      rw [ended_line noEnd ended]
      rfl
  | next line others noEnd ih =>
      rw [List.append_assoc, List.cons_append, lines_next noEnd, lines_next noEnd, ih ended.rest]
      rfl

theorem stripCarriageReturn_of_not_mem {line : Text} (noReturn : '\r' ∉ line) :
    stripCarriageReturn line = line :=
  if_neg fun last => noReturn (List.mem_of_getLast? last)

theorem terminated_lines {text : Text} (noReturn : '\r' ∉ text) :
    terminated (lines text) = text ∧ Ended text ∨
      terminated (lines text) = text ++ ['\n'] ∧ text.getLast? ≠ some '\n' := by
  induction text using line_induction with
  | last line noEnd =>
      rw [lines_last noEnd]
      cases line with
      | nil => exact .inl ⟨rfl, .inl rfl⟩
      | cons char line =>
          refine .inr ⟨?_, fun last => noEnd (List.mem_of_getLast? last)⟩
          simp [terminated]
  | next line rest noEnd ih =>
      obtain ⟨ownReturn, restReturn⟩ := List.mem_append.not.mp noReturn |> not_or.mp
      have left := ih fun member => restReturn (List.mem_cons_of_mem _ member)
      rw [lines_next noEnd, stripCarriageReturn_of_not_mem ownReturn, terminated_cons]
      rcases left with ⟨same, ended⟩ | ⟨same, unended⟩
      · refine .inl ⟨by rw [same]; simp, .inr ?_⟩
        rcases ended with rfl | last
        · rw [List.getLast?_concat]
        · rw [List.getLast?_append, List.getLast?_cons, last]
          rfl
      · refine .inr ⟨by rw [same]; simp, ?_⟩
        have some : rest ≠ [] := by
          rintro rfl
          simp [lines, terminated] at same
        rw [List.getLast?_append, List.getLast?_cons_of_ne_nil some,
          List.getLast?_eq_some_getLast some, Option.some_or,
          ← List.getLast?_eq_some_getLast some]
        exact unended

/-! ### Line ends -/

theorem noReturn_of_eased {text eased : Text} (easing : Eased text eased) : '\r' ∉ eased := by
  induction easing with
  | nil => exact List.not_mem_nil
  | char other _ ih =>
      intro member
      rcases List.mem_cons.mp member with same | member
      · exact other same.symm
      · exact ih member
  | lineEnd _ ih =>
      intro member
      rcases List.mem_cons.mp member with same | member
      · exact absurd same (by decide)
      · exact ih member

theorem getLast_eased {text eased : Text} (easing : Eased text eased) :
    eased.getLast? = text.getLast? := by
  induction easing with
  | nil => rfl
  | char _ _ ih => rw [List.getLast?_cons, List.getLast?_cons, ih]
  | lineEnd _ ih => rw [List.getLast?_cons, List.getLast?_cons_cons, List.getLast?_cons, ih]

theorem eased_line {line rest text : Text} (noEnd : '\n' ∉ line)
    (easing : Eased text (line ++ '\n' :: rest)) :
    ∃ front later, text = front ++ '\n' :: later ∧ Eased later rest ∧
      (front = line ∨ front = line ++ ['\r']) := by
  induction line generalizing text with
  | nil =>
      cases easing with
      | char _ others => exact ⟨[], _, rfl, others, .inl rfl⟩
      | lineEnd others => exact ⟨['\r'], _, rfl, others, .inr rfl⟩
  | cons char line ih =>
      cases easing with
      | char _ others =>
          obtain ⟨front, later, rfl, easing, ends⟩ :=
            ih (fun member => noEnd (List.mem_cons_of_mem _ member)) others
          refine ⟨char :: front, later, rfl, easing, ?_⟩
          exact ends.imp (congrArg (char :: ·)) (congrArg (char :: ·))
      | lineEnd => exact absurd List.mem_cons_self noEnd

/-- The lines of a text do not show how it ends them. -/
theorem lines_eased {text eased : Text} (easing : Eased text eased) : lines text = lines eased := by
  induction eased using line_induction generalizing text with
  | last line noEnd =>
      have same : text = line := by
        induction easing with
        | nil => rfl
        | char _ _ ih =>
            rw [ih fun member => noEnd (List.mem_cons_of_mem _ member)]
        | lineEnd => exact absurd List.mem_cons_self noEnd
      rw [same]
  | next line rest noEnd ih =>
      have noReturn : '\r' ∉ line := fun member =>
        noReturn_of_eased easing (List.mem_append_left _ member)
      obtain ⟨front, later, rfl, others, rfl | rfl⟩ := eased_line noEnd easing
      · rw [lines_next noEnd, lines_next noEnd, ih others]
      · have stripped : stripCarriageReturn (line ++ ['\r']) = line := by
          rw [stripCarriageReturn, if_pos List.getLast?_concat, List.dropLast_concat]
        have noEnds : '\n' ∉ line ++ ['\r'] := by
          intro member
          rcases List.mem_append.mp member with member | member
          · exact noEnd member
          · exact absurd member (by decide)
        rw [lines_next noEnds, lines_next noEnd, ih others, stripped,
          stripCarriageReturn_of_not_mem noReturn]

/-- The complete lines in front of a place, as the program writes them. -/
theorem terminated_front {dialect : Dialect} {front : Text} {before : List (Statement Scalar)}
    (frontLines : Lines dialect front before []) :
    Ended front ∧ ∀ other, Lines dialect (terminated (lines front) ++ other) before other := by
  have ended : Ended front := by
    obtain ⟨items, read, -⟩ := frontLines
    generalize ending : ([] : Text) = rest at read
    induction read with
    | done => exact .inl ending.symm
    | @next text later rest item items line _ ih =>
        rcases ih ending with rfl | last
        · obtain ⟨middle, expression, newline⟩ := line
          have suffix := expression.moves.suffix
          right
          obtain ⟨taken, rfl⟩ := suffix
          rcases newline with rfl | rfl
          · exact List.getLast?_concat
          · rw [List.getLast?_append]
            rfl
        · obtain ⟨taken, rfl⟩ := line.moves.suffix
          right
          rw [List.getLast?_append, last]
          rfl
  obtain ⟨taken, eased, same, easing, both⟩ := frontLines.moves
  rw [List.append_nil] at same
  subst same
  refine ⟨ended, fun other => ?_⟩
  have written : terminated (lines front) = eased := by
    rw [lines_eased easing]
    rcases terminated_lines (noReturn_of_eased easing) with ⟨same, -⟩ | ⟨-, unended⟩
    · exact same
    · rcases ended with rfl | last
      · cases easing
        rfl
      · exact absurd ((getLast_eased easing).trans last) unended
  rw [written]
  exact (both other).2

/-! ### The line that is replaced -/

/-- The lines that are written. -/
def edited (index : Option Nat) (texts : List Text) : List Text :=
  index.elim texts fun index => texts.modify index sentinelled

theorem sentinelled_eq (line : Text) :
    (textBefore? "password".toList line).getD [] ++ "password = \"".toList ++ keyringSentinel ++
      "\"".toList = sentinelled line := by
  have sentinel : "password = \"".toList ++ (keyringSentinel ++ "\"".toList) = sentinelLine := by
    decide +kernel
  rw [List.append_assoc, List.append_assoc, sentinel, sentinelled]

theorem line_eq (hasSections : Bool) (name : Text) (state : Rewriting) (line : Text) :
    Rewriting.line hasSections name state line =
      if ((if hasSections then inTargetSection name state.inTargetSection line
          else !state.replaced) && !state.replaced && isPasswordLine line) = true then
        { newContent := state.newContent ++ sentinelled line ++ ['\n']
          replaced := true
          inTargetSection := inTargetSection name state.inTargetSection line }
      else
        { newContent := state.newContent ++ line ++ ['\n']
          replaced := state.replaced
          inTargetSection := inTargetSection name state.inTargetSection line } := by
  rw [← sentinelled_eq, isPasswordLine, ← Bool.and_assoc]
  rfl

theorem foldl_replaced {hasSections : Bool} {name : Text} {texts : List Text} {state : Rewriting}
    (replaced : state.replaced = true) :
    (texts.foldl (Rewriting.line hasSections name) state).newContent =
      state.newContent ++ terminated texts := by
  induction texts generalizing state with
  | nil => exact (List.append_nil _).symm
  | cons line texts ih =>
      have off : ¬((if hasSections then inTargetSection name state.inTargetSection line
          else !state.replaced) && !state.replaced && isPasswordLine line) = true := by
        simp only [replaced, Bool.not_true, Bool.and_false, Bool.false_and, Bool.false_eq_true,
          not_false_eq_true]
      have copied := @ih
        { newContent := state.newContent ++ line ++ ['\n']
          replaced := state.replaced
          inTargetSection := inTargetSection name state.inTargetSection line } replaced
      rw [List.foldl_cons, line_eq, if_neg off, copied, terminated_cons]
      simp only [List.append_assoc]

theorem foldl_edited {hasSections : Bool} {name : Text} {texts : List Text} {state : Rewriting}
    (waiting : state.replaced = false) :
    (texts.foldl (Rewriting.line hasSections name) state).newContent =
      state.newContent ++
        terminated (edited (editedFrom hasSections name state.inTargetSection texts) texts) := by
  induction texts generalizing state with
  | nil => exact (List.append_nil _).symm
  | cons line texts ih =>
      have same : ((if hasSections then inTargetSection name state.inTargetSection line
          else !state.replaced) && !state.replaced && isPasswordLine line) =
          ((if hasSections then inTargetSection name state.inTargetSection line else true) &&
            isPasswordLine line) := by
        rw [waiting, Bool.not_false, Bool.and_true]
      rw [List.foldl_cons, editedFrom, line_eq, same]
      by_cases replace : ((if hasSections then inTargetSection name state.inTargetSection line
          else true) && isPasswordLine line) = true
      · rw [if_pos replace, if_pos replace, foldl_replaced rfl]
        simp only [edited, Option.elim_some, List.modify_zero_cons, terminated_cons,
          List.append_assoc]
      · have copied := @ih
          { newContent := state.newContent ++ line ++ ['\n']
            replaced := state.replaced
            inTargetSection := inTargetSection name state.inTargetSection line } waiting
        rw [if_neg replace, if_neg replace, copied]
        cases editedFrom hasSections name (inTargetSection name state.inTargetSection line) texts with
        | none =>
            simp only [edited, Option.elim_none, Option.map_none, terminated_cons,
              List.append_assoc]
        | some index =>
            simp only [edited, Option.elim_some, Option.map_some, List.modify_succ_cons,
              terminated_cons, List.append_assoc]

/-- What is done to a text in the end. -/
def finish (content newContent : Text) : Text :=
  if content.getLast? = some '\n' && "\n\n".toList.isSuffixOf newContent then newContent.dropLast
  else newContent

theorem rewrite_eq (content name : Text) :
    rewritePasswordToSentinelContent content name =
      finish content (terminated (edited (editedLine content name) (lines content))) := by
  have written := @foldl_edited (contains "[connections.".toList content) name (lines content)
    { newContent := [], replaced := false, inTargetSection := false } rfl
  rw [List.nil_append] at written
  rw [editedLine, ← written]
  rfl

/-- The line that is replaced looks like one with a password. -/
theorem editedFrom_some {hasSections : Bool} {name : Text} {inside : Bool} {texts : List Text}
    {index : Nat} (found : editedFrom hasSections name inside texts = some index) :
    ∃ line, texts[index]? = some line ∧ isPasswordLine line = true := by
  induction texts generalizing inside index with
  | nil => cases found
  | cons line texts ih =>
      rw [editedFrom] at found
      by_cases replace : ((if hasSections then inTargetSection name inside line else true) &&
          isPasswordLine line) = true
      · rw [if_pos replace] at found
        obtain rfl := Option.some.inj found
        exact ⟨line, rfl, (Bool.and_eq_true_iff.mp replace).2⟩
      · rw [if_neg replace] at found
        obtain ⟨before, later, rfl⟩ := Option.map_eq_some_iff.mp found
        obtain ⟨line, place, looks⟩ := ih later
        exact ⟨line, place, looks⟩

/-! ### The new line -/

theorem contains_iff {pattern text : Text} : contains pattern text = true ↔ pattern <:+: text := by
  constructor
  · intro found
    induction text with
    | nil =>
        cases pattern with
        | nil => exact List.infix_rfl
        | cons => cases found
    | cons char text ih =>
        rw [contains, textBefore?] at found
        split at found
        · rename_i starts
          exact (List.isPrefixOf_iff_prefix.mp starts).isInfix
        · rw [Option.isSome_map] at found
          exact (ih found).trans (List.suffix_cons _ _).isInfix
  · rintro ⟨before, after, rfl⟩
    rw [List.append_assoc]
    exact contains_append before pattern after

theorem textBefore?_append {char : Char} {pattern before : Text} (apart : char ∉ before)
    (rest : Text) :
    textBefore? (char :: pattern) (before ++ (char :: pattern ++ rest)) = some before := by
  induction before with
  | nil =>
      have found : (char :: pattern).isPrefixOf (char :: (pattern ++ rest)) = true :=
        List.isPrefixOf_iff_prefix.mpr (List.prefix_append (char :: pattern) rest)
      exact if_pos found
  | cons first before ih =>
      obtain ⟨other, others⟩ := not_or.mp (mt List.mem_cons.mpr apart)
      have noPrefix : ¬(char :: pattern).isPrefixOf
          (first :: (before ++ (char :: pattern ++ rest))) = true := by
        rw [List.isPrefixOf_cons_cons, beq_eq_false_iff_ne.mpr other, Bool.false_and]
        exact Bool.false_ne_true
      rw [List.cons_append, textBefore?, if_neg noPrefix, ih others]
      rfl

theorem isWhitespace_of_isBlank {char : Char} (blank : isBlank char = true) :
    isWhitespace char = true := by
  simp only [isBlank, Bool.or_eq_true, decide_eq_true_eq] at blank
  rcases blank with rfl | rfl
  · decide
  · decide

theorem isKeyChar_ascii {char : Char} (inside : isKeyChar char = true) : char.toNat < 128 := by
  by_contra large
  have bound {last : Char} (small : last.toNat < 128) (below : char.val ≤ last.val) : False :=
    large (Nat.lt_of_le_of_lt (UInt32.le_iff_toNat_le.mp below) small)
  rcases Bool.or_eq_true_iff.mp inside with inside | hyphen
  · rcases Bool.or_eq_true_iff.mp inside with inside | underscore
    · rcases Bool.or_eq_true_iff.mp inside with letter | digit
      · rcases Bool.or_eq_true_iff.mp letter with upper | lower
        · exact @bound 'Z' (by decide) (of_decide_eq_true upper).2
        · exact @bound 'z' (by decide) (of_decide_eq_true (Bool.and_eq_true_iff.mp lower).2)
      · exact @bound '9' (by decide) (of_decide_eq_true (Bool.and_eq_true_iff.mp digit).2)
    · exact large (of_decide_eq_true underscore ▸ by decide)
  · exact large (of_decide_eq_true hyphen ▸ by decide)

theorem isKeyChar_visible {char : Char} (inside : isKeyChar char = true) :
    isWhitespace char = false := by
  have all : ∀ code < 128, isKeyChar (Char.ofNat code) = true →
      isWhitespace (Char.ofNat code) = false := by decide
  have visible := all char.toNat (isKeyChar_ascii inside)
  rw [Char.ofNat_toNat] at visible
  exact visible inside

theorem takeWhile_whitespace {before : Text} {char : Char} {rest : Text}
    (spaces : ∀ char ∈ before, isWhitespace char = true) (visible : isWhitespace char = false) :
    (before ++ char :: rest).takeWhile isWhitespace = before := by
  rw [List.takeWhile_append_of_pos spaces, List.takeWhile_cons, visible]
  exact List.append_nil before

/-- The first key of a pair starts with a visible character. -/
theorem keys_visible {text rest : Text} {keys : List Text} (named : Keys text keys rest) :
    ∃ char later, text = char :: later ∧ isWhitespace char = false := by
  have first {text key rest : Text} (simple : SimpleKey text key rest) :
      ∃ char later, text = char :: later ∧ isWhitespace char = false := by
    cases simple with
    | @bare _ key _ some run =>
        obtain ⟨rfl, inside⟩ := run
        obtain ⟨char, key, rfl⟩ := List.exists_cons_of_ne_nil some
        exact ⟨char, _, rfl, isKeyChar_visible (inside char List.mem_cons_self)⟩
    | quoted known single =>
        refine ⟨_, _, rfl, ?_⟩
        rcases known with rfl | rfl
        · decide
        · decide
  cases named with
  | one simple => exact first simple
  | dotted simple => exact first simple

/-- A line that looks like one with a password, where a pair begins, is
replaced with the blanks in front of it. -/
theorem sentinelled_blanks {dialect : Dialect} {line behind later : Text}
    {statement : Statement Scalar} {keys : List Text} {value : Flat Scalar}
    (looks : isPasswordLine line = true) (pair : statement = .pair keys value)
    (expression : Expression dialect (line ++ behind) (some statement) later) :
    ∃ blanks, sentinelled line = blanks ++ sentinelLine ∧ ∀ char ∈ blanks, isBlank char = true := by
  have shown : "password".toList <+: line.dropWhile isWhitespace := by
    have starts := List.isPrefixOf_iff_prefix.mp (Bool.and_eq_true_iff.mp looks).1
    refine starts.trans ?_
    rw [trim, trimEnd, ← List.reverse_suffix, List.reverse_reverse]
    exact List.dropWhile_suffix _
  obtain ⟨rest, dropped⟩ := shown
  have spaces : ∀ char ∈ line.takeWhile isWhitespace, isWhitespace char = true := fun char member =>
    List.mem_takeWhile_imp member
  have whole : line = line.takeWhile isWhitespace ++ ("password".toList ++ rest) := by
    rw [dropped, List.takeWhile_append_dropWhile]
  have apart : 'p' ∉ line.takeWhile isWhitespace := fun member =>
    absurd (spaces _ member) (by decide)
  have word : 'p' :: "assword".toList = "password".toList := by decide
  have start : sentinelled line = line.takeWhile isWhitespace ++ sentinelLine := by
    have before := @textBefore?_append 'p' "assword".toList _ apart rest
    rw [word, ← whole] at before
    rw [sentinelled, before]
    rfl
  refine ⟨_, start, ?_⟩
  subst pair
  cases expression with
  | pair keyPart value blanks remark =>
      cases keyPart with
      | keys leading named before after =>
          obtain ⟨blank, run, all⟩ := leading
          obtain ⟨char, later, rfl, visible⟩ := keys_visible named
          have own := @takeWhile_whitespace blank char later
            (fun char member => isWhitespace_of_isBlank (all char member)) visible
          have letter : isWhitespace 'p' = false := by decide
          have same := @takeWhile_whitespace _ 'p' ("assword".toList ++ rest ++ behind) spaces letter
          have text : line.takeWhile isWhitespace ++ 'p' :: ("assword".toList ++ rest ++ behind) =
              blank ++ char :: later := by
            rw [← run]
            conv_rhs => rw [whole, ← word]
            simp only [List.append_assoc, List.cons_append]
          rw [← same, text, own]
          exact all

/-! ### What is read -/

section Items

variable {path : Path} {value : Text} {items : Flat Scalar}

theorem lookup_replaceAt (other : Path) :
    (replaceAt path value items).lookup other =
      (items.lookup other).map fun item => if other = path then .scalar (.string value) else item := by
  induction items with
  | nil => rfl
  | cons item items ih =>
      obtain ⟨own, item⟩ := item
      rw [replaceAt, List.map_cons, ← replaceAt]
      by_cases same : other = own
      · subst same
        by_cases here : other = path
        · simp [here]
        · simp [here]
      · have different : (other == own) = false := beq_eq_false_iff_ne.mpr same
        by_cases here : own = path
        · simp [here, List.lookup_cons, beq_eq_false_iff_ne.mpr (here ▸ same), ih]
        · simp [here, List.lookup_cons, different, ih]

theorem paths_replaceAt : (replaceAt path value items).map Prod.fst = items.map Prod.fst := by
  rw [replaceAt, List.map_map]
  apply List.map_congr_left
  intro item _
  simp only [Function.comp]
  split <;> rfl

theorem itemAt_replaceAt {item : Item Scalar} (there : items.lookup path = some item) :
    itemAt (replaceAt path value items) path = some (.scalar (.string value)) := by
  rw [itemAt, lookup_replaceAt, there, Option.map_some, if_pos rfl]

theorem itemAt_other {other : Path} (different : other ≠ path) :
    itemAt (replaceAt path value items) other = itemAt items other := by
  have listed : (replaceAt path value items).any (fun item => other.isPrefixOf item.1) =
      items.any fun item => other.isPrefixOf item.1 := by
    have paths {items : Flat Scalar} : items.any (fun item => other.isPrefixOf item.1) =
        (items.map Prod.fst).any other.isPrefixOf := by
      rw [List.any_map]
      rfl
    rw [paths, paths, paths_replaceAt]
  rw [itemAt, itemAt, lookup_replaceAt, listed]
  cases items.lookup other with
  | none => rfl
  | some item => rw [Option.map_some, if_neg different]

theorem stringAt_other {other : Path} (different : other ≠ path) :
    stringAt (replaceAt path value items) other = stringAt items other := by
  rw [stringAt, stringAt, itemAt_other different]

theorem portAt_other {other : Path} (different : other ≠ path) :
    portAt (replaceAt path value items) other = portAt items other := by
  rw [portAt, portAt, itemAt_other different]

theorem connectionNames_replaceAt :
    connectionNames (replaceAt path value items) = connectionNames items := by
  have paths {items : Flat Scalar} : connectionNames items =
      ((items.map Prod.fst).filterMap nameOf).foldr insertName [] := by
    rw [connectionNames, List.filterMap_map]
    rfl
  rw [paths, paths, paths_replaceAt]

/-- A connection that the path does not lead into. -/
theorem connectionAt_other {table : Path} (apart : ∀ name, keyBelow table name ≠ path) :
    connectionAt (replaceAt path value items) table = connectionAt items table := by
  simp only [connectionAt, stringAt_other (apart _), portAt_other (apart _)]

theorem keyBelow_ne {table : Path} {first second : String} (apart : first.toList ≠ second.toList) :
    keyBelow table first ≠ keyBelow table second := by
  intro same
  obtain ⟨-, names⟩ := List.append_inj' same rfl
  exact apart (Segment.key.inj (List.cons.inj names).1)

/-- The connection whose password is at the path. -/
theorem connectionAt_password {table : Path} {password : Text} {conn : TimedConnection}
    (there : items.lookup (keyBelow table "password") = some (.scalar (.string password)))
    (read : connectionAt items table = some conn) :
    conn.password = some password ∧
      connectionAt (replaceAt (keyBelow table "password") value items) table =
        some { conn with password := some value } := by
  have old : stringAt items (keyBelow table "password") = some (some password) := by
    rw [stringAt, itemAt, there]
  have new : stringAt (replaceAt (keyBelow table "password") value items)
      (keyBelow table "password") = some (some value) := by
    rw [stringAt, itemAt_replaceAt there]
  have other {name : String} (apart : name.toList ≠ "password".toList) :
      keyBelow table name ≠ keyBelow table "password" := keyBelow_ne apart
  rw [connectionAt] at read ⊢
  rw [new, stringAt_other (other (by decide)), stringAt_other (other (by decide)),
    portAt_other (other (by decide)), stringAt_other (other (by decide)),
    stringAt_other (other (by decide)), stringAt_other (other (by decide)),
    stringAt_other (other (by decide)), stringAt_other (other (by decide)),
    stringAt_other (other (by decide))]
  rw [old] at read
  simp only [Option.bind_eq_bind, Option.bind_eq_some_iff, Option.pure_def] at read ⊢
  obtain ⟨url, atUrl, host, atHost, port, atPort, user, atUser, given, same, dbname, atDbname,
    sslmode, atSslmode, timeout, atTimeout, lifetime, atLifetime, action, atAction, made⟩ := read
  obtain rfl := Option.some.inj same
  obtain rfl := Option.some.inj made
  exact ⟨rfl, url, atUrl, host, atHost, port, atPort, user, atUser, some value, rfl, dbname,
    atDbname, sslmode, atSslmode, timeout, atTimeout, lifetime, atLifetime, action, atAction, rfl⟩

end Items

theorem guard_some {condition : Prop} [Decidable condition] :
    (guard condition : Option Unit) = some () ↔ condition := by
  rw [guard]
  split
  · rename_i holds
    exact ⟨fun _ => holds, fun _ => rfl⟩
  · rename_i fails
    exact ⟨fun done => (by cases done), fun holds => absurd holds fails⟩

theorem deserialize_iff {items : Flat Scalar} {config : TimedMultiConfig} :
    deserialize items = some config ↔
      connectionAt items [] = some config.flat ∧
        stringAt items (keyBelow [] "default_connection") = some config.defaultConnection ∧
        (itemAt items (keyBelow [] "connections") = none ∨
          isTable (itemAt items (keyBelow [] "connections")) = true) ∧
        (∀ name ∈ connectionNames items, (sectionAt items name).isSome = true) ∧
        config.connections =
          (connectionNames items).map fun name => (name, (sectionAt items name).getD {}) := by
  constructor
  · intro parsed
    obtain ⟨flat, atFlat, parsed⟩ := Option.bind_eq_some_iff.mp parsed
    obtain ⟨default, atDefault, parsed⟩ := Option.bind_eq_some_iff.mp parsed
    obtain ⟨_, table, parsed⟩ := Option.bind_eq_some_iff.mp parsed
    obtain ⟨_, parts, made⟩ := Option.bind_eq_some_iff.mp parsed
    obtain rfl := Option.some.inj made
    exact ⟨atFlat, atDefault, guard_some.mp table, guard_some.mp parts, rfl⟩
  · rintro ⟨atFlat, atDefault, table, parts, connections⟩
    refine Option.bind_eq_some_iff.mpr ⟨_, atFlat, Option.bind_eq_some_iff.mpr ⟨_, atDefault,
      Option.bind_eq_some_iff.mpr ⟨(), guard_some.mpr table,
        Option.bind_eq_some_iff.mpr ⟨(), guard_some.mpr parts, ?_⟩⟩⟩⟩
    exact congrArg some (TimedMultiConfig.ext rfl rfl connections.symm)

theorem mem_connectionNames {items : Flat Scalar} {name : Text} :
    name ∈ connectionNames items ↔ ∃ item ∈ items, nameOf item.1 = some name := by
  rw [connectionNames, ← List.mem_filterMap]
  induction items.filterMap fun item => nameOf item.1 with
  | nil => exact Iff.rfl
  | cons first names ih => rw [List.foldr_cons, mem_insertName, ih, List.mem_cons]

theorem sectionAt_some {items : Flat Scalar} {name : Text} {conn : TimedConnection} :
    sectionAt items name = some conn ↔
      isTable (itemAt items (keyBelow [] "connections" ++ [.key name])) = true ∧
        connectionAt items (keyBelow [] "connections" ++ [.key name]) = some conn := by
  rw [sectionAt]
  split
  · rename_i table
    exact ⟨fun found => ⟨table, found⟩, fun found => found.2⟩
  · rename_i noTable
    exact ⟨fun found => (by cases found), fun found => absurd found.1 noTable⟩

section Sections

variable {items : Flat Scalar} {name password : Text}

/-- The path of a connection's password. -/
def sectionPath (name : Text) : Path :=
  keyBelow (keyBelow [] "connections" ++ [.key name]) "password"

theorem nameOf_sectionPath : nameOf (sectionPath name) = some name := by
  have reduced : nameOf (sectionPath name) =
      if "connections".toList = "connections".toList then some name else none := rfl
  rw [reduced, if_pos rfl]

theorem keyBelow_ne_sectionPath (first : String) : keyBelow [] first ≠ sectionPath name := by
  intro same
  have lengths := congrArg List.length same
  simp [keyBelow, sectionPath] at lengths

theorem listed_of_lookup {item : Item Scalar} (there : items.lookup (sectionPath name) = some item) :
    name ∈ connectionNames items := by
  obtain ⟨first, second, same, -⟩ := List.lookup_eq_some_iff.mp there
  have member : (sectionPath name, item) ∈ items := by
    rw [same]
    exact List.mem_append_right first List.mem_cons_self
  exact mem_connectionNames.mpr ⟨_, member, nameOf_sectionPath⟩

theorem sectionAt_replaceAt {other : Text} (different : other ≠ name) :
    sectionAt (replaceAt (sectionPath name) password items) other = sectionAt items other := by
  have table : keyBelow [] "connections" ++ [.key other] ≠ sectionPath name := by
    intro same
    have lengths := congrArg List.length same
    simp [keyBelow, sectionPath] at lengths
  have apart : ∀ field, keyBelow (keyBelow [] "connections" ++ [.key other]) field ≠
      sectionPath name := by
    intro field same
    simp [keyBelow, sectionPath, different] at same
  rw [sectionAt, sectionAt, itemAt_other table, connectionAt_other apart]

theorem sectionAt_password {conn : TimedConnection} (found : sectionAt items name = some conn)
    (there : items.lookup (sectionPath name) = some (.scalar (.string password))) :
    conn.password = some password ∧
      sectionAt (replaceAt (sectionPath name) keyringSentinel items) name =
        some conn.withSentinel := by
  have table : keyBelow [] "connections" ++ [.key name] ≠ sectionPath name := by
    intro same
    have lengths := congrArg List.length same
    simp [keyBelow, sectionPath] at lengths
  obtain ⟨isTable, read⟩ := sectionAt_some.mp found
  obtain ⟨given, written⟩ := @connectionAt_password keyringSentinel _ _ _ _ there read
  refine ⟨given, sectionAt_some.mpr ⟨?_, ?_⟩⟩
  · rw [itemAt_other table]
    exact isTable
  · rw [TimedConnection.withSentinel, given]
    exact written

end Sections

/-- The password of a connection, and the same file with another one. -/
theorem deserialize_replaceAt {items : Flat Scalar} {config : TimedMultiConfig} {name password : Text}
    (read : deserialize items = some config)
    (there : items.lookup (passwordPath config name) = some (.scalar (.string password))) :
    deserialize (replaceAt (passwordPath config name) keyringSentinel items) =
      some (config.withSentinel name) := by
  obtain ⟨atFlat, atDefault, table, parts, connections⟩ := deserialize_iff.mp read
  rw [passwordPath] at there ⊢
  by_cases empty : config.connections.isEmpty = true
  · rw [if_pos empty] at there ⊢
    have none : connectionNames items = [] := by
      have length := congrArg List.length connections
      rw [List.isEmpty_iff.mp empty, List.length_map] at length
      exact List.length_eq_zero_iff.mp length.symm
    obtain ⟨given, flat⟩ := @connectionAt_password keyringSentinel items [] password _ there atFlat
    refine deserialize_iff.mpr ⟨?_, ?_, ?_, ?_, ?_⟩
    · rw [flat, TimedMultiConfig.withSentinel, if_pos empty, TimedConnection.withSentinel, given]
      rfl
    · rw [stringAt_other (keyBelow_ne (by decide)), atDefault, TimedMultiConfig.withSentinel,
        if_pos empty]
    · rw [itemAt_other (keyBelow_ne (by decide))]
      exact table
    · rw [connectionNames_replaceAt, none]
      exact fun _ member => absurd member List.not_mem_nil
    · rw [connectionNames_replaceAt, none, TimedMultiConfig.withSentinel, if_pos empty]
      exact List.isEmpty_iff.mp empty
  · rw [if_neg empty] at there ⊢
    rw [← sectionPath] at there ⊢
    have listed := listed_of_lookup there
    obtain ⟨conn, found⟩ := Option.isSome_iff_exists.mp (parts name listed)
    obtain ⟨given, written⟩ := sectionAt_password found there
    refine deserialize_iff.mpr ⟨?_, ?_, ?_, ?_, ?_⟩
    · rw [connectionAt_other keyBelow_ne_sectionPath, atFlat, TimedMultiConfig.withSentinel,
        if_neg empty]
    · rw [stringAt_other (keyBelow_ne_sectionPath _), atDefault, TimedMultiConfig.withSentinel,
        if_neg empty]
    · rw [itemAt_other (keyBelow_ne_sectionPath _)]
      exact table
    · rw [connectionNames_replaceAt]
      intro other member
      by_cases same : other = name
      · rw [same, written]
        rfl
      · rw [sectionAt_replaceAt same]
        exact parts other member
    · rw [connectionNames_replaceAt, TimedMultiConfig.withSentinel, if_neg empty]
      simp only [connections, List.map_map]
      apply List.map_congr_left
      intro other _
      by_cases same : other = name
      · simp [same, written, found]
      · simp [same, sectionAt_replaceAt same]

/-! ### The file -/

section File

variable {dialect : Dialect} {content name password front line rest : Text} {path : Path}
  {statements before after : List (Statement Scalar)}

theorem replaceAt_apart {value : Text} {items : Flat Scalar} (apart : path ∉ items.map Prod.fst) :
    replaceAt path value items = items := by
  rw [replaceAt]
  refine (List.map_congr_left fun item member => ?_).trans (List.map_id items)
  have other : item.1 ≠ path := by
    intro same
    rw [← same] at apart
    exact apart (List.mem_map_of_mem member)
  exact if_neg other

theorem PasswordLine.replaced
    (given : PasswordLine dialect content statements path password front line rest before after)
    (nodup : ((meaning statements).map Prod.fst).Nodup) :
    (meaning statements).lookup path = some (.scalar (.string password)) ∧
      meaning (before ++ passwordPair keyringSentinel :: after) =
        replaceAt path keyringSentinel (meaning statements) := by
  obtain ⟨first, second, read⟩ := meaning_pair before after "password".toList
  have own : meaning statements = first ++ (path, .scalar (.string password)) :: second := by
    rw [given.whole, passwordPair, read, ← given.place]
    rfl
  have changed : meaning (before ++ passwordPair keyringSentinel :: after) =
      first ++ (path, .scalar (.string keyringSentinel)) :: second := by
    rw [passwordPair, read, ← given.place]
    rfl
  rw [own, List.map_append, List.map_cons] at nodup
  obtain ⟨-, others, apart⟩ := List.nodup_append.mp nodup
  have notFirst : path ∉ first.map Prod.fst := fun member =>
    apart path member path List.mem_cons_self rfl
  have notSecond := (List.nodup_cons.mp others).1
  constructor
  · rw [own]
    refine List.lookup_eq_some_iff.mpr ⟨first, second, rfl, fun item member => ?_⟩
    refine bne_iff_ne.mpr fun same => ?_
    rw [same] at notFirst
    exact notFirst (List.mem_map_of_mem member)
  · rw [changed, own]
    have split : replaceAt path keyringSentinel
        (first ++ (path, .scalar (.string password)) :: second) =
        replaceAt path keyringSentinel first ++ (path, .scalar (.string keyringSentinel)) ::
          replaceAt path keyringSentinel second := by
      rw [replaceAt, List.map_append, List.map_cons, if_pos rfl]
      rfl
    rw [split, replaceAt_apart notFirst, replaceAt_apart notSecond]

theorem strip_returned (line : Text) : stripCarriageReturn (line ++ ['\r']) = line := by
  rw [stripCarriageReturn, if_pos List.getLast?_concat, List.dropLast_concat]

theorem PasswordLine.lines_content
    (given : PasswordLine dialect content statements path password front line rest before after) :
    lines content = lines front ++ line :: lines rest := by
  obtain ⟨behind, later, rfl, ends, pair⟩ := given.pair
  have noEnd : '\n' ∉ line := fun member => (given.oneLine _ member).1 rfl
  have noReturn : '\r' ∉ line := fun member => (given.oneLine _ member).2 rfl
  rw [lines_append (terminated_front given.frontLines).1]
  rcases ends with ⟨rfl, rfl⟩ | rfl | rfl
  · rw [List.append_nil] at pair ⊢
    rw [lines_last noEnd]
    cases line with
    | nil => exact absurd pair.blank_of_nil (Option.some_ne_none _)
    | cons char line => rfl
  · rw [lines_next noEnd, stripCarriageReturn_of_not_mem noReturn]
  · have noEnds : '\n' ∉ line ++ ['\r'] := by
      intro member
      rcases List.mem_append.mp member with member | member
      · exact noEnd member
      · exact absurd member (by decide)
    have split : line ++ '\r' :: '\n' :: rest = (line ++ ['\r']) ++ '\n' :: rest := by
      rw [List.append_assoc]
      rfl
    rw [split, lines_next noEnds, strip_returned]

theorem PasswordLine.getLast
    (given : PasswordLine dialect content statements path password front line rest before after)
    (some : rest ≠ []) : content.getLast? = rest.getLast? := by
  obtain ⟨behind, later, rfl, ends, pair⟩ := given.pair
  have suffix : rest <:+ front ++ (line ++ behind) := by
    rcases ends with ⟨-, rfl⟩ | newline
    · exact absurd rfl some
    · exact (newline.moves.suffix.trans (List.suffix_append _ _)).trans (List.suffix_append _ _)
  obtain ⟨taken, whole⟩ := suffix
  rw [← whole, List.getLast?_append, List.getLast?_eq_some_getLast some]
  rfl

theorem single_plain {text : Text} (plain : ∀ char ∈ text, basic.plain char = true) (rest : Text) :
    Single basic (text ++ '"' :: rest) text rest := by
  induction text with
  | nil => exact .close rest
  | cons char text ih =>
      exact .char (plain char List.mem_cons_self)
        (ih fun other member => plain other (List.mem_cons_of_mem char member))

theorem blanks_nil (rest : Text) : Blanks rest rest :=
  ⟨[], rfl, fun _ member => absurd member List.not_mem_nil⟩

/-- A line with a pair whose key and string need no quotes and no escapes. -/
theorem pair_line {blanks key value : Text} (blank : ∀ char ∈ blanks, isBlank char = true)
    (some : key ≠ []) (bare : ∀ char ∈ key, isKeyChar char = true)
    (plain : ∀ char ∈ value, basic.plain char = true) (rest : Text) :
    Line dialect (blanks ++ (key ++ (" = \"".toList ++ (value ++ ('"' :: '\n' :: rest)))))
      (Option.some (.pair [key] [([], .scalar (.string value))])) rest := by
  have space (rest : Text) : Blanks (' ' :: rest) rest := ⟨[' '], rfl, by decide⟩
  have quoted := single_plain plain ('\n' :: rest)
  have keys : KeyPart (blanks ++ (key ++ (" = \"".toList ++ (value ++ ('"' :: '\n' :: rest)))))
      [key] ('"' :: (value ++ '"' :: '\n' :: rest)) :=
    .keys ⟨blanks, rfl, blank⟩ (.one (.bare some ⟨rfl, bare⟩)) (space _) (space _)
  exact ⟨'\n' :: rest, .pair keys (.string (.single (.inl rfl) quoted)) (blanks_nil _) (.none _),
    .inl rfl⟩

/-- The new line is a pair. -/
theorem sentinelLine_line {blanks : Text} (blank : ∀ char ∈ blanks, isBlank char = true)
    (rest : Text) :
    Line dialect (blanks ++ (sentinelLine ++ '\n' :: rest)) (some (passwordPair keyringSentinel))
      rest := by
  have spelled : sentinelLine = "password".toList ++
      (" = \"".toList ++ (keyringSentinel ++ ['"'])) := by decide +kernel
  have line := @pair_line dialect blanks "password".toList keyringSentinel blank (by decide)
    (by decide) (by decide) rest
  rw [spelled]
  simp only [List.append_assoc, List.cons_append, List.nil_append]
  exact line

theorem document_sentinel {written blanks later : Text}
    (frontLines : ∀ other, Lines dialect (written ++ other) before other)
    (blank : ∀ char ∈ blanks, isBlank char = true) (behind : Document dialect later after) :
    Document dialect (written ++ (blanks ++ (sentinelLine ++ '\n' :: later)))
      (before ++ passwordPair keyringSentinel :: after) := by
  obtain ⟨lines, last, middle, read, expression, same⟩ :=
    Document.next (sentinelLine_line blank later) behind
  refine ⟨before ++ lines, last, middle, (frontLines _).append read, expression, ?_⟩
  rw [List.append_assoc, ← same]
  rfl

theorem infix_concat {pattern text : Text} {char : Char} (apart : char ∉ pattern)
    (inside : pattern <:+: text ++ [char]) : pattern <:+: text := by
  obtain ⟨before, behind, same⟩ := inside
  rcases List.eq_nil_or_concat' behind with rfl | ⟨behind, last, rfl⟩
  · rcases List.eq_nil_or_concat' pattern with rfl | ⟨pattern, last, rfl⟩
    · exact List.nil_infix
    · rw [List.append_nil, ← List.append_assoc] at same
      obtain ⟨-, ends⟩ := List.append_inj' same rfl
      rw [(List.cons.inj ends).1] at apart
      exact absurd (List.mem_append_right pattern List.mem_cons_self) apart
  · rw [← List.append_assoc] at same
    exact ⟨before, behind, (List.append_inj' same rfl).1⟩

theorem finish_starts (content newContent : Text) : finish content newContent <+: newContent := by
  rw [finish]
  split
  · exact List.dropLast_prefix newContent
  · exact List.prefix_rfl

/-- What has no line end in it is not lost in the end. -/
theorem infix_finish {pattern newContent : Text} (content : Text) (noEnd : '\n' ∉ pattern)
    (inside : pattern <:+: newContent) : pattern <:+: finish content newContent := by
  rw [finish]
  split
  · rename_i doubled
    obtain ⟨front, same⟩ := List.isSuffixOf_iff_suffix.mp (Bool.and_eq_true_iff.mp doubled).2
    have whole : newContent = (front ++ ['\n']) ++ ['\n'] := by
      rw [← same, List.append_assoc]
      rfl
    rw [whole, List.dropLast_concat]
    rw [whole] at inside
    exact infix_concat noEnd inside
  · exact inside

/-- What is written behind the new line. -/
theorem finish_rest (written : Text)
    (given : PasswordLine dialect content statements path password front line rest before after) :
    ∃ later, finish content ((written ++ sentinelLine) ++ '\n' :: terminated (lines rest)) =
      (written ++ sentinelLine) ++ '\n' :: later ∧ Document dialect later after := by
  have quote : (written ++ sentinelLine).getLast? = some '"' := by
    rw [List.getLast?_append]
    have last : sentinelLine.getLast? = some '"' := by decide
    rw [last]
    rfl
  obtain ⟨eased, easing, document⟩ := given.restDocument.eased
  have noReturn := noReturn_of_eased easing
  have last := getLast_eased easing
  rw [lines_eased easing]
  by_cases none : rest = []
  · subst none
    cases easing
    refine ⟨[], if_neg ?_, document⟩
    intro doubled
    obtain ⟨front, same⟩ := List.isSuffixOf_iff_suffix.mp (Bool.and_eq_true_iff.mp doubled).2
    have whole : (front ++ ['\n']) ++ ['\n'] = (written ++ sentinelLine) ++ ['\n'] := by
      rw [List.append_assoc]
      exact same
    rw [← (List.append_inj' whole rfl).1, List.getLast?_concat] at quote
    exact absurd quote (by decide)
  · rcases terminated_lines noReturn with ⟨same, ended⟩ | ⟨same, unended⟩
    · rw [same, finish]
      split
      · rcases ended with rfl | lineEnd
        · exact absurd (List.getLast?_eq_none_iff.mp last.symm) none
        · obtain ⟨text, rfl⟩ := List.getLast?_eq_some_iff.mp lineEnd
          refine ⟨text, ?_, document.unended fun returned => ?_⟩
          · rw [← List.cons_append, ← List.append_assoc, List.dropLast_concat]
          · exact noReturn (List.mem_append_left _ (List.mem_of_getLast? returned))
      · exact ⟨eased, rfl, document⟩
    · refine ⟨eased ++ ['\n'], ?_, document.ended⟩
      rw [same, finish, if_neg]
      intro doubled
      have ends := of_decide_eq_true (Bool.and_eq_true_iff.mp doubled).1
      rw [given.getLast none, ← last] at ends
      exact unended ends

theorem modify_length (front : List Text) (line : Text) (rest : List Text) :
    (front ++ line :: rest).modify front.length sentinelled = front ++ sentinelled line :: rest := by
  induction front with
  | nil => rfl
  | cons first front ih =>
      rw [List.cons_append, List.length_cons, List.modify_succ_cons, ih]
      rfl

end File

/-- The pair gives the password of the connection. -/
theorem passwordOf_lookup {items : Flat Scalar} {config : TimedMultiConfig} {name password : Text}
    (parsed : deserialize items = some config)
    (there : items.lookup (passwordPath config name) = some (.scalar (.string password))) :
    config.passwordOf name = some password := by
  obtain ⟨atFlat, -, -, parts, connections⟩ := deserialize_iff.mp parsed
  rw [passwordPath] at there
  rw [TimedMultiConfig.passwordOf]
  by_cases empty : config.connections.isEmpty = true
  · rw [if_pos empty] at there ⊢
    exact (@connectionAt_password keyringSentinel items [] password _ there atFlat).1
  · rw [if_neg empty] at there ⊢
    have listed := listed_of_lookup there
    obtain ⟨conn, found⟩ := Option.isSome_iff_exists.mp (parts name listed)
    have entry : ∀ names : List Text, name ∈ names →
        (names.map fun name => (name, (sectionAt items name).getD {})).lookup name =
          some conn := by
      intro names member
      induction names with
      | nil => exact absurd member List.not_mem_nil
      | cons first names ih =>
          rw [List.map_cons, List.lookup_cons]
          by_cases same : name = first
          · rw [← same, beq_self_eq_true, found]
            rfl
          · rw [beq_eq_false_iff_ne.mpr same]
            exact ih ((List.mem_cons.mp member).resolve_left same)
    rw [connections, entry _ listed]
    exact (sectionAt_password found there).1

/-! ### The sentinel in the right place -/

section Rewriting

variable {dialect : Dialect} {content name password : Text} {statements : List (Statement Scalar)}
  {config : TimedMultiConfig}

theorem EditsPassword.rewrites (valid : Valid dialect content statements)
    (parsed : deserialize (meaning statements) = some config)
    (edits : EditsPassword dialect content name statements config password) :
    Rewrites dialect content name statements config password := by
  obtain ⟨front, line, rest, before, after, given, index, gone⟩ := edits
  have written : edited (editedLine content name) (lines content) =
      lines front ++ sentinelled line :: lines rest := by
    rw [index, given.lines_content]
    exact modify_length _ _ _
  obtain ⟨found, place, looks⟩ := editedFrom_some index
  have same : found = line := by
    rw [given.lines_content, List.getElem?_append_right (Nat.le_refl _), Nat.sub_self] at place
    exact (Option.some.inj place).symm
  subst same
  obtain ⟨behind, later, -, -, pair⟩ := given.pair
  obtain ⟨blanks, starts, blank⟩ := sentinelled_blanks looks rfl pair
  obtain ⟨later, finished, document⟩ :=
    finish_rest (terminated (lines front) ++ blanks) given
  have result : rewritePasswordToSentinelContent content name =
      terminated (lines front) ++ (blanks ++ (sentinelLine ++ '\n' :: later)) := by
    have text : terminated (lines front ++ sentinelled found :: lines rest) =
        (terminated (lines front) ++ blanks ++ sentinelLine) ++ '\n' :: terminated (lines rest) := by
      rw [terminated_append, terminated_cons, starts]
      simp only [List.append_assoc, List.cons_append, List.nil_append]
    rw [rewrite_eq, written, text, finished]
    simp only [List.append_assoc]
  obtain ⟨there, changed⟩ := given.replaced valid.nodup
  constructor
  · refine ⟨before ++ passwordPair keyringSentinel :: after, ⟨?_, ?_⟩, changed, ?_⟩
    · rw [result]
      exact document_sentinel (terminated_front given.frontLines).2 blank document
    · have shape := valid.coherent
      rw [given.whole, List.map_append, List.map_cons] at shape
      rw [List.map_append, List.map_cons]
      exact shape
    · rw [changed]
      exact deserialize_replaceAt parsed there
  · rw [rewrite_eq, written]
    rw [Bool.eq_false_iff, ne_eq, contains_iff] at gone ⊢
    exact fun inside => gone (inside.trans (finish_starts _ _).isInfix)

theorem Rewrites.edits (rewrites : Rewrites dialect content name statements config password)
    (shows : ShowsPassword dialect content name statements config password) :
    EditsPassword dialect content name statements config password := by
  obtain ⟨front, line, rest, before, after, given, shown⟩ := shows
  have inside := contains_iff.mp shown
  have noEnd : '\n' ∉ password := fun member =>
    (given.oneLine _ (inside.subset member)).1 rfl
  have absent {texts : List Text}
      (written : edited (editedLine content name) (lines content) = texts) :
      ¬password <:+: terminated texts := by
    intro remains
    have gone := rewrites.gone
    rw [rewrite_eq, written, Bool.eq_false_iff, ne_eq, contains_iff] at gone
    exact gone (infix_finish content noEnd remains)
  have index : editedLine content name = some (lines front).length := by
    by_contra other
    have kept : line ∈ edited (editedLine content name) (lines content) := by
      have place : (lines content)[(lines front).length]? = some line := by
        rw [given.lines_content, List.getElem?_append_right (Nat.le_refl _), Nat.sub_self]
        rfl
      cases found : editedLine content name with
      | none => exact List.mem_of_getElem? place
      | some index =>
          have apart : index ≠ (lines front).length := fun same =>
            other (found.trans (congrArg some same))
          have left : ((lines content).modify index sentinelled)[(lines front).length]? =
              some line := by
            rw [List.getElem?_modify_ne _ _ apart]
            exact place
          exact List.mem_of_getElem? left
    obtain ⟨first, second, same⟩ := List.append_of_mem kept
    refine absent same ?_
    rw [terminated_append, terminated_cons]
    have own : line <:+: terminated first ++ (line ++ ['\n'] ++ terminated second) :=
      ⟨terminated first, ['\n'] ++ terminated second, by simp only [List.append_assoc]⟩
    exact inside.trans own
  refine ⟨front, line, rest, before, after, given, index, ?_⟩
  rw [Bool.eq_false_iff, ne_eq, contains_iff]
  apply absent
  rw [index, given.lines_content]
  exact modify_length _ _ _

/-- A file is rewritten rightly if the line that gives the password is the one
that is replaced, and where that line shows the password, only then. -/
theorem rewrites_iff (valid : Valid dialect content statements)
    (parsed : deserialize (meaning statements) = some config) :
    (EditsPassword dialect content name statements config password →
      Rewrites dialect content name statements config password) ∧
    (ShowsPassword dialect content name statements config password →
      (Rewrites dialect content name statements config password ↔
        EditsPassword dialect content name statements config password)) :=
  ⟨EditsPassword.rewrites valid parsed, fun shows =>
    ⟨fun rewrites => rewrites.edits shows, EditsPassword.rewrites valid parsed⟩⟩

end Rewriting

/-! ### Two files -/

/-- A dialect whose only values are strings. -/
def strings : Dialect where
  unquoted _ _ := False
  coherent statements := ((meaning statements).map Prod.fst).Nodup
  unquoted_text := fun impossible => impossible.elim
  once := id

theorem document_nil {dialect : Dialect} : Document dialect [] [] :=
  ⟨[], none, [], .done [], .blank (blanks_nil []) (.none []), rfl⟩

theorem rewrites_iff_flat :
    Rewrites strings "password = \"s3cret\"\n".toList "default".toList
      [passwordPair "s3cret".toList] { flat := { password := some "s3cret".toList } }
      "s3cret".toList := by
  have line := @pair_line strings [] "password".toList "s3cret".toList (by decide) (by decide)
    (by decide) (by decide) []
  have distinct : ((meaning ([passwordPair "s3cret".toList].map
      (Statement.map fun _ => ()))).map Prod.fst).Nodup := by decide +kernel
  have valid : Valid strings "password = \"s3cret\"\n".toList [passwordPair "s3cret".toList] :=
    ⟨Document.next line document_nil, distinct⟩
  have parsed : deserialize (meaning [passwordPair "s3cret".toList]) =
      some { flat := { password := some "s3cret".toList } } :=
    deserialize_iff.mpr ⟨by decide +kernel, by decide +kernel, by decide +kernel,
      by decide +kernel, by decide +kernel⟩
  obtain ⟨later, expression, newline⟩ := line
  refine (rewrites_iff valid parsed).1 ⟨[], "password = \"s3cret\"".toList, [], [], [],
    ⟨.done [], ⟨['\n'], later, by decide, .inr (.inl rfl), expression⟩, by decide, document_nil, rfl,
      by decide⟩, by decide +kernel, by decide +kernel⟩

/-- The line of another key is replaced, and the password stays. -/
theorem not_rewrites_hint :
    ∃ statements config, Valid strings
        "password_hint = \"dog\"\npassword = \"s3cret\"\n".toList statements ∧
      deserialize (meaning statements) = some config ∧
      config.passwordOf "default".toList = some "s3cret".toList ∧
      "s3cret".toList ≠ keyringSentinel ∧
      ¬Rewrites strings "password_hint = \"dog\"\npassword = \"s3cret\"\n".toList
        "default".toList statements config "s3cret".toList := by
  have second := @pair_line strings [] "password".toList "s3cret".toList (by decide) (by decide)
    (by decide) (by decide) []
  have first := @pair_line strings [] "password_hint".toList "dog".toList (by decide) (by decide)
    (by decide) (by decide) "password = \"s3cret\"\n".toList
  have distinct : ((meaning ([.pair ["password_hint".toList]
      [([], .scalar (.string "dog".toList))], passwordPair "s3cret".toList].map
      (Statement.map fun _ => ()))).map Prod.fst).Nodup := by decide +kernel
  refine ⟨[.pair ["password_hint".toList] [([], .scalar (.string "dog".toList))],
      passwordPair "s3cret".toList], { flat := { password := some "s3cret".toList } },
    ⟨Document.next first (Document.next second document_nil), distinct⟩,
    deserialize_iff.mpr ⟨by decide +kernel, by decide +kernel, by decide +kernel,
      by decide +kernel, by decide +kernel⟩, rfl, by decide, fun rewrites => ?_⟩
  have stays : contains "s3cret".toList (rewritePasswordToSentinelContent
      "password_hint = \"dog\"\npassword = \"s3cret\"\n".toList "default".toList) = true := by
    decide +kernel
  rw [rewrites.gone] at stays
  cases stays

end OpenGauss.Gaussdb
