import OpenGauss.Gaussdb.RewriteTomlProperties

/-! What rewriting a file does to the lines around the password: it leaves them
alone in a file of complete lines without carriage returns or blank lines at its
end, and in no other. -/

set_option autoImplicit false

namespace OpenGauss.Gaussdb

open Driver Lib.Text Lib.Toml

/-- What follows a line: its line end, or nothing at the end of the text. -/
inductive LineEnd (line : Text) : Text → Prop where
  | none : LineEnd line []
  | newline {rest : Text} (returned : line.getLast? ≠ some '\r') : LineEnd line ('\n' :: rest)
  | carriageReturn {rest : Text} : LineEnd line ('\r' :: '\n' :: rest)

/-- Two texts are the same but for the line whose password is put away. -/
def OnlyPasswordLine (content name result : Text) : Prop :=
  result = content ∨
    ∃ before line other after, content = before ++ line ++ after ∧
      result = before ++ other ++ after ∧ Ended before ∧ '\n' ∉ line ∧ '\n' ∉ other ∧
      LineEnd line after ∧ editedLine content name = some (lines before).length

/-- The claim on a file: only its password line changes, and only once. -/
def ChangesOneLine (content name : Text) : Prop :=
  OnlyPasswordLine content name (rewritePasswordToSentinelContent content name) ∧
    rewritePasswordToSentinelContent (rewritePasswordToSentinelContent content name) name =
      rewritePasswordToSentinelContent content name

/-- Complete lines, without carriage returns and blank lines at the end. -/
def Tidy (content : Text) : Prop :=
  content = [] ∨ content.getLast? = some '\n' ∧ ¬"\r\n".toList <:+: content ∧
    ¬"\n\n".toList <:+ content

instance (content : Text) : Decidable (Tidy content) :=
  inferInstanceAs (Decidable (_ ∨ _ ∧ ¬_ ∧ ¬_))

/-! ### Pieces -/

theorem terminated_nil : terminated [] = [] := rfl

/-- Nothing breaks any of the texts. -/
def Unbroken (texts : List Text) : Prop := ∀ line ∈ texts, '\n' ∉ line

theorem exists_terminated (text : Text) :
    ∃ texts tail, text = terminated texts ++ tail ∧ Unbroken texts ∧ '\n' ∉ tail := by
  induction text using line_induction with
  | last line noEnd => exact ⟨[], line, rfl, fun _ member => absurd member List.not_mem_nil, noEnd⟩
  | next line rest noEnd ih =>
      obtain ⟨texts, tail, same, unbroken, last⟩ := ih
      refine ⟨line :: texts, tail, ?_, List.forall_mem_cons.mpr ⟨noEnd, unbroken⟩, last⟩
      rw [terminated_cons, same]
      simp only [List.append_assoc, List.cons_append, List.nil_append]

theorem splitOn_pieces {texts : List Text} (unbroken : Unbroken texts) {tail : Text}
    (last : '\n' ∉ tail) : (terminated texts ++ tail).splitOn '\n' = texts ++ [tail] := by
  induction texts with
  | nil => exact List.splitOn_eq_singleton last
  | cons line texts ih =>
      obtain ⟨own, others⟩ := List.forall_mem_cons.mp unbroken
      rw [terminated_cons, List.append_assoc, List.append_assoc, List.singleton_append,
        List.splitOn_append_cons_self_of_not_mem own, ih others, List.cons_append]

theorem terminated_injective {first second : List Text} {tail other : Text}
    (left : Unbroken first) (right : Unbroken second) (last : '\n' ∉ tail) (end_ : '\n' ∉ other)
    (same : terminated first ++ tail = terminated second ++ other) :
    first = second ∧ tail = other := by
  have pieces := congrArg (List.splitOn '\n') same
  rw [splitOn_pieces left last, splitOn_pieces right end_] at pieces
  obtain ⟨texts, tails⟩ := List.append_inj' pieces rfl
  exact ⟨texts, (List.cons.inj tails).1⟩

theorem lines_pieces {texts : List Text} (unbroken : Unbroken texts) {tail : Text}
    (last : '\n' ∉ tail) :
    lines (terminated texts ++ tail) =
      texts.map stripCarriageReturn ++ if tail.isEmpty then [] else [tail] := by
  induction texts with
  | nil => exact lines_last last
  | cons line texts ih =>
      obtain ⟨own, others⟩ := List.forall_mem_cons.mp unbroken
      rw [terminated_cons, List.append_assoc, List.append_assoc, List.singleton_append,
        lines_next own, ih others, List.map_cons, List.cons_append]

theorem terminated_getLast {texts : List Text} (content : texts ≠ []) :
    (terminated texts).getLast? = some '\n' := by
  obtain none | ⟨front, last, rfl⟩ := List.eq_nil_or_concat' texts
  · exact absurd none content
  · rw [terminated_append, terminated_cons, terminated_nil, List.append_nil, ← List.append_assoc,
      List.getLast?_concat]

/-- A text that ends with two line ends has an empty last line, and one before it. -/
theorem blank_last {texts : List Text} (unbroken : Unbroken texts) :
    "\n\n".toList <:+ terminated texts ↔ ∃ front, front ≠ [] ∧ texts = front ++ [[]] := by
  constructor
  · intro ⟨before, same⟩
    have shape : "\n\n".toList = ['\n', '\n'] := by decide
    rw [shape] at same
    obtain ⟨front, tail, rfl, whole, last⟩ := exists_terminated before
    have joined : terminated (front ++ [tail, []]) ++ [] = terminated texts ++ [] := by
      rw [← same, terminated_append, terminated_cons, terminated_cons, terminated_nil]
      simp only [List.append_assoc, List.append_nil, List.nil_append, List.cons_append]
    have pieces : Unbroken (front ++ [tail, []]) := by
      intro line member
      obtain inside | inside := List.mem_append.mp member
      · exact whole line inside
      · obtain rfl | inside := List.mem_cons.mp inside
        · exact last
        · rw [List.mem_singleton.mp inside]
          exact List.not_mem_nil
    obtain ⟨rfl, _⟩ := terminated_injective pieces unbroken List.not_mem_nil List.not_mem_nil joined
    exact ⟨front ++ [tail], List.append_ne_nil_of_right_ne_nil _ (List.cons_ne_nil _ _),
      (List.append_assoc front [tail] [[]]).symm⟩
  · intro ⟨front, content, same⟩
    obtain ⟨text, ends⟩ := List.getLast?_eq_some_iff.mp (terminated_getLast content)
    have shape : "\n\n".toList = ['\n'] ++ ['\n'] := by decide
    refine ⟨text, ?_⟩
    rw [same, terminated_append, ends, shape]
    exact (List.append_assoc text ['\n'] ['\n']).symm

/-- A carriage return in front of a line end is the last of some line. -/
theorem returned_line {texts : List Text} (unbroken : Unbroken texts) :
    "\r\n".toList <:+: terminated texts ↔ ∃ line ∈ texts, line.getLast? = some '\r' := by
  have shape : "\r\n".toList = ['\r', '\n'] := by decide
  rw [shape]
  constructor
  · intro ⟨before, after, same⟩
    obtain ⟨front, tail, rfl, whole, last⟩ := exists_terminated before
    obtain ⟨rest, end_, rfl, others, none⟩ := exists_terminated after
    have joined : terminated (front ++ (tail ++ ['\r']) :: rest) ++ end_ = terminated texts ++ [] := by
      rw [List.append_nil, ← same, terminated_append, terminated_cons]
      simp only [List.append_assoc, List.cons_append, List.nil_append]
    have pieces : Unbroken (front ++ (tail ++ ['\r']) :: rest) := by
      intro line member
      obtain inside | inside := List.mem_append.mp member
      · exact whole line inside
      · obtain rfl | inside := List.mem_cons.mp inside
        · intro member
          obtain inside | inside := List.mem_append.mp member
          · exact last inside
          · exact absurd (List.mem_singleton.mp inside) (by decide)
        · exact others line inside
    obtain ⟨rfl, _⟩ := terminated_injective pieces unbroken none List.not_mem_nil joined
    exact ⟨tail ++ ['\r'], List.mem_append_right _ List.mem_cons_self, List.getLast?_concat⟩
  · intro ⟨line, member, ends⟩
    obtain ⟨front, rest, rfl⟩ := List.append_of_mem member
    obtain ⟨text, rfl⟩ := List.getLast?_eq_some_iff.mp ends
    refine ⟨terminated front ++ text, terminated rest, ?_⟩
    rw [terminated_append, terminated_cons]
    simp only [List.append_assoc, List.cons_append, List.nil_append]

/-! ### The password line -/

theorem sentinelled_indent {indent : Text} (blank : ∀ char ∈ indent, isWhitespace char = true)
    (rest : Text) : sentinelled (indent ++ ("password".toList ++ rest)) = indent ++ sentinelLine := by
  have apart : 'p' ∉ indent := fun member => absurd (blank 'p' member) (by decide)
  have shape : "password".toList = 'p' :: "assword".toList := by decide
  have found : textBefore? "password".toList (indent ++ ("password".toList ++ rest)) = some indent := by
    rw [shape]
    exact textBefore?_append apart rest
  rw [sentinelled, found]
  rfl

/-- A password line begins with blanks, and these are kept. -/
theorem passwordLine_indent {line : Text} (looks : isPasswordLine line = true) :
    ∃ indent rest, line = indent ++ ("password".toList ++ rest) ∧
      (∀ char ∈ indent, isWhitespace char = true) ∧ sentinelled line = indent ++ sentinelLine := by
  obtain ⟨indent, split, blank⟩ := trimStart_split line
  obtain ⟨blanks, ends, _⟩ := trimEnd_split (trimStart line)
  obtain ⟨more, same⟩ := List.isPrefixOf_iff_prefix.mp (Bool.and_eq_true_iff.mp looks).1
  have whole : line = indent ++ ("password".toList ++ (more ++ blanks)) := by
    rw [trim] at same
    rw [← List.append_assoc "password".toList, same, ← ends]
    exact split
  exact ⟨indent, more ++ blanks, whole, blank, by rw [whole, sentinelled_indent blank]⟩

theorem sentinelLine_plain : '\n' ∉ sentinelLine ∧ '[' ∉ sentinelLine ∧
    sentinelLine.getLast? = some '"' := by
  decide

theorem sentinelled_getLast (line : Text) : (sentinelled line).getLast? = some '"' := by
  rw [sentinelled, List.getLast?_append, sentinelLine_plain.2.2]
  rfl

theorem sentinelled_unbroken {line : Text} (noEnd : '\n' ∉ line) (looks : isPasswordLine line = true) :
    '\n' ∉ sentinelled line := by
  obtain ⟨indent, rest, whole, _, same⟩ := passwordLine_indent looks
  rw [same]
  intro member
  obtain inside | inside := List.mem_append.mp member
  · rw [whole] at noEnd
    exact noEnd (List.mem_append_left _ inside)
  · exact sentinelLine_plain.1 inside

theorem isPasswordLine_nil : isPasswordLine [] = false := by decide

/-- The line that is replaced, among its neighbours. -/
theorem edited_split {texts : List Text} {index : Nat} {line : Text}
    (found : texts[index]? = some line) :
    ∃ front rest, texts = front ++ line :: rest ∧ front.length = index ∧
      edited (some index) texts = front ++ sentinelled line :: rest := by
  obtain ⟨inside, rfl⟩ := List.getElem?_eq_some_iff.mp found
  refine ⟨texts.take index, texts.drop (index + 1), ?_, ?_, ?_⟩
  · rw [← List.drop_eq_getElem_cons inside, List.take_append_drop]
  · rw [List.length_take, Nat.min_eq_left (Nat.le_of_lt inside)]
  · exact List.modify_eq_take_cons_drop inside

theorem isPasswordLine_sentinelled {line : Text} (looks : isPasswordLine line = true) :
    isPasswordLine (sentinelled line) = true := by
  obtain ⟨indent, rest, _, blank, same⟩ := passwordLine_indent looks
  rw [same, isPasswordLine, trim_blanks blank]
  decide

theorem sentinelled_twice {line : Text} (looks : isPasswordLine line = true) :
    sentinelled (sentinelled line) = sentinelled line := by
  obtain ⟨indent, rest, _, blank, same⟩ := passwordLine_indent looks
  have shape : sentinelLine = "password".toList ++ " = \"keyring\"".toList := by decide
  rw [same, shape, sentinelled_indent blank, ← shape]

/-- A password line opens no section. -/
theorem inTargetSection_password {line : Text} (looks : isPasswordLine line = true) (name : Text)
    (inside : Bool) : inTargetSection name inside line = inside := by
  obtain ⟨more, same⟩ := List.isPrefixOf_iff_prefix.mp (Bool.and_eq_true_iff.mp looks).1
  refine if_neg fun opened => ?_
  have shape : "password".toList = 'p' :: "assword".toList := by decide
  rw [← same, shape, List.cons_append, List.head?_cons] at opened
  cases opened

/-- Rewriting chooses the same line again. -/
theorem editedFrom_edited (hasSections : Bool) (name : Text) (inside : Bool) (texts : List Text) :
    editedFrom hasSections name inside
        (edited (editedFrom hasSections name inside texts) texts) =
      editedFrom hasSections name inside texts := by
  induction texts generalizing inside with
  | nil => rfl
  | cons line texts ih =>
      by_cases replace : ((if hasSections then inTargetSection name inside line else true) &&
          isPasswordLine line) = true
      · have looks := (Bool.and_eq_true_iff.mp replace).2
        have again : ((if hasSections then inTargetSection name inside (sentinelled line) else true) &&
            isPasswordLine (sentinelled line)) = true := by
          rw [inTargetSection_password looks] at replace
          rw [looks] at replace
          rwa [inTargetSection_password (isPasswordLine_sentinelled looks),
            isPasswordLine_sentinelled looks]
        rw [editedFrom, if_pos replace, edited, Option.elim_some, List.modify_zero_cons, editedFrom,
          if_pos again]
      · have later := ih (inTargetSection name inside line)
        rw [editedFrom, if_neg replace]
        cases found : editedFrom hasSections name (inTargetSection name inside line) texts with
        | none =>
            rw [Option.map_none, edited, Option.elim_none, editedFrom, if_neg replace, found]
            rfl
        | some index =>
            rw [found] at later
            rw [Option.map_some, edited, Option.elim_some, List.modify_succ_cons, editedFrom,
              if_neg replace]
            exact congrArg (Option.map (· + 1)) later

theorem edited_twice {hasSections : Bool} {name : Text} {inside : Bool} {texts : List Text} :
    edited (editedFrom hasSections name inside texts)
        (edited (editedFrom hasSections name inside texts) texts) =
      edited (editedFrom hasSections name inside texts) texts := by
  cases found : editedFrom hasSections name inside texts with
  | none => rfl
  | some index =>
      obtain ⟨line, there, looks⟩ := editedFrom_some found
      obtain ⟨front, rest, rfl, rfl, same⟩ := edited_split there
      rw [same]
      exact (modify_length front (sentinelled line) rest).trans (by rw [sentinelled_twice looks])

/-- In a file with sections, a header stands above the line that is replaced. -/
theorem editedFrom_section {name : Text} {inside : Bool} {front : List Text} {line : Text}
    {rest : List Text}
    (found : editedFrom true name inside (front ++ line :: rest) = some front.length) :
    inside = true ∨ ∃ above ∈ front, "[connections.".toList <:+: above := by
  induction front generalizing inside with
  | nil =>
      rw [List.nil_append, editedFrom, if_pos (rfl : true = true)] at found
      split at found
      · next replace =>
          obtain ⟨target, looks⟩ := Bool.and_eq_true_iff.mp replace
          rw [inTargetSection_password looks] at target
          exact .inl target
      · obtain ⟨_, _, impossible⟩ := Option.map_eq_some_iff.mp found
        cases impossible
  | cons first front ih =>
      rw [List.cons_append, editedFrom, if_pos (rfl : true = true)] at found
      split at found
      · cases found
      · obtain ⟨index, later, same⟩ := Option.map_eq_some_iff.mp found
        cases same
        obtain opened | ⟨above, member, inside⟩ := ih later
        · rw [inTargetSection] at opened
          split at opened
          · refine .inr ⟨first, List.mem_cons_self, ?_⟩
            have part : trim first <:+: first := by
              obtain ⟨blanks, split, _⟩ := trimStart_split first
              obtain ⟨behind, ends, _⟩ := trimEnd_split (trimStart first)
              exact ⟨blanks, behind, by rw [trim, List.append_assoc, ← ends, ← split]⟩
            refine List.IsInfix.trans ?_ part
            obtain bare | quoted := of_decide_eq_true opened
            · rw [bare, List.append_assoc]
              exact (List.prefix_append ..).isInfix
            · have shape : "[connections.\"".toList = "[connections.".toList ++ ['"'] := by decide
              rw [quoted, shape, List.append_assoc, List.append_assoc]
              exact (List.prefix_append ..).isInfix
          · exact .inl opened
        · exact .inr ⟨above, List.mem_cons_of_mem _ member, inside⟩

/-! ### What is written -/

theorem unbroken_lines {texts : List Text} (unbroken : Unbroken texts) {tail : Text}
    (last : '\n' ∉ tail) : Unbroken (lines (terminated texts ++ tail)) := by
  rw [lines_pieces unbroken last]
  intro line member
  obtain inside | inside := List.mem_append.mp member
  · obtain ⟨whole, among, rfl⟩ := List.mem_map.mp inside
    intro broken
    rw [stripCarriageReturn] at broken
    split at broken
    · exact unbroken whole among (List.dropLast_subset whole broken)
    · exact unbroken whole among broken
  · split at inside
    · cases inside
    · rw [List.mem_singleton.mp inside]
      exact last

theorem unbroken_edited {hasSections : Bool} {name : Text} {inside : Bool} {texts : List Text}
    (unbroken : Unbroken texts) :
    Unbroken (edited (editedFrom hasSections name inside texts) texts) := by
  cases found : editedFrom hasSections name inside texts with
  | none => exact unbroken
  | some index =>
      obtain ⟨line, there, looks⟩ := editedFrom_some found
      obtain ⟨front, rest, rfl, _, same⟩ := edited_split there
      obtain ⟨above, own, below⟩ := List.forall_mem_append.mp unbroken |>.imp_right List.forall_mem_cons.mp
      rw [same]
      exact List.forall_mem_append.mpr ⟨above, List.forall_mem_cons.mpr
        ⟨sentinelled_unbroken own looks, below⟩⟩

theorem edited_length {index : Option Nat} (texts : List Text) :
    (edited index texts).length = texts.length := by
  cases index with
  | none => rfl
  | some index => exact List.length_modify ..

theorem edited_getElem? (index : Option Nat) (texts : List Text) (place : Nat) :
    (edited index texts)[place]? =
      texts[place]?.map fun line => if index = some place then sentinelled line else line := by
  cases index with
  | none => simp [edited]
  | some index =>
      rw [edited, Option.elim_some, List.getElem?_modify]
      by_cases same : index = place
      · simp [same]
      · simp [same]

/-- Rewriting keeps whether there is a blank line at the end. -/
theorem edited_blank_last {hasSections : Bool} {name : Text} {inside : Bool} {texts : List Text} :
    (∃ front, front ≠ [] ∧ edited (editedFrom hasSections name inside texts) texts = front ++ [[]]) ↔
      ∃ front, front ≠ [] ∧ texts = front ++ [[]] := by
  cases found : editedFrom hasSections name inside texts with
  | none => exact Iff.rfl
  | some index =>
      obtain ⟨line, there, looks⟩ := editedFrom_some found
      obtain ⟨front, rest, rfl, rfl, same⟩ := edited_split there
      have filled : sentinelled line ≠ [] := by
        intro empty
        have ends := sentinelled_getLast line
        rw [empty] at ends
        cases ends
      have some : line ≠ [] := by
        intro empty
        rw [empty, isPasswordLine_nil] at looks
        cases looks
      -- neither the line nor the sentinel is empty, so the blank line is behind them
      have behind {first : Text} (content : first ≠ []) {second : Text} :
          (∃ before, before ≠ [] ∧ front ++ first :: rest = before ++ [[]]) →
            ∃ before, before ≠ [] ∧ front ++ second :: rest = before ++ [[]] := by
        intro ⟨before, _, whole⟩
        obtain rfl | ⟨rest, last, rfl⟩ := List.eq_nil_or_concat' rest
        · obtain ⟨_, ends⟩ := List.append_inj' whole rfl
          exact absurd (List.cons.inj ends).1 content
        · rw [← List.cons_append, ← List.append_assoc] at whole
          obtain ⟨_, ends⟩ := List.append_inj' whole rfl
          refine ⟨front ++ second :: rest, List.append_ne_nil_of_right_ne_nil _ (List.cons_ne_nil _ _), ?_⟩
          rw [ends, List.append_assoc, List.cons_append]
      rw [same]
      exact ⟨behind filled, behind some⟩

/-- What the end of the text comes to. -/
theorem finish_cases {content : Text} {written : List Text} (unbroken : Unbroken written) :
    finish content (terminated written) = terminated written ∧
        (content.getLast? = some '\n' → ¬∃ front, front ≠ [] ∧ written = front ++ [[]]) ∨
      ∃ front, front ≠ [] ∧ written = front ++ [[]] ∧
        finish content (terminated written) = terminated front ∧ content.getLast? = some '\n' := by
  rw [finish]
  split
  · next doubled =>
      obtain ⟨ends, blank⟩ := Bool.and_eq_true_iff.mp doubled
      obtain ⟨front, above, rfl⟩ := (blank_last unbroken).mp (List.isSuffixOf_iff_suffix.mp blank)
      refine .inr ⟨front, above, rfl, ?_, of_decide_eq_true ends⟩
      rw [terminated_append, terminated_cons, terminated_nil]
      exact List.dropLast_concat
  · next single =>
      refine .inl ⟨rfl, fun ends blank => single ?_⟩
      rw [Bool.and_eq_true_iff, List.isSuffixOf_iff_suffix]
      exact ⟨decide_eq_true ends, (blank_last unbroken).mpr blank⟩

/-! ### A change of one line -/

theorem ended_terminated {text : Text} (ended : Ended text) :
    ∃ texts, text = terminated texts ∧ Unbroken texts := by
  obtain ⟨texts, tail, rfl, unbroken, last⟩ := exists_terminated text
  have none : tail = [] := by
    obtain empty | ends := ended
    · exact (List.append_eq_nil_iff.mp empty).2
    · refine Decidable.byContradiction fun content => last ?_
      rw [List.getLast?_append_of_ne_nil _ content] at ends
      exact List.mem_of_getLast? ends
  exact ⟨texts, by rw [none, List.append_nil], unbroken⟩

/-- A line and its neighbours, as pieces. -/
theorem terminated_middle {front rest : List Text} (line tail : Text) :
    terminated front ++ line ++ '\n' :: (terminated rest ++ tail) =
      terminated (front ++ line :: rest) ++ tail := by
  rw [terminated_append, terminated_cons]
  simp only [List.append_assoc, List.cons_append, List.nil_append]

theorem unbroken_middle {front rest : List Text} {line : Text} (above : Unbroken front)
    (own : '\n' ∉ line) (below : Unbroken rest) : Unbroken (front ++ line :: rest) :=
  List.forall_mem_append.mpr ⟨above, List.forall_mem_cons.mpr ⟨own, below⟩⟩

theorem getElem?_beside {Item : Type} {front rest : List Item} {first second : Item} {index : Nat}
    (apart : index ≠ front.length) :
    (front ++ first :: rest)[index]? = (front ++ second :: rest)[index]? := by
  obtain before | behind := Nat.lt_or_gt_of_ne apart
  · rw [List.getElem?_append_left before, List.getElem?_append_left before]
  · rw [List.getElem?_append_right (Nat.le_of_lt behind), List.getElem?_append_right (Nat.le_of_lt behind)]
    obtain ⟨more, same⟩ := Nat.exists_eq_add_of_lt behind
    rw [show index - front.length = more + 1 by omega, List.getElem?_cons_succ, List.getElem?_cons_succ]

/-- A text that has only changed in its password line has as many lines as
before, and no other one has lost a carriage return. -/
theorem onlyPasswordLine_pieces {texts final : List Text} {tail name : Text} (left : Unbroken texts)
    (right : Unbroken final) (last : '\n' ∉ tail)
    (only : OnlyPasswordLine (terminated texts ++ tail) name (terminated final)) :
    final.length = texts.length ∧ (tail = [] → ∀ (place : Nat) (line : Text), texts[place]? = some line →
      line.getLast? = some '\r' → ∃ other, final[place]? = some other ∧
        other.getLast? = some '\r' ∧ (editedLine (terminated texts) name = some place ∨ other = line)) := by
  have noTail : terminated final = terminated final ++ [] := (List.append_nil _).symm
  rw [noTail] at only
  obtain same | ⟨before, line, other, after, content, result, ended, own, new, lineEnd, place⟩ := only
  · obtain ⟨rfl, _⟩ := terminated_injective right left List.not_mem_nil last same
    exact ⟨rfl, fun _ place line there returned => ⟨line, there, returned, .inr rfl⟩⟩
  · obtain ⟨front, rfl, above⟩ := ended_terminated ended
    have counted : (lines (terminated front)).length = front.length := by
      have pieces := lines_pieces above List.not_mem_nil
      rw [List.append_nil] at pieces
      rw [pieces]
      simp
    rw [counted] at place
    -- the pieces of both texts, once the line end is one of them
    have pieces {ending rest : Text} (noEnd : '\n' ∉ ending)
        (behind : after = ending ++ '\n' :: rest)
        (returns : line.getLast? = some '\r' → ending ≠ []) :
        final.length = texts.length ∧ (tail = [] → ∀ (place : Nat) (line : Text),
          texts[place]? = some line → line.getLast? = some '\r' → ∃ other,
            final[place]? = some other ∧ other.getLast? = some '\r' ∧
              (editedLine (terminated texts) name = some place ∨ other = line)) := by
      obtain ⟨later, end_, rfl, below, none⟩ := exists_terminated rest
      have wide (text : Text) : terminated front ++ text ++ after =
          terminated (front ++ (text ++ ending) :: later) ++ end_ := by
        rw [← terminated_middle, behind]
        simp only [List.append_assoc]
      have whole {text : Text} (plain : '\n' ∉ text) : '\n' ∉ text ++ ending := by
        intro member
        obtain inside | inside := List.mem_append.mp member
        · exact plain inside
        · exact noEnd inside
      rw [wide] at content result
      obtain ⟨rfl, rfl⟩ := terminated_injective left (unbroken_middle above (whole own) below) last none
        content
      obtain ⟨rfl, _⟩ := terminated_injective right (unbroken_middle above (whole new) below)
        List.not_mem_nil none result
      refine ⟨by simp only [List.length_append, List.length_cons], fun empty index text there returned => ?_⟩
      rw [empty, List.append_nil] at place
      by_cases here : index = front.length
      · subst here
        rw [List.getElem?_append_right (Nat.le_refl _), Nat.sub_self] at there
        cases there
        have ends : ending ≠ [] := by
          intro empty
          rw [empty, List.append_nil] at returned
          exact returns returned empty
        refine ⟨other ++ ending, ?_, ?_, .inl place⟩
        · rw [List.getElem?_append_right (Nat.le_refl _), Nat.sub_self]
          rfl
        · rw [List.getLast?_append_of_ne_nil _ ends] at returned ⊢
          exact returned
      · refine ⟨text, ?_, returned, .inr rfl⟩
        rw [← there]
        exact getElem?_beside here
    cases lineEnd with
    | none =>
        rw [List.append_nil] at content
        rw [List.append_nil (terminated front ++ other)] at result
        obtain ⟨rfl, _⟩ := terminated_injective left above last own content
        obtain ⟨rfl, _⟩ := terminated_injective right above List.not_mem_nil new result
        exact ⟨rfl, fun _ place line there returned => ⟨line, there, returned, .inr rfl⟩⟩
    | newline returned => exact pieces List.not_mem_nil rfl fun same => absurd same returned
    | carriageReturn => exact @pieces ['\r'] _ (by decide) rfl fun _ => List.cons_ne_nil _ _

/-! ### Files that are not tidy -/

theorem strip_shorter {line : Text} (returned : line.getLast? = some '\r') :
    stripCarriageReturn line ≠ line := by
  obtain ⟨text, rfl⟩ := List.getLast?_eq_some_iff.mp returned
  rw [strip_returned]
  intro same
  have lengths := congrArg List.length same
  rw [List.length_append, List.length_singleton] at lengths
  omega

theorem tidy_of_onlyPasswordLine {content name : Text}
    (only : OnlyPasswordLine content name (rewritePasswordToSentinelContent content name)) :
    Tidy content := by
  obtain ⟨texts, tail, rfl, unbroken, last⟩ := exists_terminated content
  have written := unbroken_lines unbroken last
  have counted := congrArg List.length (lines_pieces unbroken last)
  rw [List.length_append, List.length_map] at counted
  rw [rewrite_eq, editedLine] at only
  have kept : Unbroken (edited (editedFrom (contains "[connections.".toList (terminated texts ++ tail))
      name false (lines (terminated texts ++ tail))) (lines (terminated texts ++ tail))) :=
    unbroken_edited written
  obtain ⟨same, single⟩ | ⟨front, _, blank, popped, ends⟩ :=
    @finish_cases (terminated texts ++ tail) _ kept
  · rw [same] at only
    obtain ⟨sizes, places⟩ := onlyPasswordLine_pieces unbroken kept last only
    rw [edited_length, counted] at sizes
    have none : tail = [] := by
      refine Decidable.byContradiction fun content => ?_
      rw [if_neg (by rwa [List.isEmpty_iff]), List.length_singleton] at sizes
      omega
    rw [none, List.append_nil] at single places ⊢
    by_cases empty : texts = []
    · exact .inl (by rw [empty, terminated_nil])
    · have ends := terminated_getLast empty
      have strips : lines (terminated texts) = texts.map stripCarriageReturn := by
        have pieces := lines_pieces unbroken List.not_mem_nil
        rwa [List.append_nil, List.isEmpty_nil, if_pos rfl, List.append_nil] at pieces
      refine .inr ⟨ends, fun returned => ?_, fun blank => single ends ?_⟩
      · obtain ⟨line, member, returned⟩ := (returned_line unbroken).mp returned
        obtain ⟨place, there⟩ := List.getElem?_of_mem member
        obtain ⟨other, found, back, reason⟩ := places rfl place line there returned
        rw [edited_getElem?, strips, List.getElem?_map, there, Option.map_some, Option.map_some] at found
        rw [editedLine, strips] at reason
        split at found
        · rw [← Option.some.inj found, sentinelled_getLast] at back
          exact absurd back (by decide)
        · next elsewhere =>
            obtain here | same := reason
            · exact elsewhere here
            · exact strip_shorter returned ((Option.some.inj found).trans same)
      · rw [edited_blank_last, strips]
        obtain ⟨front, content, rfl⟩ := (blank_last unbroken).mp blank
        exact ⟨front.map stripCarriageReturn, by rwa [ne_eq, List.map_eq_nil_iff],
          by rw [List.map_append]; rfl⟩
  · rw [popped] at only
    have fewer := congrArg List.length blank
    rw [edited_length, counted, List.length_append, List.length_singleton] at fewer
    have rest : Unbroken front := fun line member =>
      kept line (blank ▸ List.mem_append_left _ member)
    obtain ⟨sizes, _⟩ := onlyPasswordLine_pieces unbroken rest last only
    have none : tail = [] := by
      refine Decidable.byContradiction fun content => last ?_
      rw [List.getLast?_append_of_ne_nil _ content] at ends
      exact List.mem_of_getLast? ends
    rw [none] at fewer
    simp only [List.isEmpty_nil, if_true, List.length_nil] at fewer
    omega

/-! ### Tidy files -/

/-- What stands in the text stands in one of its lines. -/
theorem infix_terminated {pattern : Text} (noEnd : '\n' ∉ pattern) {texts : List Text}
    (inside : pattern <:+: terminated texts) : pattern = [] ∨ ∃ line ∈ texts, pattern <:+: line := by
  induction texts with
  | nil => exact .inl (List.infix_nil.mp inside)
  | cons line texts ih =>
      obtain ⟨before, after, same⟩ := inside
      rw [terminated_cons, List.append_assoc line, List.singleton_append] at same
      obtain ⟨more, own, _⟩ | ⟨more, own, behind⟩ := List.append_eq_append_iff.mp same
      · exact .inr ⟨line, List.mem_cons_self, before, more, own.symm⟩
      · cases more with
        | nil =>
            rw [List.append_nil] at own
            exact .inr ⟨line, List.mem_cons_self, before, [], by rw [List.append_nil, own]⟩
        | cons char more =>
            obtain ⟨rfl, rest⟩ := List.cons.inj behind
            obtain ⟨part, left, right⟩ | ⟨part, left, right⟩ := List.append_eq_append_iff.mp own
            · rw [right] at noEnd
              exact absurd (List.mem_append_right part List.mem_cons_self) noEnd
            · cases part with
              | nil =>
                  rw [List.nil_append] at right
                  rw [← right] at noEnd
                  exact absurd List.mem_cons_self noEnd
              | cons char part =>
                  obtain ⟨_, tail⟩ := List.cons.inj right
                  obtain none | ⟨other, member, found⟩ := ih ⟨part, after, by rw [rest, tail]; rfl⟩
                  · exact .inl none
                  · exact .inr ⟨other, List.mem_cons_of_mem line member, found⟩

theorem infix_of_line {pattern line : Text} {texts : List Text} (member : line ∈ texts)
    (inside : pattern <:+: line) : pattern <:+: terminated texts := by
  obtain ⟨front, rest, rfl⟩ := List.append_of_mem member
  refine inside.trans ⟨terminated front, '\n' :: terminated rest, ?_⟩
  rw [terminated_append, terminated_cons]
  simp only [List.append_assoc, List.cons_append, List.nil_append]

/-- The sentinel neither makes a section nor takes one away. -/
theorem contains_edited {texts : List Text} {name : Text} :
    contains "[connections.".toList (terminated
        (edited (editedFrom (contains "[connections.".toList (terminated texts)) name false texts)
          texts)) = contains "[connections.".toList (terminated texts) := by
  have noEnd : '\n' ∉ "[connections.".toList := by decide
  have bracket : '[' ∈ "[connections.".toList := by decide
  have content : "[connections.".toList ≠ [] := by decide
  cases found : editedFrom (contains "[connections.".toList (terminated texts)) name false texts with
  | none => rfl
  | some index =>
      obtain ⟨line, there, looks⟩ := editedFrom_some found
      obtain ⟨front, rest, rfl, rfl, same⟩ := edited_split there
      rw [same]
      cases sections : contains "[connections.".toList (terminated (front ++ line :: rest)) with
      | true =>
          rw [sections] at found
          obtain impossible | ⟨above, member, inside⟩ := editedFrom_section found
          · cases impossible
          · exact contains_iff.mpr (infix_of_line (List.mem_append_left _ member) inside)
      | false =>
          rw [Bool.eq_false_iff, ne_eq, contains_iff] at sections ⊢
          intro inside
          obtain none | ⟨other, member, inside⟩ := infix_terminated noEnd inside
          · exact content none
          · obtain above | below := List.mem_append.mp member
            · exact sections (infix_of_line (List.mem_append_left _ above) inside)
            · obtain rfl | below := List.mem_cons.mp below
              · obtain ⟨indent, rest, _, blank, written⟩ := passwordLine_indent looks
                have among := inside.subset bracket
                rw [written] at among
                obtain inIndent | inSentinel := List.mem_append.mp among
                · exact absurd (blank '[' inIndent) (by decide)
                · exact sentinelLine_plain.2.1 inSentinel
              · exact sections (infix_of_line (List.mem_append_right _ (List.mem_cons_of_mem _ below)) inside)

/-- Lines of a text without carriage returns at their ends. -/
structure Plain (texts : List Text) : Prop where
  unbroken : Unbroken texts
  unreturned : ∀ line ∈ texts, line.getLast? ≠ some '\r'
  filled : ¬∃ front, front ≠ [] ∧ texts = front ++ [[]]

theorem Plain.lines_terminated {texts : List Text} (plain : Plain texts) :
    lines (terminated texts) = texts := by
  have pieces := lines_pieces plain.unbroken List.not_mem_nil
  rw [List.append_nil, List.isEmpty_nil, if_pos rfl, List.append_nil] at pieces
  rw [pieces]
  exact (List.map_congr_left fun line member => if_neg (plain.unreturned line member)).trans
    (List.map_id' _)

theorem Plain.edited {hasSections : Bool} {name : Text} {inside : Bool} {texts : List Text}
    (plain : Plain texts) : Plain (edited (editedFrom hasSections name inside texts) texts) where
  unbroken := unbroken_edited plain.unbroken
  unreturned line member := by
    obtain ⟨place, there⟩ := List.getElem?_of_mem member
    rw [edited_getElem?] at there
    obtain ⟨own, found, rfl⟩ := Option.map_eq_some_iff.mp there
    split
    · rw [sentinelled_getLast]
      decide
    · exact plain.unreturned own (List.mem_of_getElem? found)
  filled blank := plain.filled (edited_blank_last.mp blank)

theorem Plain.rewrite {texts : List Text} (plain : Plain texts) (name : Text) :
    rewritePasswordToSentinelContent (terminated texts) name =
      terminated (Gaussdb.edited (editedFrom (contains "[connections.".toList (terminated texts)) name
        false texts) texts) := by
  rw [rewrite_eq, editedLine, plain.lines_terminated]
  have kept := @Plain.edited (contains "[connections.".toList (terminated texts)) name false _ plain
  obtain ⟨same, _⟩ | ⟨front, above, blank, _⟩ := @finish_cases (terminated texts) _ kept.unbroken
  · exact same
  · exact absurd ⟨front, above, blank⟩ kept.filled

theorem Plain.changesOneLine {texts : List Text} (plain : Plain texts) (name : Text) :
    ChangesOneLine (terminated texts) name := by
  refine ⟨?_, ?_⟩
  · rw [plain.rewrite]
    cases found : editedFrom (contains "[connections.".toList (terminated texts)) name false texts with
    | none => exact .inl rfl
    | some index =>
        obtain ⟨line, there, looks⟩ := editedFrom_some found
        obtain ⟨front, rest, rfl, rfl, same⟩ := edited_split there
        obtain ⟨above, own, below⟩ :=
          List.forall_mem_append.mp plain.unbroken |>.imp_right List.forall_mem_cons.mp
        have member : line ∈ front ++ line :: rest := List.mem_append_right _ List.mem_cons_self
        have whole (text : Text) : terminated (front ++ text :: rest) =
            terminated front ++ text ++ '\n' :: terminated rest := by
          rw [terminated_append, terminated_cons]
          simp only [List.append_assoc, List.cons_append, List.nil_append]
        have ended : Ended (terminated front) := by
          by_cases empty : front = []
          · exact .inl (by rw [empty, terminated_nil])
          · exact .inr (terminated_getLast empty)
        have counted : (lines (terminated front)).length = front.length := by
          have pieces := lines_pieces above List.not_mem_nil
          rw [List.append_nil] at pieces
          rw [pieces]
          simp
        refine .inr ⟨terminated front, line, sentinelled line, '\n' :: terminated rest, whole line, ?_,
          ended, own, sentinelled_unbroken own looks, .newline (plain.unreturned line member), ?_⟩
        · rw [same, whole]
        · rw [editedLine, plain.lines_terminated, found, counted]
  · rw [plain.rewrite, plain.edited.rewrite, contains_edited, editedFrom_edited, edited_twice]

theorem plain_of_tidy {content : Text} (tidy : Tidy content) :
    ∃ texts, content = terminated texts ∧ Plain texts := by
  obtain rfl | ⟨ends, unreturned, filled⟩ := tidy
  · refine ⟨[], rfl, fun _ member => absurd member List.not_mem_nil,
      fun _ member => absurd member List.not_mem_nil, fun ⟨front, _, same⟩ => ?_⟩
    exact absurd same.symm (List.append_ne_nil_of_right_ne_nil _ (List.cons_ne_nil _ _))
  · obtain ⟨texts, rfl, unbroken⟩ := ended_terminated (.inr ends)
    refine ⟨texts, rfl, unbroken, fun line member returned => ?_, fun blank => ?_⟩
    · exact unreturned ((returned_line unbroken).mpr ⟨line, member, returned⟩)
    · exact filled ((blank_last unbroken).mpr blank)

/-- Only the password line changes, and rewriting twice is rewriting once, exactly
in the files of complete lines that have no carriage returns at their ends and no
blank line at the end of the file. -/
theorem changesOneLine_iff (content name : Text) : ChangesOneLine content name ↔ Tidy content := by
  constructor
  · exact fun changes => tidy_of_onlyPasswordLine changes.1
  · intro tidy
    obtain ⟨texts, rfl, plain⟩ := plain_of_tidy tidy
    exact plain.changesOneLine name

/-- A file with carriage returns loses all of them. -/
theorem not_changesOneLine : ¬∀ content name, ChangesOneLine content name := by
  intro claimed
  have tidy := tidy_of_onlyPasswordLine (claimed "host = \"db\"\r\npassword = \"x\"\r\n".toList []).1
  exact absurd tidy (by decide +kernel)

end OpenGauss.Gaussdb
