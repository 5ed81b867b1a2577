import OpenGauss.Mcp.InteractiveIncremental
import OpenGauss.Mcp.Repl

/-! The interactive mode runs a script: however its lines arrive, the statements are those
that the text between two commands is cut into as a whole. -/

set_option autoImplicit false

namespace OpenGauss.Mcp.Repl

open Driver Lib.Text Gaussdb SqlTokenizer Cli

/-! ### Blanks -/

theorem trimEnd_cons {c : Char} (visible : isWhitespace c = false) (text : Text) :
    trimEnd (c :: text) = c :: trimEnd text := by
  have kept : [c].dropWhile isWhitespace = [c] :=
    List.dropWhile_cons_of_neg (Bool.eq_false_iff.mp visible)
  rw [trimEnd, List.reverse_cons, List.dropWhile_append, kept, trimEnd]
  cases blank : text.reverse.dropWhile isWhitespace with
  | nil => rfl
  | cons last front => simp

theorem trimEnd_nil_iff {text : Text} :
    trimEnd text = [] ↔ ∀ char ∈ text, isWhitespace char = true := by
  simp [trimEnd]

/-- A text is blank, or it begins with a character that is not. -/
theorem trimStart_cases (text : Text) :
    trimStart text = [] ∨ ∃ c rest, trimStart text = c :: rest ∧ isWhitespace c = false := by
  cases started : trimStart text with
  | nil => exact .inl rfl
  | cons c rest =>
      have visible := List.head?_dropWhile_not isWhitespace text
      rw [trimStart] at started
      rw [started] at visible
      exact .inr ⟨c, rest, rfl, visible⟩

theorem trimStart_append {text : Text} {c : Char} {rest : Text} (started : trimStart text = c :: rest)
    (visible : isWhitespace c = false) (behind : Text) :
    trimStart (text ++ behind) = c :: (rest ++ behind) := by
  obtain ⟨blanks, whole, blank⟩ := trimStart_split text
  rw [whole, started, List.append_assoc, trimStart_blanks blank]
  exact List.dropWhile_cons_of_neg (Bool.eq_false_iff.mp visible)

theorem trim_trimStart_nil_iff (text : Text) : trim (trimStart text) = [] ↔ trimStart text = [] := by
  obtain none | ⟨c, rest, started, visible⟩ := trimStart_cases text
  · rw [none]
    exact iff_of_true rfl rfl
  · have again : trimStart (c :: rest) = c :: rest :=
      List.dropWhile_cons_of_neg (Bool.eq_false_iff.mp visible)
    simp [started, trim, again, trimEnd_cons visible]

/-- An input that is SQL: the loop neither skips it nor takes it for a command. -/
def Plain (input : Text) : Prop := trim input ≠ [] ∧ isCommand (trim input) = false

/-- The beginning of an input tells what it is. -/
theorem Plain.append {input : Text} (plain : Plain input) (behind : Text) :
    Plain (input ++ behind) := by
  obtain ⟨some, sql⟩ := plain
  obtain none | ⟨c, rest, started, visible⟩ := trimStart_cases input
  · exact absurd (by rw [trim, none]; rfl) some
  · have before : trim input = c :: trimEnd rest := by rw [trim, started, trimEnd_cons visible]
    have after : trim (input ++ behind) = c :: trimEnd (rest ++ behind) := by
      rw [trim, trimStart_append started visible, trimEnd_cons visible]
    refine ⟨by simp [after], ?_⟩
    rw [before, isCommand, Bool.or_eq_false_iff] at sql
    obtain ⟨noDot, noMark⟩ := sql
    rw [after, isCommand, Bool.or_eq_false_iff]
    refine ⟨noDot, beq_eq_false_iff_ne.mpr fun mark => ?_⟩
    obtain ⟨rfl, ended⟩ := List.cons.inj mark
    have blank := trimEnd_nil_iff.mp ended
    have empty : trimEnd rest = [] :=
      trimEnd_nil_iff.mpr fun char member => blank char (List.mem_append_left _ member)
    exact absurd (by rw [empty]) (beq_eq_false_iff_ne.mp noMark)

theorem isComplete_plain {input : Text} (plain : Plain input) :
    isComplete input = true ↔ (splitStatements input).remainder = [] := by
  obtain ⟨some, sql⟩ := plain
  have rest : trim (splitStatements input).remainder = [] ↔
      (splitStatements input).remainder = [] := trim_trimStart_nil_iff _
  simpa [isComplete, some, sql, List.isEmpty_iff] using rest

/-! ### Lines -/

theorem joined_append {first second : List Text} (some : first ≠ []) (more : second ≠ []) :
    joined (first ++ second) = joined first ++ '\n' :: joined second := by
  induction first with
  | nil => exact absurd rfl some
  | cons line lines ih =>
      cases lines with
      | nil =>
          obtain ⟨other, others, rfl⟩ := List.exists_cons_of_ne_nil more
          rfl
      | cons next lines =>
          have behind := ih (List.cons_ne_nil _ _)
          simp only [List.cons_append] at behind
          simp [joined, behind]

theorem splitStatements_trimStart (text : Text) :
    splitStatements text = splitStatements (trimStart text) := by
  have same := finish_trimStart [] text []
  rw [List.append_nil, List.append_nil] at same
  exact same

/-- Behind lines in which every statement has its end, lines say what they say alone. -/
theorem splitStatements_joined {done tail : List Text} (settled : Settled done) (some : tail ≠ []) :
    splitStatements (joined (done ++ tail)) =
      { complete := (splitStatements (joined done)).complete ++
          (splitStatements (joined tail)).complete
        remainder := (splitStatements (joined tail)).remainder } := by
  by_cases empty : done = []
  · subst empty
    rfl
  · have newline : splitStatements ('\n' :: joined tail) = splitStatements (joined tail) := by
      rw [splitStatements_trimStart, splitStatements_trimStart (joined tail)]
      rfl
    rw [joined_append empty some, splitStatements_append, settled, List.nil_append, newline]

theorem settledPart_snoc (lines : List Text) (line : Text) :
    settledPart (lines ++ [line]) =
      if Settled (lines ++ [line]) then lines ++ [line] else settledPart lines := by
  rw [settledPart, List.inits_append, List.filter_append]
  by_cases settled : Settled (lines ++ [line])
  · simp [settled]
  · simp [settled, settledPart]

/-- What the loop has run of a block, and what it still waits for the end of. -/
structure Reads (done tail : List Text) (pending : Option Text) : Prop where
  settled : Settled done
  part : settledPart (done ++ tail) = done
  waits : tail = [] ∧ pending = none ∨
    tail ≠ [] ∧ pending = some (joined tail) ∧ Plain (joined tail) ∧ ¬Settled tail

theorem reads_start : Reads [] [] none := ⟨rfl, rfl, .inl ⟨rfl, rfl⟩⟩

/-- The lines have come to an end of all their statements. -/
theorem Reads.settle {done tail : List Text} {pending : Option Text} (reads : Reads done tail pending)
    {line : Text} (settled : Settled (tail ++ [line])) : Reads (done ++ (tail ++ [line])) [] none := by
  have whole : Settled (done ++ (tail ++ [line])) := by
    rw [Settled, splitStatements_joined reads.settled (by simp)]
    exact settled
  refine ⟨whole, ?_, .inl ⟨rfl, rfl⟩⟩
  rw [List.append_nil, ← List.append_assoc, settledPart_snoc, if_pos (by rwa [List.append_assoc])]

theorem Reads.wait {done tail : List Text} {pending : Option Text} (reads : Reads done tail pending)
    {line : Text} (plain : Plain (joined (tail ++ [line]))) (open_ : ¬Settled (tail ++ [line])) :
    Reads done (tail ++ [line]) (some (joined (tail ++ [line]))) := by
  have whole : ¬Settled (done ++ tail ++ [line]) := by
    rw [List.append_assoc, Settled, splitStatements_joined reads.settled (by simp)]
    exact open_
  refine ⟨reads.settled, ?_, .inr ⟨by simp, rfl, plain, open_⟩⟩
  rw [← List.append_assoc, settledPart_snoc, if_neg whole, reads.part]

theorem Reads.typed {done tail : List Text} {pending : Option Text} (reads : Reads done tail pending)
    (line : Text) : typed pending line = joined (tail ++ [line]) := by
  obtain ⟨rfl, rfl⟩ | ⟨some, rfl, -, -⟩ := reads.waits
  · rfl
  · rw [Repl.typed, joined_append some (List.cons_ne_nil _ _)]
    rfl

theorem splitStatements_blank {line : Text} (blank : trim line = []) :
    splitStatements line = ⟨[], []⟩ := by
  obtain none | ⟨c, rest, started, visible⟩ := trimStart_cases line
  · rw [splitStatements_trimStart, none]
    rfl
  · rw [trim, started, trimEnd_cons visible] at blank
    cases blank

/-- A line is a command, or blank, or it belongs to SQL. -/
theorem Reads.line_cases {done tail : List Text} {pending : Option Text}
    (reads : Reads done tail pending) (line : Text) :
    (tail = [] ∧ pending = none ∧ isCommand (trim line) = true) ∨
      (tail = [] ∧ pending = none ∧ trim line = []) ∨
        Plain (joined (tail ++ [line])) ∧
          (Settled (done ++ tail) → isCommand (trim line) = false) := by
  obtain ⟨rfl, rfl⟩ | ⟨some, -, plain, unsettled⟩ := reads.waits
  · cases command : isCommand (trim line) with
    | true => exact .inl ⟨rfl, rfl, rfl⟩
    | false =>
        by_cases blank : trim line = []
        · exact .inr (.inl ⟨rfl, rfl, blank⟩)
        · exact .inr (.inr ⟨⟨blank, command⟩, fun _ => rfl⟩)
  · refine .inr (.inr ⟨?_, fun settled => absurd ?_ unsettled⟩)
    · rw [joined_append some (List.cons_ne_nil _ _)]
      exact plain.append _
    · rw [Settled, splitStatements_joined reads.settled some] at settled
      exact settled

/-! ### The loop -/

section

variable {World Client Result Failure : Type} {outside : Outside World Client Result Failure}
  {format : OutputFormat}

theorem perform_statements (stmts : List Text) (items : List Item)
    (state : State World Client Result) :
    perform outside format (stmts.map .statement ++ items) state =
      perform outside format items (stmts.foldl (executeStatement outside format) state) := by
  induction stmts generalizing state with
  | nil => rfl
  | cons stmt stmts ih => exact ih _

theorem handleInput_plain {input : Text} (plain : Plain input) (state : State World Client Result) :
    handleInput outside format state input =
      (false, (splitStatements input).complete.foldl (executeStatement outside format) state) := by
  obtain ⟨some, sql⟩ := plain
  simp [handleInput, some, sql]

theorem handleInput_command {input : Text} (command : isCommand (trim input) = true)
    (state : State World Client Result) :
    handleInput outside format state input = handleCommand outside format state input := by
  have some : trim input ≠ [] := by
    intro empty
    rw [empty] at command
    cases command
  simp [handleInput, some, command]

/-- The statements of a block, once they have been run. -/
def ranBlock (outside : Outside World Client Result Failure) (format : OutputFormat)
    (done : List Text) (state : State World Client Result) : State World Client Result :=
  (splitStatements (joined done)).complete.foldl (executeStatement outside format) state

theorem perform_block {done tail : List Text} {pending : Option Text}
    (reads : Reads done tail pending) (items : List Item) (state : State World Client Result) :
    perform outside format (statementsOf (done ++ tail) ++ items) state =
      perform outside format items (ranBlock outside format done state) := by
  rw [statementsOf, reads.part]
  exact perform_statements _ items state

theorem ranBlock_append {done tail : List Text} (settled : Settled done) (some : tail ≠ [])
    (state : State World Client Result) :
    ranBlock outside format (done ++ tail) state =
      (splitStatements (joined tail)).complete.foldl (executeStatement outside format)
        (ranBlock outside format done state) := by
  rw [ranBlock, splitStatements_joined settled some, List.foldl_append]
  rfl

theorem ranBlock_ended {done tail : List Text} {pending : Option Text}
    (reads : Reads done tail pending) (state : State World Client Result) :
    ranBlock outside format done state =
      perform outside format (statementsOf (done ++ tail)) state := by
  rw [← List.append_nil (statementsOf _), perform_block reads]
  rfl

/-- The loop has run a part of a block, and goes on. -/
theorem runInteractive_reads {done tail : List Text} {pending : Option Text}
    (reads : Reads done tail pending) (keys : List Key) (state : State World Client Result) :
    runInteractive outside format pending keys (ranBlock outside format done state) =
      perform outside format (script (done ++ tail) keys) state := by
  induction keys generalizing done tail pending state with
  | nil => exact ranBlock_ended reads state
  | cons key keys ih =>
      cases key with
      | eof => exact ranBlock_ended reads state
      | failed message => exact ranBlock_ended reads state
      | interrupted =>
          rw [script, perform_block reads]
          exact ih reads_start _
      | line line =>
          obtain ⟨rfl, rfl, command⟩ | ⟨rfl, rfl, blank⟩ | ⟨plain, sql⟩ := reads.line_cases line
          · have settled : Settled (done ++ []) := by simpa using reads.settled
            have complete : isComplete line = true := by simp [isComplete, command]
            rw [script, if_pos ⟨settled, command⟩, perform_block reads, runInteractive]
            simp only [Repl.typed, complete, if_true, handleInput_command command, perform]
            split
            · rfl
            · next after _ => exact ih reads_start after
          · have nothing := splitStatements_blank blank
            have next : Reads (done ++ [line]) [] none := reads.settle (by
              rw [Settled]
              exact congrArg SplitResult.remainder nothing)
            have same : ranBlock outside format (done ++ [line]) state =
                ranBlock outside format done state := by
              rw [ranBlock_append reads.settled (List.cons_ne_nil _ _)]
              simp [joined, nothing]
            have more := ih next state
            simpa [runInteractive, Repl.typed, isComplete, handleInput, blank, script, same,
              isCommand] using more
          · have onward : script (done ++ tail) (.line line :: keys) =
                script (done ++ (tail ++ [line])) keys := by
              rw [script, if_neg, List.append_assoc]
              rintro ⟨settled, command⟩
              rw [sql settled] at command
              cases command
            rw [onward, runInteractive, reads.typed]
            by_cases settled : Settled (tail ++ [line])
            · simp only [(isComplete_plain plain).mpr settled, if_true, handleInput_plain plain]
              rw [← ranBlock_append reads.settled (by simp)]
              have more := ih (reads.settle settled) state
              rwa [List.append_nil] at more
            · have waits : ¬isComplete (joined (tail ++ [line])) = true := fun complete =>
                settled ((isComplete_plain plain).mp complete)
              simp only [waits]
              exact ih (reads.wait plain settled) state

/-- The interactive mode runs a script: at the prompt, or from a file with the lines of it,
it performs the commands of the script and, between them, the statements that the text as a
whole is cut into, in their order. What has no end when the input does is not run. -/
theorem runInteractive_script (keys : List Key) (start : State World Client Result) :
    runInteractive outside format none keys start =
      perform outside format (script [] keys) start :=
  runInteractive_reads reads_start keys start

end

theorem script_block {block lines : List Text} (sql : ∀ line ∈ lines, isCommand (trim line) = false) :
    script block (lines.map .line) = statementsOf (block ++ lines) := by
  induction lines generalizing block with
  | nil =>
      rw [List.append_nil]
      rfl
  | cons line lines ih =>
      obtain ⟨first, others⟩ := List.forall_mem_cons.mp sql
      rw [List.map_cons, script, if_neg (by simp [first]), ih others, List.append_assoc]
      rfl

/-- A script without commands says the statements of its text. -/
theorem script_lines {lines : List Text} (sql : ∀ line ∈ lines, isCommand (trim line) = false)
    (settled : Settled lines) :
    script [] (lines.map .line) = (splitStatements (joined lines)).complete.map .statement := by
  have whole : settledPart lines = lines := by
    obtain rfl | ⟨front, line, rfl⟩ := lines.eq_nil_or_concat
    · rfl
    · rw [List.concat_eq_append] at settled ⊢
      rw [settledPart_snoc, if_pos settled]
  rw [script_block sql, List.nil_append, statementsOf, whole]

/-- A dot inside a string is no command. -/
example :
    script [] [.line "SELECT 1; SELECT '".toList, .line ".exit';".toList, .line ".exit".toList] =
      [.statement "SELECT 1".toList, .statement "SELECT '\n.exit'".toList,
        .command ".exit".toList] := by
  decide +kernel

end OpenGauss.Mcp.Repl
