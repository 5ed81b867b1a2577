import OpenGauss.Mcp.CliComments
import OpenGauss.Mcp.Interactive

/-! The comments that `split_statements` sees, and whether
`strip_leading_comments` leaves what stands behind them. -/

set_option autoImplicit false

namespace OpenGauss.Mcp.SqlTokenizer

open Driver Lib Lib.SqlComments

/-- The first turn at the text enters a comment. -/
def opensComment : Text → Bool
  | [] => false
  | c :: rest =>
      match (turn {} c rest).1.mode with
      | .lineComment | .blockComment _ => true
      | _ => false

/-- The text at which the loop is outside of quotes and comments again. -/
def untilTop (fuel : Nat) (state : State) (text : Text) : Option Text :=
  if state.mode = .top then some text
  else
    match fuel, text with
    | fuel + 1, c :: rest => untilTop fuel (turn state c rest).1 (turn state c rest).2
    | _, _ => none

/-- The text at which the loop has left the comment that it enters first. -/
def closedComment : Text → Option Text
  | [] => none
  | c :: rest => untilTop rest.length (turn {} c rest).1 (turn {} c rest).2

/-! ### The comments as texts -/

theorem untilTop_top {state : State} (top : state.mode = .top) (fuel : Nat) (text : Text) :
    untilTop fuel state text = some text := by
  unfold untilTop
  exact if_pos top

theorem untilTop_nil {state : State} (inside : state.mode ≠ .top) (fuel : Nat) :
    untilTop fuel state [] = none := by
  unfold untilTop
  rw [if_neg inside]
  cases fuel <;> rfl

theorem untilTop_cons {state : State} (inside : state.mode ≠ .top) (fuel : Nat) (c : Char)
    (rest : Text) :
    untilTop (fuel + 1) state (c :: rest) =
      untilTop fuel (turn state c rest).1 (turn state c rest).2 := by
  rw [untilTop, if_neg inside]

theorem untilTop_line {fuel : Nat} {text : Text} (enough : text.length ≤ fuel) {state : State}
    (line : state.mode = .lineComment) : untilTop fuel state text = behindLine text := by
  have inside : state.mode ≠ .top := by
    rw [line]
    exact Mode.noConfusion
  induction text generalizing fuel state with
  | nil => exact untilTop_nil inside fuel
  | cons c rest ih =>
      cases fuel with
      | zero => exact absurd enough (Nat.not_succ_le_zero _)
      | succ fuel =>
          have shorter := Nat.le_of_succ_le_succ enough
          rw [untilTop_cons inside, turn, line, behindLine]
          by_cases newline : c = '\n'
          · rw [if_pos newline, if_pos newline]
            exact untilTop_top rfl fuel rest
          · rw [if_neg newline, if_neg newline]
            exact ih shorter rfl Mode.noConfusion

theorem blockDepth_lt {depth : Nat} (below : depth < 2 ^ 32) :
    blockDepth depth = if depth = 0 then .top else .blockComment depth := by
  rw [blockDepth, Nat.mod_eq_of_lt below]

section Block

variable {depth : Nat} {state : State} {c : Char} {rest : Text}

theorem turn_opens (block : state.mode = .blockComment depth) (later : Text) :
    turn state '/' ('*' :: later) =
      ((state.push ['/', '*']).enter (blockDepth (depth + 1)), later) := by
  rw [turn, block]
  rfl

theorem turn_closes (block : state.mode = .blockComment depth) (later : Text) :
    turn state '*' ('/' :: later) =
      ((state.push ['*', '/']).enter (blockDepth (depth - 1)), later) := by
  rw [turn, block]
  rfl

theorem turn_passes (block : state.mode = .blockComment depth)
    (noOpen : ¬(c = '/' ∧ rest.head? = some '*')) (noClose : ¬(c = '*' ∧ rest.head? = some '/')) :
    turn state c rest = (state.push [c], rest) := by
  rw [turn, block]
  dsimp only
  rw [if_neg noOpen, if_neg noClose]

end Block

theorem untilTop_block {fuel depth : Nat} {text : Text} (enough : text.length ≤ fuel)
    (below : depth < 2 ^ 32) {state : State} (block : state.mode = blockDepth depth) :
    untilTop fuel state text = behindBlock (· % 2 ^ 32) depth text := by
  have inside {depth : Nat} {state : State} (block : state.mode = .blockComment depth) :
      state.mode ≠ .top := by
    rw [block]
    exact Mode.noConfusion
  have deep {depth : Nat} (below : depth + 1 < 2 ^ 32) :
      blockDepth (depth + 1) = .blockComment (depth + 1) := by
    rw [blockDepth_lt below, if_neg (Nat.succ_ne_zero depth)]
  induction depth, text using behindBlock.induct (· % 2 ^ 32) generalizing fuel state with
  | case1 text => rw [behindBlock, untilTop_top block]
  | case2 depth =>
      rw [deep below] at block
      rw [behindBlock, untilTop_nil (inside block)]
  | case3 depth char =>
      rw [deep below] at block
      cases fuel with
      | zero => exact absurd enough (Nat.not_succ_le_zero _)
      | succ fuel =>
          have noPair {first second : Char} : ¬(char = first ∧ ([] : Text).head? = some second) :=
            fun both => by cases both.2
          have stays : (state.push [char]).mode = .blockComment (depth + 1) := block
          rw [behindBlock, untilTop_cons (inside block), turn_passes block noPair noPair,
            untilTop_nil (inside stays)]
  | case4 depth char next later opens ih =>
      obtain ⟨rfl, rfl⟩ := opens
      rw [deep below] at block
      cases fuel with
      | zero => exact absurd enough (Nat.not_succ_le_zero _)
      | succ fuel =>
          have shorter : later.length ≤ fuel := by
            rw [List.length_cons, List.length_cons] at enough
            omega
          have wraps : blockDepth (depth + 1 + 1) = blockDepth ((depth + 2) % 2 ^ 32) := by
            rw [blockDepth, blockDepth, Nat.mod_mod]
          rw [behindBlock, if_pos ⟨rfl, rfl⟩, untilTop_cons (inside block), turn_opens block]
          exact ih shorter (Nat.mod_lt _ (by decide)) wraps
  | case5 depth char next later noOpen closes ih =>
      obtain ⟨rfl, rfl⟩ := closes
      rw [deep below] at block
      cases fuel with
      | zero => exact absurd enough (Nat.not_succ_le_zero _)
      | succ fuel =>
          have shorter : later.length ≤ fuel := by
            rw [List.length_cons, List.length_cons] at enough
            omega
          rw [behindBlock, if_neg noOpen, if_pos ⟨rfl, rfl⟩, untilTop_cons (inside block),
            turn_closes block]
          exact ih shorter (Nat.lt_of_succ_lt below) rfl
  | case6 depth char next later noOpen noClose ih =>
      rw [deep below] at block
      cases fuel with
      | zero => exact absurd enough (Nat.not_succ_le_zero _)
      | succ fuel =>
          have left : ¬(char = '/' ∧ (next :: later).head? = some '*') := by simpa using noOpen
          have right : ¬(char = '*' ∧ (next :: later).head? = some '/') := by simpa using noClose
          have stays : (state.push [char]).mode = blockDepth (depth + 1) := block.trans (deep below).symm
          rw [behindBlock, if_neg noOpen, if_neg noClose, untilTop_cons (inside block),
            turn_passes block left right]
          exact ih (Nat.le_of_succ_le_succ enough) below stays

/-! ### The first turn -/

/-- The counter of 32 bits. -/
def counted : Comments := commentsWith (· % 2 ^ 32)

theorem turn_line (tail : Text) :
    turn {} '-' ('-' :: tail) = (({} : State).push ['-', '-'] |>.enter .lineComment, tail) := rfl

theorem turn_block (tail : Text) :
    turn {} '/' ('*' :: tail) = (({} : State).push ['/', '*'] |>.enter (.blockComment 1), tail) := rfl

/-- A turn that enters no comment. -/
theorem turn_other {c : Char} {rest : Text} (noLine : ¬(c = '-' ∧ rest.head? = some '-'))
    (noBlock : ¬(c = '/' ∧ rest.head? = some '*')) : opensComment (c :: rest) = false := by
  have arms : turn {} c rest = topTurn {} c rest := rfl
  rw [opensComment, arms, topTurn, if_neg noLine, if_neg noBlock]
  by_cases single : c = '\''
  · rw [if_pos single]
    rfl
  rw [if_neg single]
  by_cases double : c = '"'
  · rw [if_pos double]
    rfl
  rw [if_neg double]
  by_cases dollar : c = '$'
  · rw [if_pos dollar]
    cases openingTag rest with
    | none => rfl
    | some tag => rfl
  rw [if_neg dollar]
  by_cases semicolon : c = ';'
  · rw [if_pos semicolon]
    rfl
  · rw [if_neg semicolon]
    rfl

theorem opensComment_begins (text : Text) : opensComment text = begins text := by
  cases text with
  | nil => rfl
  | cons c rest =>
      by_cases line : c = '-' ∧ rest.head? = some '-'
      · obtain ⟨rfl, dash⟩ := line
        obtain ⟨tail, rfl⟩ := List.head?_eq_some_iff.mp dash
        rw [Cli.begins_line]
        rfl
      by_cases block : c = '/' ∧ rest.head? = some '*'
      · obtain ⟨rfl, star⟩ := block
        obtain ⟨tail, rfl⟩ := List.head?_eq_some_iff.mp star
        rw [Cli.begins_block]
        rfl
      · rw [turn_other line block, eq_comm, Bool.eq_false_iff]
        intro starts
        rw [begins, Bool.or_eq_true, beginsLine, beginsBlock, List.isPrefixOf_iff_prefix,
          List.isPrefixOf_iff_prefix] at starts
        rcases starts with dashes | marks
        · obtain ⟨tail, same⟩ := dashes
          obtain ⟨rfl, rfl⟩ := List.cons.inj same
          exact line ⟨rfl, rfl⟩
        · obtain ⟨tail, same⟩ := marks
          obtain ⟨rfl, rfl⟩ := List.cons.inj same
          exact block ⟨rfl, rfl⟩

theorem closedComment_behind {text : Text} (starts : begins text = true) :
    closedComment text = counted.behind text := by
  rw [begins, Bool.or_eq_true] at starts
  rcases starts with line | block
  · have comment : counted.behind text = behindLine (text.drop 2) := if_pos line
    obtain ⟨tail, rfl⟩ := List.isPrefixOf_iff_prefix.mp line
    have enough : tail.length ≤ ('-' :: tail).length := Nat.le_succ _
    exact (untilTop_line enough rfl).trans comment.symm
  · obtain ⟨tail, rfl⟩ := List.isPrefixOf_iff_prefix.mp block
    have enough : tail.length ≤ ('*' :: tail).length := Nat.le_succ _
    exact untilTop_block enough (by decide) rfl

/-- The comments of `split_statements`. -/
def comments : Comments where
  opens := opensComment
  behind := closedComment
  visible := by
    intro char rest blank
    rw [opensComment_begins]
    exact counted.visible blank
  shorter := by
    intro text rest opens found
    rw [opensComment_begins] at opens
    rw [closedComment_behind opens] at found
    exact counted.shorter opens found

theorem comments_agree : Comments.Agree comments counted := by
  intro text
  refine ⟨opensComment_begins text, fun opens => ?_⟩
  exact closedComment_behind ((opensComment_begins text).symm.trans opens)

/-! ### The two readers -/

/-- What `strip_leading_comments` leaves of the text is what stands behind its
longest prefix of blanks and complete comments, and nothing if one is not
complete; no slice is inside a character, and the recursion ends. -/
def AgreesOn (sql : Text) : Prop :=
  ∃ result, Cli.stripLeadingComments sql = some result ∧ comments.Remains sql result

/-- They agree exactly when nothing else remains behind a place where the
counter of 32 bits wraps around. -/
theorem agreesOn_iff (sql : Text) :
    AgreesOn sql ↔ ∀ rest, Overflows (2 ^ 32) sql rest →
      ∃ result, nested.Remains sql result ∧ comments.Remains rest result := by
  obtain ⟨result, strips, remains⟩ := Cli.stripLeadingComments_remains sql
  have limit := remains_limit_iff (show 1 < 2 ^ 32 by decide) remains
  constructor
  · intro agrees rest full
    obtain ⟨other, same, also⟩ := agrees
    obtain rfl := Option.some.inj (strips.symm.trans same)
    have behind := limit.mp (comments_agree.remains_iff.mp also) rest full
    exact ⟨_, remains, comments_agree.remains_iff.mpr behind⟩
  · intro behind
    refine ⟨result, strips, comments_agree.remains_iff.mpr (limit.mpr fun rest full => ?_)⟩
    obtain ⟨other, also, left⟩ := behind rest full
    obtain rfl := remains.unique also
    exact comments_agree.remains_iff.mp left

/-- They agree on every text without 2^32 comments inside each other. -/
theorem agreesOn_below {sql : Text} (never : ∀ rest, ¬Overflows (2 ^ 32) sql rest) :
    AgreesOn sql := by
  obtain ⟨result, strips, remains⟩ := Cli.stripLeadingComments_remains sql
  have also := remains_within (show 1 < 2 ^ 32 by decide) never remains
  exact ⟨result, strips, comments_agree.remains_iff.mpr also⟩

/-- So many comments are opened. -/
def openers (count : Nat) : Text := (List.replicate count ['/', '*']).flatten

theorem openers_succ (count : Nat) : openers (count + 1) = '/' :: '*' :: openers count := rfl

theorem overflow_openers {limit depth count : Nat} (full : depth + 2 + count = limit)
    (rest : Text) : overflow limit (depth + 1) (openers (count + 1) ++ rest) = some rest := by
  induction count generalizing depth with
  | zero =>
      rw [openers_succ, List.cons_append, List.cons_append, overflow, if_pos ⟨rfl, rfl⟩, if_pos full]
      rfl
  | succ count ih =>
      have other : ¬depth + 2 = limit := by omega
      rw [openers_succ, List.cons_append, List.cons_append, overflow, if_pos ⟨rfl, rfl⟩,
        if_neg other]
      exact ih (by omega)

theorem behindBlock_openers {rest : Text} (unclosed : ∀ depth, behindBlock id (depth + 1) rest = none)
    (depth count : Nat) : behindBlock id (depth + 1) (openers count ++ rest) = none := by
  induction count generalizing depth with
  | zero => exact unclosed depth
  | succ count ih =>
      rw [openers_succ, List.cons_append, List.cons_append, behindBlock, if_pos ⟨rfl, rfl⟩]
      exact ih (depth + 1)

theorem not_agreesOn_full {count : Nat} (full : count + 2 = 2 ^ 32) :
    ¬AgreesOn (openers (count + 2) ++ "SELECT".toList) := by
  intro agrees
  have starts : begins (openers (count + 2) ++ "SELECT".toList) = true := Cli.begins_block
  have reaches : Overflows (2 ^ 32) (openers (count + 2) ++ "SELECT".toList) "SELECT".toList := by
    refine ⟨_, .done _, starts, ?_⟩
    have size : 0 + 2 + count = 2 ^ 32 := by omega
    exact overflow_openers size "SELECT".toList
  obtain ⟨result, remains, also⟩ := (agreesOn_iff _).mp agrees _ reaches
  have unclosed : nested.behind (openers (count + 2) ++ "SELECT".toList) = none :=
    behindBlock_openers (fun depth => rfl) 0 (count + 1)
  obtain rfl := remains.unique (Comments.remains_nothing starts unclosed)
  have word : comments.Remains "SELECT".toList "SELECT".toList :=
    Comments.remains_text (by decide) (by decide)
  exact absurd (also.unique word) (by decide)

/-- Behind 2^32 opened comments, `split_statements` is outside of them. -/
theorem not_agreesOn_openers : ¬AgreesOn (openers (2 ^ 32) ++ "SELECT".toList) := by
  have full : 4294967294 + 2 = 2 ^ 32 := rfl
  rw [← full]
  exact not_agreesOn_full full

end OpenGauss.Mcp.SqlTokenizer
