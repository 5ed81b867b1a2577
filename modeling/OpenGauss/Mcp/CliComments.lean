import OpenGauss.Lib.SqlComments
import OpenGauss.Mcp.Cli

/-! What `strip_leading_comments` leaves of a text: it slices at characters
only, comes to its end, and leaves what stands behind the blanks and comments. -/

set_option autoImplicit false

namespace OpenGauss.Mcp.Cli

open Driver Driver.UrlSlices Lib Lib.Text Lib.SqlComments

/-! ### Bytes and characters -/

theorem encode_pair {first second : Char} (narrow : first.toNat ≤ 127) (also : second.toNat ≤ 127)
    (text : Text) :
    (Utf8.encode text).take 2 = Utf8.encode [first, second] ↔
      [first, second].isPrefixOf text = true := by
  rw [List.isPrefixOf_iff_prefix, Utf8.encode_narrow narrow, Utf8.encode_narrow also]
  constructor
  · intro same
    have head := congrArg List.head? same
    rw [List.head?_take, if_neg (by decide)] at head
    obtain ⟨rest, rfl⟩ := List.head?_eq_some_iff.mp ((Utf8.encode_head_iff narrow text).mp head)
    rw [Utf8.encode_narrow narrow, List.take_succ_cons] at same
    have next := congrArg List.head? (List.cons.inj same).2
    rw [List.head?_take, if_neg (by decide)] at next
    obtain ⟨last, rfl⟩ := List.head?_eq_some_iff.mp ((Utf8.encode_head_iff also rest).mp next)
    exact ⟨last, rfl⟩
  · intro starts
    obtain ⟨rest, rfl⟩ := starts
    rw [List.cons_append, List.cons_append, Utf8.encode_narrow narrow, Utf8.encode_narrow also]
    rfl

/-! ### The loop over a block comment -/

/-- The offset at the end of the comment, if it comes to one. -/
def loopEnd (loop : Nat × Nat) : Option Nat := if loop.1 = 0 then some loop.2 else none

theorem blockLoop_zero (i : Nat) (bytes : List UInt8) : blockLoop 0 i bytes = (0, i) := by
  unfold blockLoop
  split
  · exact if_neg (Nat.lt_irrefl 0)
  · rfl

theorem blockLoop_cons (depth i : Nat) (byte next : UInt8) (later : List UInt8) :
    blockLoop (depth + 1) i (byte :: next :: later) =
      if [byte, next] = Utf8.encode "/*".toList then blockLoop (depth + 2) (i + 2) later
      else if [byte, next] = Utf8.encode "*/".toList then blockLoop depth (i + 2) later
      else blockLoop (depth + 1) (i + 1) (next :: later) := by
  rw [blockLoop, if_pos (Nat.succ_pos depth)]
  rfl

/-- A byte that is half of no mark is passed over. -/
theorem blockLoop_skip {byte : UInt8} {bytes : List UInt8}
    (noOpen : (byte :: bytes).take 2 ≠ Utf8.encode "/*".toList)
    (noClose : (byte :: bytes).take 2 ≠ Utf8.encode "*/".toList) (depth i : Nat) :
    loopEnd (blockLoop (depth + 1) i (byte :: bytes)) =
      loopEnd (blockLoop (depth + 1) (i + 1) bytes) := by
  cases bytes with
  | nil => rfl
  | cons next later =>
      have opens : ¬[byte, next] = Utf8.encode "/*".toList := noOpen
      have closes : ¬[byte, next] = Utf8.encode "*/".toList := noClose
      rw [blockLoop_cons, if_neg opens, if_neg closes]

theorem blockLoop_wide {high : List UInt8} (wide : ∀ byte ∈ high, 128 ≤ byte.toNat)
    (depth i : Nat) (bytes : List UInt8) :
    loopEnd (blockLoop (depth + 1) i (high ++ bytes)) =
      loopEnd (blockLoop (depth + 1) (i + high.length) bytes) := by
  induction high generalizing i with
  | nil => rfl
  | cons byte high ih =>
      have large := wide byte List.mem_cons_self
      have other {code : UInt8} (small : code.toNat < 128) (rest : List UInt8) :
          (byte :: (high ++ bytes)).take 2 ≠ code :: rest := by
        intro same
        obtain rfl := (List.cons.inj same).1
        omega
      rw [List.cons_append, blockLoop_skip (other (by decide) _) (other (by decide) _),
        ih fun byte member => wide byte (List.mem_cons_of_mem _ member), List.length_cons,
        Nat.add_assoc, Nat.add_comm 1]

theorem utf8Length_cons (char : Char) (text : Text) :
    utf8Length (char :: text) = char.utf8Size + utf8Length text := by
  simp [utf8Length]

/-- A character that begins no mark is passed over. -/
theorem blockLoop_char {char : Char} {rest : Text}
    (noOpen : ['/', '*'].isPrefixOf (char :: rest) = false)
    (noClose : ['*', '/'].isPrefixOf (char :: rest) = false) (depth i : Nat) :
    loopEnd (blockLoop (depth + 1) i (Utf8.encode (char :: rest))) =
      loopEnd (blockLoop (depth + 1) (i + char.utf8Size) (Utf8.encode rest)) := by
  have size : (String.utf8EncodeChar char).length = char.utf8Size := String.length_utf8EncodeChar char
  rcases Utf8.encodeChar_cases char with ⟨narrow, byte⟩ | ⟨wide, high⟩
  · have opens := (encode_pair (by decide) (by decide) (char :: rest)).not.mpr
      (Bool.eq_false_iff.mp noOpen)
    have close := (encode_pair (by decide) (by decide) (char :: rest)).not.mpr
      (Bool.eq_false_iff.mp noClose)
    rw [byte, List.length_singleton] at size
    rw [Utf8.encode_narrow narrow] at opens close ⊢
    rw [blockLoop_skip opens close, size]
  · rw [Utf8.encode_cons, blockLoop_wide high, size]

/-- The loop comes to the byte behind the comment. -/
theorem blockLoop_behind (depth i : Nat) (text : Text) :
    loopEnd (blockLoop depth i (Utf8.encode text)) =
      (behindBlock id depth text).map fun rest => i + utf8Length text - utf8Length rest := by
  induction depth, text using behindBlock.induct id generalizing i with
  | case1 text =>
      rw [blockLoop_zero, behindBlock, Option.map_some, Nat.add_sub_cancel]
      rfl
  | case2 depth => rfl
  | case3 depth char =>
      have noOpen : ['/', '*'].isPrefixOf [char] = false := by simp [List.isPrefixOf]
      have noClose : ['*', '/'].isPrefixOf [char] = false := by simp [List.isPrefixOf]
      rw [blockLoop_char noOpen noClose]
      rfl
  | case4 depth char next later opens ih =>
      obtain ⟨rfl, rfl⟩ := opens
      rw [Utf8.encode_narrow (by decide), Utf8.encode_narrow (by decide), blockLoop_cons,
        if_pos (by decide), behindBlock, if_pos ⟨rfl, rfl⟩, utf8Length_cons, utf8Length_cons]
      have size : i + ('/'.utf8Size + ('*'.utf8Size + utf8Length later)) = i + 2 + utf8Length later := by
        have one : '/'.utf8Size = 1 ∧ '*'.utf8Size = 1 := by decide
        omega
      rw [size]
      exact ih (i + 2)
  | case5 depth char next later noOpen closes ih =>
      obtain ⟨rfl, rfl⟩ := closes
      rw [Utf8.encode_narrow (by decide), Utf8.encode_narrow (by decide), blockLoop_cons,
        if_neg (by decide), if_pos (by decide), behindBlock, if_neg noOpen, if_pos ⟨rfl, rfl⟩,
        utf8Length_cons, utf8Length_cons]
      have size : i + ('*'.utf8Size + ('/'.utf8Size + utf8Length later)) = i + 2 + utf8Length later := by
        have one : '/'.utf8Size = 1 ∧ '*'.utf8Size = 1 := by decide
        omega
      rw [size]
      exact ih (i + 2)
  | case6 depth char next later noOpen noClose ih =>
      have left : ['/', '*'].isPrefixOf (char :: next :: later) = false := by
        rw [Bool.eq_false_iff]
        intro starts
        obtain ⟨rest, same⟩ := List.isPrefixOf_iff_prefix.mp starts
        exact noOpen ⟨(List.cons.inj same).1.symm, (List.cons.inj (List.cons.inj same).2).1.symm⟩
      have right : ['*', '/'].isPrefixOf (char :: next :: later) = false := by
        rw [Bool.eq_false_iff]
        intro starts
        obtain ⟨rest, same⟩ := List.isPrefixOf_iff_prefix.mp starts
        exact noClose ⟨(List.cons.inj same).1.symm, (List.cons.inj (List.cons.inj same).2).1.symm⟩
      rw [blockLoop_char left right, ih, behindBlock, if_neg noOpen, if_neg noClose,
        utf8Length_cons char, ← Nat.add_assoc]

/-! ### The recursion -/

theorem behindLine_append {body : Text} (inside : ∀ char ∈ body, (char == '\n') = false)
    (rest : Text) : behindLine (body ++ '\n' :: rest) = some rest := by
  induction body with
  | nil => exact if_pos rfl
  | cons char body ih =>
      have other : ¬char = '\n' := beq_eq_false_iff_ne.mp (inside char List.mem_cons_self)
      rw [List.cons_append, behindLine, if_neg other]
      exact ih fun char member => inside char (List.mem_cons_of_mem _ member)

theorem behindLine_none {text : Text} (inside : ∀ char ∈ text, (char == '\n') = false) :
    behindLine text = none := by
  induction text with
  | nil => rfl
  | cons char text ih =>
      have other : ¬char = '\n' := beq_eq_false_iff_ne.mp (inside char List.mem_cons_self)
      rw [behindLine, if_neg other]
      exact ih fun char member => inside char (List.mem_cons_of_mem _ member)

theorem begins_line {tail : Text} : begins ('-' :: '-' :: tail) = true := by
  simp [begins, beginsLine]

theorem begins_block {tail : Text} : begins ('/' :: '*' :: tail) = true := by
  simp [begins, beginsBlock]

theorem utf8Length_append (first second : Text) :
    utf8Length (first ++ second) = utf8Length first + utf8Length second := by
  simp [utf8Length]

/-- The slice behind the end of a line. -/
theorem line_slice (tail : Text) :
    (find (· == '\n') ('-' :: '-' :: tail) = none ∧ behindLine tail = none) ∨
      ∃ pos rest, find (· == '\n') ('-' :: '-' :: tail) = some pos ∧
        sliceFrom? ('-' :: '-' :: tail) (pos + 1) = some rest ∧ behindLine tail = some rest := by
  have dashes {text : Text} (inside : ∀ char ∈ text, (char == '\n') = false) :
      ∀ char ∈ '-' :: '-' :: text, (char == '\n') = false :=
    List.forall_mem_cons.mpr ⟨by decide, List.forall_mem_cons.mpr ⟨by decide, inside⟩⟩
  rcases first_end (· == '\n') tail with inside | ⟨body, stop, rest, rfl, inside, stops⟩
  · exact .inl ⟨find_none (dashes inside), behindLine_none inside⟩
  · obtain rfl := beq_iff_eq.mp stops
    refine .inr ⟨_, rest, find_append (dashes inside) stops rest, ?_, behindLine_append inside rest⟩
    have size : utf8Length ('-' :: '-' :: body) + 1 = utf8Length ('-' :: '-' :: body ++ ['\n']) := by
      rw [utf8Length_append]
      rfl
    have whole : '-' :: '-' :: (body ++ '\n' :: rest) = ('-' :: '-' :: body ++ ['\n']) ++ rest := by
      simp
    rw [size, whole, sliceFrom?_append]

/-- The slice behind a block comment. -/
theorem block_slice (tail : Text) :
    ((blockLoop 1 2 (Utf8.encode tail)).1 ≠ 0 ∧ behindBlock id 1 tail = none) ∨
      ∃ rest, (blockLoop 1 2 (Utf8.encode tail)).1 = 0 ∧
        sliceFrom? ('/' :: '*' :: tail) (blockLoop 1 2 (Utf8.encode tail)).2 = some rest ∧
          behindBlock id 1 tail = some rest := by
  have loop := blockLoop_behind 1 2 tail
  cases behind : behindBlock id 1 tail with
  | none =>
      rw [behind, loopEnd] at loop
      refine .inl ⟨fun zero => ?_, rfl⟩
      rw [if_pos zero] at loop
      cases loop
  | some rest =>
      rw [behind, loopEnd, Option.map_some] at loop
      have zero : (blockLoop 1 2 (Utf8.encode tail)).1 = 0 := by
        by_contra other
        rw [if_neg other] at loop
        cases loop
      rw [if_pos zero] at loop
      refine .inr ⟨rest, zero, ?_, rfl⟩
      obtain ⟨front, rfl⟩ := behindBlock_suffix behind
      have offset : (blockLoop 1 2 (Utf8.encode (front ++ rest))).2 = utf8Length ('/' :: '*' :: front) := by
        have marks : '/'.utf8Size = 1 ∧ '*'.utf8Size = 1 := by decide
        rw [Option.some.inj loop, utf8Length_cons, utf8Length_cons, utf8Length_append]
        omega
      rw [offset]
      exact sliceFrom?_append ('/' :: '*' :: front) rest

section Turns

variable {fuel : Nat} {text : Text}

theorem line_bytes : (Utf8.encode (trimStart text)).take 2 = Utf8.encode "--".toList ↔
    beginsLine (trimStart text) = true :=
  encode_pair (by decide) (by decide) (trimStart text)

theorem block_bytes : (Utf8.encode (trimStart text)).take 2 = Utf8.encode "/*".toList ↔
    beginsBlock (trimStart text) = true :=
  encode_pair (by decide) (by decide) (trimStart text)

theorem strip_line (line : beginsLine (trimStart text) = true) :
    (find (· == '\n') (trimStart text) = none → stripLeadingCommentsFrom (fuel + 1) text = some []) ∧
      ∀ pos rest, find (· == '\n') (trimStart text) = some pos →
        sliceFrom? (trimStart text) (pos + 1) = some rest →
          stripLeadingCommentsFrom (fuel + 1) text = stripLeadingCommentsFrom fuel rest := by
  constructor
  · intro noEnd
    simp only [stripLeadingCommentsFrom, if_pos (line_bytes.mpr line), noEnd]
  · intro pos rest found slice
    simp only [stripLeadingCommentsFrom, if_pos (line_bytes.mpr line), found, slice, Option.bind_some]

theorem strip_block (noLine : ¬beginsLine (trimStart text) = true)
    (block : beginsBlock (trimStart text) = true) {loop : Nat × Nat}
    (loops : blockLoop 1 2 ((Utf8.encode (trimStart text)).drop 2) = loop) :
    (loop.1 ≠ 0 → stripLeadingCommentsFrom (fuel + 1) text = some []) ∧
      ∀ rest, loop.1 = 0 → sliceFrom? (trimStart text) loop.2 = some rest →
        stripLeadingCommentsFrom (fuel + 1) text = stripLeadingCommentsFrom fuel rest := by
  constructor
  · intro inside
    simp only [stripLeadingCommentsFrom, if_neg (line_bytes.not.mpr noLine),
      if_pos (block_bytes.mpr block), loops, if_neg inside]
  · intro rest zero slice
    simp only [stripLeadingCommentsFrom, if_neg (line_bytes.not.mpr noLine),
      if_pos (block_bytes.mpr block), loops, if_pos zero, slice, Option.bind_some]

theorem strip_plain (noLine : ¬beginsLine (trimStart text) = true)
    (noBlock : ¬beginsBlock (trimStart text) = true) :
    stripLeadingCommentsFrom (fuel + 1) text = some (trimStart text) := by
  simp only [stripLeadingCommentsFrom, if_neg (line_bytes.not.mpr noLine),
    if_neg (block_bytes.not.mpr noBlock)]

end Turns

theorem stripLeadingCommentsFrom_remains {fuel : Nat} {text : Text} (enough : text.length < fuel) :
    ∃ result, stripLeadingCommentsFrom fuel text = some result ∧ nested.Remains text result := by
  induction fuel generalizing text with
  | zero => exact absurd enough (Nat.not_lt_zero _)
  | succ fuel ih =>
      have skips := @Comments.skips_trimStart nested text
      have visible := Comments.trimStart_visible text
      have size := skips.suffix.length_le
      -- what is behind a complete comment is stripped in turn
      have further {rest : Text} (opens : nested.opens (trimStart text) = true)
          (complete : nested.behind (trimStart text) = some rest) :
          ∃ result, stripLeadingCommentsFrom fuel rest = some result ∧
            nested.Remains (trimStart text) result := by
        have shorter := (nested.shorter opens complete).2
        obtain ⟨result, strips, remains⟩ := @ih rest (by omega)
        have step : nested.Skips (trimStart text) rest := .comment opens complete (.done rest)
        exact ⟨result, strips, (Comments.remains_iff step).mpr remains⟩
      simp only [Comments.remains_iff skips]
      by_cases line : beginsLine (trimStart text) = true
      · obtain ⟨unclosedLine, closedLine⟩ := @strip_line fuel text line
        have opens : nested.opens (trimStart text) = true := by
          change begins (trimStart text) = true
          rw [begins, line, Bool.true_or]
        have comment : nested.behind (trimStart text) = behindLine ((trimStart text).drop 2) :=
          if_pos line
        obtain ⟨tail, same⟩ := List.isPrefixOf_iff_prefix.mp line
        rw [← same] at further unclosedLine closedLine opens comment ⊢
        rcases line_slice tail with ⟨noEnd, unclosed⟩ | ⟨pos, rest, found, slice, complete⟩
        · exact ⟨[], unclosedLine noEnd, Comments.remains_nothing opens (comment.trans unclosed)⟩
        · obtain ⟨result, strips, remains⟩ := further opens (comment.trans complete)
          exact ⟨result, (closedLine pos rest found slice).trans strips, remains⟩
      by_cases block : beginsBlock (trimStart text) = true
      · obtain ⟨unclosedBlock, closedBlock⟩ := @strip_block fuel text line block _ rfl
        have opens : nested.opens (trimStart text) = true := by
          change begins (trimStart text) = true
          rw [begins, block, Bool.or_true]
        have comment : nested.behind (trimStart text) =
            behindBlock id 1 ((trimStart text).drop 2) := if_neg line
        obtain ⟨tail, same⟩ := List.isPrefixOf_iff_prefix.mp block
        rw [← same] at further unclosedBlock closedBlock opens comment ⊢
        have bytes : (Utf8.encode (['/', '*'] ++ tail)).drop 2 = Utf8.encode tail := by
          rw [Utf8.encode_append]
          rfl
        rw [bytes] at unclosedBlock closedBlock
        rcases block_slice tail with ⟨inside, unclosed⟩ | ⟨rest, zero, slice, complete⟩
        · exact ⟨[], unclosedBlock inside, Comments.remains_nothing opens (comment.trans unclosed)⟩
        · obtain ⟨result, strips, remains⟩ := further opens (comment.trans complete)
          exact ⟨result, (closedBlock rest zero slice).trans strips, remains⟩
      · have plain : nested.opens (trimStart text) = false := by
          change begins (trimStart text) = false
          rw [begins, Bool.eq_false_iff.mpr line, Bool.eq_false_iff.mpr block, Bool.or_false]
        exact ⟨trimStart text, strip_plain line block, Comments.remains_text visible plain⟩

/-- Every slice is at a character, the recursion ends, and what stands behind
the leading blanks and comments remains. -/
theorem stripLeadingComments_remains (sql : Text) :
    ∃ result, stripLeadingComments sql = some result ∧ nested.Remains sql result :=
  stripLeadingCommentsFrom_remains (Nat.lt_succ_self sql.length)

end OpenGauss.Mcp.Cli
