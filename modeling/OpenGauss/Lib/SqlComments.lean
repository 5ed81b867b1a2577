import Mathlib.Data.Nat.Basic
import OpenGauss.Lib.Text

/-! The blanks and comments in front of a statement, and what remains behind
them. What a comment is, is a parameter; block comments nest, and the counter
of those that are open may have a bound. -/

set_option autoImplicit false

namespace OpenGauss.Lib.SqlComments

open Text

/-- How a reader sees the comments of a text. -/
structure Comments where
  /-- A comment begins the text. -/
  opens : List Char → Bool
  /-- The text behind that comment, if it is complete. -/
  behind : List Char → Option (List Char)
  visible : ∀ {char rest}, isWhitespace char = true → opens (char :: rest) = false
  shorter : ∀ {text rest}, opens text = true → behind text = some rest →
    rest <:+ text ∧ rest.length < text.length

namespace Comments

variable (comments : Comments)

/-- Blanks and complete comments lead from the text to what stands behind them. -/
inductive Skips : List Char → List Char → Prop where
  | done (text : List Char) : Skips text text
  | blank {char : Char} {rest last : List Char} (blank : isWhitespace char = true)
      (later : Skips rest last) : Skips (char :: rest) last
  | comment {text rest last : List Char} (opens : comments.opens text = true)
      (complete : comments.behind text = some rest) (later : Skips rest last) : Skips text last

/-- What stands behind the longest prefix of blanks and complete comments. -/
def Longest (text rest : List Char) : Prop :=
  comments.Skips text rest ∧ ∀ other, comments.Skips text other → rest <:+ other

/-- What remains of the text: nothing, if a comment is not complete. -/
def Remains (text result : List Char) : Prop :=
  ∃ rest, comments.Longest text rest ∧
    result = if comments.opens rest = true ∧ comments.behind rest = none then [] else rest

variable {comments : Comments}

theorem Skips.suffix {text rest : List Char} (skips : comments.Skips text rest) : rest <:+ text := by
  induction skips with
  | done text => exact List.suffix_refl text
  | blank _ _ ih => exact ih.trans (List.suffix_cons _ _)
  | comment opens complete _ ih => exact ih.trans (comments.shorter opens complete).1

theorem Skips.trans {text middle rest : List Char} (first : comments.Skips text middle)
    (second : comments.Skips middle rest) : comments.Skips text rest := by
  induction first with
  | done => exact second
  | blank blank _ ih => exact .blank blank (ih second)
  | comment opens complete _ ih => exact .comment opens complete (ih second)

/-- There is one way on from every text. -/
theorem Skips.linear {text first second : List Char} (skips : comments.Skips text first)
    (other : comments.Skips text second) :
    comments.Skips first second ∨ comments.Skips second first := by
  induction skips with
  | done text => exact .inl other
  | blank blank later ih =>
      cases other with
      | done => exact .inr (.blank blank later)
      | blank _ further => exact ih further
      | comment opens _ _ =>
          rw [comments.visible blank] at opens
          cases opens
  | comment opens complete later ih =>
      cases other with
      | done => exact .inr (.comment opens complete later)
      | blank blank _ =>
          rw [comments.visible blank] at opens
          cases opens
      | comment _ also further =>
          obtain rfl := Option.some.inj (complete.symm.trans also)
          exact ih further

theorem suffix_antisymm {first second : List Char} (left : first <:+ second)
    (right : second <:+ first) : first = second :=
  left.eq_of_length (Nat.le_antisymm left.length_le right.length_le)

/-- The longest prefix goes on from every place that is reached. -/
theorem longest_iff {text middle rest : List Char} (skips : comments.Skips text middle) :
    comments.Longest text rest ↔ comments.Longest middle rest := by
  constructor
  · intro longest
    refine ⟨?_, fun other further => longest.2 other (skips.trans further)⟩
    rcases skips.linear longest.1 with further | back
    · exact further
    · obtain rfl := suffix_antisymm (longest.2 middle skips) back.suffix
      exact .done _
  · intro longest
    refine ⟨skips.trans longest.1, fun other further => ?_⟩
    rcases skips.linear further with later | back
    · exact longest.2 other later
    · exact longest.1.suffix.trans back.suffix

theorem remains_iff {text middle result : List Char} (skips : comments.Skips text middle) :
    comments.Remains text result ↔ comments.Remains middle result := by
  simp only [Remains, longest_iff skips]

theorem Remains.unique {text first second : List Char} (remains : comments.Remains text first)
    (other : comments.Remains text second) : first = second := by
  obtain ⟨rest, longest, rfl⟩ := remains
  obtain ⟨last, also, rfl⟩ := other
  obtain rfl := suffix_antisymm (longest.2 last also.1) (also.2 rest longest.1)
  rfl

/-! ### One step -/

/-- A text that begins with something else is what remains. -/
theorem longest_stuck {text : List Char} (visible : text.head?.any isWhitespace = false)
    (complete : comments.opens text = true → comments.behind text = none) :
    comments.Longest text text := by
  refine ⟨.done text, fun other skips => ?_⟩
  cases skips with
  | done => exact List.suffix_refl text
  | blank blank _ =>
      rw [List.head?_cons, Option.any_some, blank] at visible
      cases visible
  | comment opens found _ =>
      rw [complete opens] at found
      cases found

theorem remains_text {text : List Char} (visible : text.head?.any isWhitespace = false)
    (plain : comments.opens text = false) : comments.Remains text text := by
  have closed : comments.opens text = true → comments.behind text = none := by
    intro opens
    rw [plain] at opens
    cases opens
  refine ⟨text, longest_stuck visible closed, ?_⟩
  rw [plain, if_neg fun both => Bool.false_ne_true both.1]

theorem remains_nothing {text : List Char} (opens : comments.opens text = true)
    (unclosed : comments.behind text = none) : comments.Remains text [] := by
  have visible : text.head?.any isWhitespace = false := by
    cases text with
    | nil => rfl
    | cons char rest =>
        rw [List.head?_cons, Option.any_some]
        by_contra blank
        rw [comments.visible (Bool.not_eq_false _ ▸ blank)] at opens
        cases opens
  exact ⟨text, longest_stuck visible fun _ => unclosed, (if_pos ⟨opens, unclosed⟩).symm⟩

theorem skips_trimStart (text : List Char) : comments.Skips text (trimStart text) := by
  induction text with
  | nil => exact .done []
  | cons char rest ih =>
      cases blank : isWhitespace char with
      | true =>
          rw [trimStart, List.dropWhile_cons_of_pos blank]
          exact .blank blank ih
      | false =>
          rw [trimStart, List.dropWhile_cons_of_neg (Bool.eq_false_iff.mp blank)]
          exact .done _

theorem trimStart_visible (text : List Char) : (trimStart text).head?.any isWhitespace = false := by
  rw [trimStart]
  cases found : (text.dropWhile isWhitespace).head? with
  | none => rfl
  | some char =>
      have visible := List.head?_dropWhile_not isWhitespace text
      rw [found] at visible
      simpa using visible

theorem Longest.stuck {text rest : List Char} (longest : comments.Longest text rest) :
    rest.head?.any isWhitespace = false ∧
      (comments.opens rest = true → comments.behind rest = none) := by
  have skips := longest.1
  constructor
  · cases rest with
    | nil => rfl
    | cons char later =>
        rw [List.head?_cons, Option.any_some]
        by_contra blank
        have further : comments.Skips (char :: later) later :=
          .blank (Bool.not_eq_false _ ▸ blank) (.done later)
        have inside := (longest.2 later (skips.trans further)).length_le
        exact absurd inside (Nat.not_succ_le_self _)
  · intro opens
    cases found : comments.behind rest with
    | none => rfl
    | some later =>
        have inside := (longest.2 later (skips.trans (.comment opens found (.done later)))).length_le
        exact absurd inside (Nat.not_le_of_lt (comments.shorter opens found).2)

theorem exists_remains (comments : Comments) (text : List Char) :
    ∃ result, comments.Remains text result := by
  induction size : text.length using Nat.strong_induction_on generalizing text with
  | _ length ih =>
      have skips := @skips_trimStart comments text
      have visible := trimStart_visible text
      simp only [remains_iff skips]
      cases opens : comments.opens (trimStart text) with
      | false => exact ⟨_, remains_text visible opens⟩
      | true =>
          cases found : comments.behind (trimStart text) with
          | none => exact ⟨_, remains_nothing opens found⟩
          | some rest =>
              have shorter : rest.length < length := by
                rw [← size]
                exact Nat.lt_of_lt_of_le (comments.shorter opens found).2 skips.suffix.length_le
              have step : comments.Skips (trimStart text) rest := .comment opens found (.done rest)
              simp only [remains_iff step]
              exact ih _ shorter rest rfl

/-! ### Readers that see the same comments -/

def Agree (comments other : Comments) : Prop :=
  ∀ text, comments.opens text = other.opens text ∧
    (comments.opens text = true → comments.behind text = other.behind text)

theorem Agree.symm {other : Comments} (agree : Agree comments other) : Agree other comments := by
  intro text
  obtain ⟨opens, behind⟩ := agree text
  exact ⟨opens.symm, fun starts => (behind (opens.trans starts)).symm⟩

theorem Agree.skips {other : Comments} (agree : Agree comments other) {text rest : List Char}
    (skips : comments.Skips text rest) : other.Skips text rest := by
  induction skips with
  | done text => exact .done text
  | blank blank _ ih => exact .blank blank ih
  | @comment text _ _ opens complete _ ih =>
      obtain ⟨same, behind⟩ := agree text
      exact .comment (same.symm.trans opens) ((behind opens).symm.trans complete) ih

theorem Agree.remains {other : Comments} (agree : Agree comments other) {text result : List Char}
    (remains : comments.Remains text result) : other.Remains text result := by
  obtain ⟨rest, longest, rfl⟩ := remains
  obtain ⟨same, behind⟩ := agree rest
  refine ⟨rest, ⟨agree.skips longest.1, fun last skips => longest.2 last (agree.symm.skips skips)⟩, ?_⟩
  cases opens : comments.opens rest with
  | false => simp [← same, opens]
  | true => rw [← same, opens, behind opens]

theorem Agree.remains_iff {other : Comments} (agree : Agree comments other) {text result : List Char} :
    comments.Remains text result ↔ other.Remains text result :=
  ⟨agree.remains, agree.symm.remains⟩

end Comments

/-! ### Line comments and block comments -/

def beginsLine (text : List Char) : Bool := ['-', '-'].isPrefixOf text

def beginsBlock (text : List Char) : Bool := ['/', '*'].isPrefixOf text

/-- The text behind the line that it begins in. -/
def behindLine : List Char → Option (List Char)
  | [] => none
  | char :: rest => if char = '\n' then some rest else behindLine rest

/-- The text behind the block comments of which `depth` are open. `wrap` is what
becomes of the counter when one more is. -/
def behindBlock (wrap : Nat → Nat) : Nat → List Char → Option (List Char)
  | 0, text => some text
  | _ + 1, [] | _ + 1, [_] => none
  | depth + 1, char :: next :: later =>
      if char = '/' ∧ next = '*' then behindBlock wrap (wrap (depth + 2)) later
      else if char = '*' ∧ next = '/' then behindBlock wrap depth later
      else behindBlock wrap (depth + 1) (next :: later)

/-- The text behind the place where `limit` comments are open for the first time. -/
def overflow (limit : Nat) : Nat → List Char → Option (List Char)
  | 0, _ => none
  | _ + 1, [] | _ + 1, [_] => none
  | depth + 1, char :: next :: later =>
      if char = '/' ∧ next = '*' then
        if depth + 2 = limit then some later else overflow limit (depth + 2) later
      else if char = '*' ∧ next = '/' then overflow limit depth later
      else overflow limit (depth + 1) (next :: later)

theorem behindLine_suffix {text rest : List Char} (found : behindLine text = some rest) :
    rest <:+ text := by
  induction text with
  | nil => cases found
  | cons char text ih =>
      rw [behindLine] at found
      split at found
      · obtain rfl := Option.some.inj found
        exact List.suffix_cons _ _
      · exact (ih found).trans (List.suffix_cons _ _)

theorem behindBlock_suffix {wrap : Nat → Nat} {depth : Nat} {text rest : List Char}
    (found : behindBlock wrap depth text = some rest) : rest <:+ text := by
  induction depth, text using behindBlock.induct wrap with
  | case1 text =>
      rw [behindBlock] at found
      exact Option.some.inj found ▸ List.suffix_refl text
  | case2 | case3 => cases found
  | case4 depth char next later opens ih =>
      rw [behindBlock, if_pos opens] at found
      exact (ih found).trans ((List.suffix_cons _ _).trans (List.suffix_cons _ _))
  | case5 depth char next later noOpen closes ih =>
      rw [behindBlock, if_neg noOpen, if_pos closes] at found
      exact (ih found).trans ((List.suffix_cons _ _).trans (List.suffix_cons _ _))
  | case6 depth char next later noOpen noClose ih =>
      rw [behindBlock, if_neg noOpen, if_neg noClose] at found
      exact (ih found).trans (List.suffix_cons _ _)

/-- Below the limit, a counter that wraps around there counts as one without a
limit does. -/
theorem behindBlock_below {limit depth : Nat} {text : List Char} (below : depth < limit)
    (fits : overflow limit depth text = none) :
    behindBlock (· % limit) depth text = behindBlock id depth text := by
  induction depth, text using overflow.induct limit with
  | case1 text => rw [behindBlock, behindBlock]
  | case2 | case3 => rfl
  | case4 depth char next later opens last =>
      rw [overflow, if_pos opens, if_pos last] at fits
      cases fits
  | case5 depth char next later opens other ih =>
      rw [overflow, if_pos opens, if_neg other] at fits
      have inside : depth + 2 < limit := by omega
      rw [behindBlock, behindBlock, if_pos opens, if_pos opens, Nat.mod_eq_of_lt inside]
      exact ih inside fits
  | case6 depth char next later noOpen closes ih =>
      rw [overflow, if_neg noOpen, if_pos closes] at fits
      rw [behindBlock, behindBlock, if_neg noOpen, if_neg noOpen, if_pos closes, if_pos closes]
      exact ih (by omega) fits
  | case7 depth char next later noOpen noClose ih =>
      rw [overflow, if_neg noOpen, if_neg noClose] at fits
      rw [behindBlock, behindBlock, if_neg noOpen, if_neg noOpen, if_neg noClose, if_neg noClose]
      exact ih below fits

/-- At the limit, the counter is at zero again. -/
theorem behindBlock_overflow {limit depth : Nat} {text rest : List Char} (below : depth < limit)
    (full : overflow limit depth text = some rest) :
    behindBlock (· % limit) depth text = some rest := by
  induction depth, text using overflow.induct limit with
  | case1 text =>
      rw [overflow] at full
      cases full
  | case2 | case3 => cases full
  | case4 depth char next later opens last =>
      rw [overflow, if_pos opens, if_pos last] at full
      rw [behindBlock, if_pos opens, last, Nat.mod_self, behindBlock]
      exact full
  | case5 depth char next later opens other ih =>
      rw [overflow, if_pos opens, if_neg other] at full
      have inside : depth + 2 < limit := by omega
      rw [behindBlock, if_pos opens, Nat.mod_eq_of_lt inside]
      exact ih inside full
  | case6 depth char next later noOpen closes ih =>
      rw [overflow, if_neg noOpen, if_pos closes] at full
      rw [behindBlock, if_neg noOpen, if_pos closes]
      exact ih (by omega) full
  | case7 depth char next later noOpen noClose ih =>
      rw [overflow, if_neg noOpen, if_neg noClose] at full
      rw [behindBlock, if_neg noOpen, if_neg noClose]
      exact ih below full

def begins (text : List Char) : Bool := beginsLine text || beginsBlock text

def behindComment (wrap : Nat → Nat) (text : List Char) : Option (List Char) :=
  if beginsLine text then behindLine (text.drop 2) else behindBlock wrap 1 (text.drop 2)

theorem begins_cons {text : List Char} (starts : begins text = true) :
    ∃ char next rest, text = char :: next :: rest ∧ (char = '-' ∨ char = '/') := by
  rw [begins, Bool.or_eq_true, beginsLine, beginsBlock, List.isPrefixOf_iff_prefix,
    List.isPrefixOf_iff_prefix] at starts
  rcases starts with line | block
  · obtain ⟨rest, rfl⟩ := line
    exact ⟨'-', '-', rest, rfl, .inl rfl⟩
  · obtain ⟨rest, rfl⟩ := block
    exact ⟨'/', '*', rest, rfl, .inr rfl⟩

/-- Comments with such a counter. -/
def commentsWith (wrap : Nat → Nat) : Comments where
  opens := begins
  behind := behindComment wrap
  visible := by
    intro char rest blank
    by_contra starts
    obtain ⟨first, next, later, same, marks⟩ := begins_cons (Bool.not_eq_false _ ▸ starts)
    obtain rfl := (List.cons.inj same).1
    rcases marks with rfl | rfl
    · exact absurd blank (by decide)
    · exact absurd blank (by decide)
  shorter := by
    intro text rest starts found
    obtain ⟨first, next, later, rfl, -⟩ := begins_cons starts
    have behind : rest <:+ later := by
      rw [behindComment] at found
      split at found
      · exact behindLine_suffix found
      · exact behindBlock_suffix found
    have size := behind.length_le
    refine ⟨behind.trans ((List.suffix_cons _ _).trans (List.suffix_cons _ _)), ?_⟩
    rw [List.length_cons, List.length_cons]
    omega

/-- Block comments nest without a limit. -/
def nested : Comments := commentsWith id

/-! ### A counter with a limit -/

/-- The counter of a block comment that begins the text reaches the limit. -/
def overflows (limit : Nat) (text : List Char) : Option (List Char) :=
  if beginsLine text then none else overflow limit 1 (text.drop 2)

/-- Comments in which the limit is not reached. -/
def within (limit : Nat) : Comments where
  opens := begins
  behind text := if (overflows limit text).isSome then none else behindComment id text
  visible := nested.visible
  shorter := by
    intro text rest opens found
    split at found
    · cases found
    · exact nested.shorter opens found

/-- Behind leading blanks and comments a counter reaches the limit, and the rest
stands behind that place. -/
def Overflows (limit : Nat) (text rest : List Char) : Prop :=
  ∃ start, (within limit).Skips text start ∧ begins start = true ∧ overflows limit start = some rest

section Limit

variable {limit : Nat} (large : 1 < limit)

include large

theorem behindComment_below {text : List Char} (fits : overflows limit text = none) :
    behindComment (· % limit) text = behindComment id text := by
  rw [behindComment, behindComment]
  split
  · rfl
  · rename_i block
    rw [overflows, if_neg block] at fits
    exact behindBlock_below large fits

theorem behindComment_overflow {text rest : List Char} (full : overflows limit text = some rest) :
    behindComment (· % limit) text = some rest := by
  rw [overflows] at full
  split at full
  · cases full
  · rename_i block
    rw [behindComment, if_neg block]
    exact behindBlock_overflow large full

theorem skips_within {text rest : List Char} (skips : (within limit).Skips text rest) :
    (commentsWith (· % limit)).Skips text rest := by
  induction skips with
  | done text => exact .done text
  | blank blank _ ih => exact .blank blank ih
  | @comment text rest _ opens complete _ ih =>
      change (if (overflows limit text).isSome then none else behindComment id text) = some rest
        at complete
      cases full : overflows limit text with
      | none =>
          rw [full] at complete
          exact .comment opens ((behindComment_below large full).trans complete) ih
      | some later =>
          rw [full] at complete
          cases complete

/-- What stands behind the place where the limit is reached is skipped to. -/
theorem Overflows.skips {text rest : List Char} (full : Overflows limit text rest) :
    (commentsWith (· % limit)).Skips text rest := by
  obtain ⟨start, skips, opens, full⟩ := full
  exact (skips_within large skips).trans
    (.comment opens (behindComment_overflow large full) (.done rest))

omit large in
theorem within_skips {text rest : List Char} (never : ∀ rest, ¬Overflows limit text rest)
    (skips : nested.Skips text rest) : (within limit).Skips text rest := by
  induction skips with
  | done text => exact .done text
  | blank blank _ ih =>
      refine .blank blank (ih fun rest full => ?_)
      obtain ⟨start, skips, opens, full⟩ := full
      exact never rest ⟨start, .blank blank skips, opens, full⟩
  | @comment text rest _ opens complete _ ih =>
      have fits : overflows limit text = none := by
        cases full : overflows limit text with
        | none => rfl
        | some later => exact absurd ⟨text, .done text, opens, full⟩ (never later)
      have also : (within limit).behind text = some rest := by
        change (if (overflows limit text).isSome then none else behindComment id text) = some rest
        rw [fits]
        exact complete
      refine .comment opens also (ih fun rest full => ?_)
      obtain ⟨start, skips, opens', full⟩ := full
      exact never rest ⟨start, .comment opens also skips, opens', full⟩

theorem remains_within {text result : List Char} (never : ∀ rest, ¬Overflows limit text rest)
    (remains : nested.Remains text result) :
    (commentsWith (· % limit)).Remains text result := by
  obtain ⟨rest, longest, rfl⟩ := remains
  have skips := within_skips never longest.1
  obtain ⟨visible, complete⟩ := longest.stuck
  have behind (opens : begins rest = true) :
      (commentsWith (· % limit)).behind rest = nested.behind rest := by
    apply behindComment_below large
    cases full : overflows limit rest with
    | none => rfl
    | some later => exact absurd ⟨rest, skips, opens, full⟩ (never later)
  rw [Comments.remains_iff (skips_within large skips)]
  cases opens : begins rest with
  | false =>
      rw [if_neg fun both => Bool.false_ne_true (opens.symm.trans both.1)]
      exact Comments.remains_text visible opens
  | true =>
      rw [if_pos ⟨opens, complete opens⟩]
      exact Comments.remains_nothing opens ((behind opens).trans (complete opens))

/-- A counter that wraps around at the limit makes no difference exactly when
nothing more remains behind the place where it does. -/
theorem remains_limit_iff {text result : List Char} (remains : nested.Remains text result) :
    (commentsWith (· % limit)).Remains text result ↔
      ∀ rest, Overflows limit text rest → (commentsWith (· % limit)).Remains rest result := by
  constructor
  · intro also rest full
    exact (Comments.remains_iff (full.skips large)).mp also
  · intro behind
    by_cases full : ∃ rest, Overflows limit text rest
    · obtain ⟨rest, full⟩ := full
      exact (Comments.remains_iff (full.skips large)).mpr (behind rest full)
    · exact remains_within large (fun rest reaches => full ⟨rest, reaches⟩) remains

end Limit

end OpenGauss.Lib.SqlComments
