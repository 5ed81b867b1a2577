import OpenGauss.Mcp.InteractiveProperties

/-! A script may be cut anywhere and resumed from the remainder, and nothing of
it is lost. -/

set_option autoImplicit false

namespace OpenGauss.Mcp.SqlTokenizer

open Driver Lib Lib.Text

/-! ### One turn -/

/-- A turn at the end of a statement. -/
def Cuts (mode : Mode) (c : Char) : Prop := mode = .top ∧ c = ';'

instance decidableCuts (mode : Mode) (c : Char) : Decidable (Cuts mode c) :=
  inferInstanceAs (Decidable (_ ∧ _))

theorem turn_cut (complete : List Text) (current rest : Text) :
    turn ⟨complete, current, .top⟩ ';' rest =
      (⟨complete ++ [trim current].filter (· ≠ []), [], .top⟩, rest) := by
  change (State.finishStatement _, rest) = _
  rw [State.finishStatement]
  by_cases empty : trim current = []
  · simp [empty]
  · simp [empty]

/-- The induction that the turns allow: what is left after one is shorter. -/
theorem loop_induction {motive : Text → Prop} (nil : motive [])
    (cons : ∀ c rest, (∀ later, later.length ≤ rest.length → motive later) → motive (c :: rest))
    (text : Text) : motive text := by
  have bounded : ∀ size text, text.length ≤ size → motive text := by
    intro size
    induction size with
    | zero =>
        intro text fits
        rw [List.length_eq_zero_iff.mp (Nat.le_zero.mp fits)]
        exact nil
    | succ size ih =>
        intro text fits
        cases text with
        | nil => exact nil
        | cons c rest =>
            apply cons
            intro later shorter
            exact ih later (Nat.le_trans shorter (Nat.le_of_succ_le_succ fits))
  exact bounded text.length text (Nat.le_refl _)

/-! ### The loop -/

def loop (state : State) (text : Text) : State := run text.length state text

theorem loop_nil (state : State) : loop state [] = state := rfl

theorem loop_cons (state : State) (c : Char) (rest : Text) :
    loop state (c :: rest) = loop (turn state c rest).1 (turn state c rest).2 :=
  run_fuel (turn_length state c rest) (turn state c rest).1

theorem Turns.loop {mode after : Mode} {c : Char} {rest chars later : Text}
    (turns : Turns mode c rest chars after later) (complete : List Text) (current : Text) :
    SqlTokenizer.loop ⟨complete, current, mode⟩ (c :: rest) =
      SqlTokenizer.loop ⟨complete, current ++ chars, after⟩ later := by
  rw [loop_cons, turns]

theorem loop_cut (complete : List Text) (current rest : Text) :
    loop ⟨complete, current, .top⟩ (';' :: rest) =
      loop ⟨complete ++ [trim current].filter (· ≠ []), [], .top⟩ rest := by
  rw [loop_cons, turn_cut]

/-! ### Turns that take characters -/

/-- The loop takes a whole text as it is, whatever comes behind. -/
def Pushes (mode : Mode) (text : Text) : Prop :=
  ∀ complete current, ∃ after, loop ⟨complete, current, mode⟩ text =
    ⟨complete, current ++ text, after⟩

theorem Turns.pushes {mode after : Mode} {c : Char} {rest : Text}
    (turns : Turns mode c rest [c] after rest) (behind : Pushes after rest) :
    Pushes mode (c :: rest) := by
  intro complete current
  obtain ⟨last, pushed⟩ := behind complete (current ++ [c])
  refine ⟨last, ?_⟩
  rw [turns.loop, pushed, List.append_assoc]
  rfl

theorem Pushes.nil (mode : Mode) : Pushes mode [] := by
  intro complete current
  exact ⟨mode, by rw [loop_nil, List.append_nil]⟩

/-- The tag of a dollar quote has no dollar sign. -/
def Tagged : Mode → Prop
  | .dollarQuote tag => '$' ∉ tag
  | _ => True

/-- A turn that takes characters as they are. It does not depend on what comes
behind its text, unless the loop goes on to the end of the text as it does in
this turn. -/
structure Takes (mode : Mode) (c : Char) (rest chars : Text) (after : Mode) (later : Text) :
    Prop where
  whole : c :: rest = c :: chars ++ later
  turns : Turns mode c rest (c :: chars) after later
  tagged : Tagged mode → Tagged after
  local_ : Tagged mode → Pushes mode (c :: rest) ∨
    ∀ behind, Turns mode c (rest ++ behind) (c :: chars) after (later ++ behind)

theorem Takes.length {mode after : Mode} {c : Char} {rest chars later : Text}
    (takes : Takes mode c rest chars after later) : later.length ≤ rest.length := by
  have tail : rest = chars ++ later := (List.cons.inj takes.whole).2
  rw [tail, List.length_append]
  exact Nat.le_add_left ..

/-- A turn that looks at one character behind its own. -/
theorem takes_one {mode after : Mode} {c : Char} {rest : Text}
    (turns : ∀ text, text.head? = rest.head? → Turns mode c text [c] after text)
    (tagged : Tagged mode → Tagged after) : Takes mode c rest [] after rest := by
  refine ⟨rfl, turns rest rfl, tagged, fun _ => ?_⟩
  cases rest with
  | nil => exact .inl ((turns [] rfl).pushes (.nil after))
  | cons next rest => exact .inr fun behind => turns (next :: rest ++ behind) rfl

/-- A turn that takes the character behind its own as well. -/
theorem takes_two {mode after : Mode} {c next : Char} {later : Text}
    (turns : ∀ text, Turns mode c (next :: text) [c, next] after text)
    (tagged : Tagged mode → Tagged after) : Takes mode c (next :: later) [next] after later :=
  ⟨rfl, turns later, tagged, fun _ => .inr fun behind => turns (later ++ behind)⟩

theorem quoteTurn_takes (quote : Char) (mode : Mode) (c : Char) (rest : Text)
    (quotes : ∀ state rest, state.mode = mode → turn state c rest = quoteTurn quote state c rest) :
    ∃ chars after later, Takes mode c rest chars after later := by
  have same (complete : List Text) (current text : Text) :=
    quotes ⟨complete, current, mode⟩ text rfl
  by_cases doubled : c = quote ∧ rest.head? = some quote
  · obtain ⟨rfl, follows⟩ := doubled
    obtain ⟨later, rfl⟩ := List.head?_eq_some_iff.mp follows
    refine ⟨[c], mode, later, takes_two ?_ id⟩
    intro text complete current
    rw [same, quoteTurn, if_pos ⟨rfl, rfl⟩]
    rfl
  · by_cases closes : c = quote
    · refine ⟨[], .top, rest, takes_one ?_ fun _ => trivial⟩
      intro text alike complete current
      rw [same, quoteTurn, alike, if_neg doubled, if_pos closes]
      rfl
    · refine ⟨[], mode, rest, takes_one ?_ id⟩
      intro text alike complete current
      rw [same, quoteTurn, alike, if_neg doubled, if_neg closes]
      rfl

theorem blockComment_takes (depth : Nat) (c : Char) (rest : Text) :
    ∃ chars after later, Takes (.blockComment depth) c rest chars after later := by
  have tagged (depth : Nat) : Tagged (blockDepth depth) := by
    rw [blockDepth]
    split <;> trivial
  by_cases opens : c = '/' ∧ rest.head? = some '*'
  · obtain ⟨rfl, follows⟩ := opens
    obtain ⟨later, rfl⟩ := List.head?_eq_some_iff.mp follows
    exact ⟨['*'], blockDepth (depth + 1), later, takes_two (fun _ _ _ => rfl) fun _ => tagged _⟩
  · by_cases closes : c = '*' ∧ rest.head? = some '/'
    · obtain ⟨rfl, follows⟩ := closes
      obtain ⟨later, rfl⟩ := List.head?_eq_some_iff.mp follows
      exact ⟨['/'], blockDepth (depth - 1), later, takes_two (fun _ _ _ => rfl) fun _ => tagged _⟩
    · refine ⟨[], .blockComment depth, rest, takes_one ?_ id⟩
      intro text alike complete current
      rw [turn]
      dsimp only
      rw [alike, if_neg opens, if_neg closes]
      rfl

theorem drop_tag (tag later : Text) : (tag ++ ['$'] ++ later).drop (tag.length + 1) = later :=
  List.drop_left' (List.length_append ..)

theorem dollarQuote_turns {tag : Text} {c : Char} {rest : Text}
    (inside : ¬(c = '$' ∧ (tag ++ ['$']).isPrefixOf rest)) :
    Turns (.dollarQuote tag) c rest [c] (.dollarQuote tag) rest := by
  intro complete current
  rw [turn]
  dsimp only
  rw [if_neg inside]
  rfl

theorem dollarQuote_pushes {tag text : Text} (inside : '$' ∉ text) :
    Pushes (.dollarQuote tag) text := by
  induction text with
  | nil => exact .nil _
  | cons c rest ih =>
      have first : c ≠ '$' := fun same => inside (same ▸ List.mem_cons_self)
      have others : '$' ∉ rest := fun member => inside (List.mem_cons_of_mem c member)
      exact (dollarQuote_turns fun both => first both.1).pushes (ih others)

theorem dollarQuote_takes (tag : Text) (c : Char) (rest : Text) :
    ∃ chars after later, Takes (.dollarQuote tag) c rest chars after later := by
  by_cases closes : c = '$' ∧ (tag ++ ['$']).isPrefixOf rest
  · obtain ⟨rfl, follows⟩ := closes
    obtain ⟨later, rfl⟩ := List.isPrefixOf_iff_prefix.mp follows
    have turns (text : Text) : Turns (.dollarQuote tag) '$' (tag ++ ['$'] ++ text)
        ('$' :: (tag ++ ['$'])) .top text := by
      intro complete current
      have found : (tag ++ ['$']).isPrefixOf (tag ++ ['$'] ++ text) = true :=
        List.isPrefixOf_iff_prefix.mpr (List.prefix_append ..)
      rw [turn]
      dsimp only
      rw [if_pos ⟨rfl, found⟩, drop_tag]
      rfl
    refine ⟨tag ++ ['$'], .top, later, rfl, turns later, fun _ => trivial, fun _ => .inr ?_⟩
    intro behind
    rw [List.append_assoc _ later behind]
    exact turns (later ++ behind)
  · have turns := dollarQuote_turns closes
    refine ⟨[], .dollarQuote tag, rest, rfl, turns, id, fun apart => ?_⟩
    by_cases inside : '$' ∈ rest
    · refine .inr fun behind => dollarQuote_turns ?_
      intro both
      obtain ⟨later, same⟩ := List.isPrefixOf_iff_prefix.mp both.2
      rw [List.append_assoc] at same
      rcases List.append_eq_append_iff.mp same with ⟨between, longer, last⟩ | ⟨between, shorter, -⟩
      · cases between with
        | nil =>
            rw [List.append_nil] at longer
            exact apart (longer ▸ inside)
        | cons char between =>
            obtain ⟨rfl, -⟩ := List.cons.inj last
            have found : tag ++ ['$'] <+: rest := ⟨between, by rw [longer, List.append_assoc]; rfl⟩
            exact closes ⟨both.1, List.isPrefixOf_iff_prefix.mpr found⟩
      · exact apart (shorter ▸ List.mem_append_left between inside)
    · exact .inl (turns.pushes (dollarQuote_pushes inside))

theorem quiet_of_isTagChar' {c : Char} (inside : isTagChar c = true) : Quiet c :=
  quiet_of (by decide) inside

/-- A text of the characters of a tag. -/
theorem tagChars_push {text : Text} (all : ∀ char ∈ text, isTagChar char = true) :
    Pushes .top text := by
  induction text with
  | nil => exact .nil _
  | cons c rest ih =>
      obtain ⟨first, others⟩ := List.forall_mem_cons.mp all
      exact ((quiet_of_isTagChar' first).pushes rest).pushes (ih others)

/-- Where a tag is not closed, more text closes it only if all of the text
belongs to it. -/
theorem openingTag_none {text : Text} (open_ : openingTag text = none)
    (outside : ∃ char ∈ text, isTagChar char = false) (behind : Text) :
    openingTag (text ++ behind) = none := by
  by_contra opens
  obtain ⟨tag, opens⟩ := Option.ne_none_iff_exists'.mp opens
  obtain ⟨after, same, all, first⟩ := openingTag_iff.mp opens
  obtain ⟨char, member, other⟩ := outside
  have apart (long : text <+: tag) : False := by
    rw [all char (long.subset member)] at other
    cases other
  rcases List.append_eq_append_iff.mp same with ⟨between, longer, last⟩ | ⟨between, shorter, last⟩
  · exact apart ⟨between, longer.symm⟩
  · cases between with
    | nil => exact apart ⟨[], by rw [List.append_nil, shorter, List.append_nil]⟩
    | cons dollar between =>
        obtain ⟨rfl, -⟩ := List.cons.inj last
        have found := openingTag_iff.mpr ⟨between, shorter, all, first⟩
        rw [open_] at found
        cases found

theorem openingTag_takes {tag rest : Text} (opens : openingTag rest = some tag) :
    ∃ chars after later, Takes .top '$' rest chars after later := by
  obtain ⟨later, rfl, all, first⟩ := openingTag_iff.mp opens
  have tagged : '$' ∉ tag := fun member => absurd (all '$' member) (by decide)
  have turns (text : Text) : Turns .top '$' (tag ++ ['$'] ++ text) ('$' :: (tag ++ ['$']))
      (.dollarQuote tag) text := by
    intro complete current
    have found : openingTag (tag ++ ['$'] ++ text) = some tag :=
      openingTag_iff.mpr ⟨text, List.append_assoc .., all, first⟩
    change topTurn _ '$' _ = _
    rw [topTurn, if_neg (by decide), if_neg (by decide), if_pos rfl, found]
    dsimp only
    rw [drop_tag]
    rfl
  have whole : tag ++ '$' :: later = tag ++ ['$'] ++ later := List.append_cons ..
  rw [whole]
  refine ⟨tag ++ ['$'], .dollarQuote tag, later, rfl, turns later, fun _ => tagged, fun _ => .inr ?_⟩
  intro behind
  rw [List.append_assoc _ later behind]
  exact turns (later ++ behind)

theorem dollar_takes {rest : Text} (quiet : openingTag rest = none) :
    ∃ chars after later, Takes .top '$' rest chars after later := by
  have turns {text : Text} (quiet : openingTag text = none) : Turns .top '$' text ['$'] .top text :=
    pushes (by decide) ⟨fun both => absurd both.1 (by decide), fun both => absurd both.1 (by decide)⟩
      fun _ => quiet
  refine ⟨[], .top, rest, rfl, turns quiet, id, fun _ => ?_⟩
  by_cases outside : ∃ char ∈ rest, isTagChar char = false
  · exact .inr fun behind => turns (openingTag_none quiet outside behind)
  · refine .inl ((turns quiet).pushes (tagChars_push ?_))
    intro char member
    by_contra other
    exact outside ⟨char, member, Bool.eq_false_iff.mpr other⟩

theorem top_takes {c : Char} (inside : ¬Cuts .top c) (rest : Text) :
    ∃ chars after later, Takes .top c rest chars after later := by
  by_cases quote : c = '\''
  · obtain rfl := quote
    exact ⟨[], .singleQuote, rest, takes_one (fun _ _ _ _ => rfl) fun _ => trivial⟩
  by_cases double : c = '"'
  · obtain rfl := double
    exact ⟨[], .doubleQuote, rest, takes_one (fun _ _ _ _ => rfl) fun _ => trivial⟩
  by_cases dollar : c = '$'
  · obtain rfl := dollar
    cases opens : openingTag rest with
    | some tag => exact openingTag_takes opens
    | none => exact dollar_takes opens
  by_cases line : c = '-' ∧ rest.head? = some '-'
  · obtain ⟨rfl, follows⟩ := line
    obtain ⟨later, rfl⟩ := List.head?_eq_some_iff.mp follows
    exact ⟨['-'], .lineComment, later, takes_two (fun _ _ _ => rfl) fun _ => trivial⟩
  by_cases block : c = '/' ∧ rest.head? = some '*'
  · obtain ⟨rfl, follows⟩ := block
    obtain ⟨later, rfl⟩ := List.head?_eq_some_iff.mp follows
    exact ⟨['*'], .blockComment 1, later, takes_two (fun _ _ _ => rfl) fun _ => trivial⟩
  have common : c ≠ '\'' ∧ c ≠ '"' ∧ c ≠ ';' := ⟨quote, double, fun same => inside ⟨rfl, same⟩⟩
  refine ⟨[], .top, rest, takes_one ?_ id⟩
  intro text alike
  exact pushes common (by rw [alike]; exact ⟨line, block⟩) fun same => absurd same dollar

/-- A turn that does not end a statement. -/
theorem turn_takes {mode : Mode} {c : Char} (inside : ¬Cuts mode c) (rest : Text) :
    ∃ chars after later, Takes mode c rest chars after later := by
  cases mode with
  | lineComment =>
      refine ⟨[], _, rest, takes_one (fun _ _ _ _ => rfl) fun _ => ?_⟩
      split <;> trivial
  | singleQuote => exact quoteTurn_takes '\'' _ c rest fun state rest same => by rw [turn, same]
  | doubleQuote => exact quoteTurn_takes '"' _ c rest fun state rest same => by rw [turn, same]
  | blockComment depth => exact blockComment_takes depth c rest
  | dollarQuote tag => exact dollarQuote_takes tag c rest
  | top => exact top_takes inside rest

/-! ### Statements and blanks before -/

/-- The statements before change nothing. -/
theorem loop_complete (done complete : List Text) (current : Text) (mode : Mode) (text : Text) :
    loop ⟨done ++ complete, current, mode⟩ text =
      { loop ⟨complete, current, mode⟩ text with
        complete := done ++ (loop ⟨complete, current, mode⟩ text).complete } := by
  induction text using loop_induction generalizing complete current mode with
  | nil => rfl
  | cons c rest ih =>
      by_cases cuts : Cuts mode c
      · obtain ⟨rfl, rfl⟩ := cuts
        rw [loop_cut, loop_cut, List.append_assoc]
        exact ih rest (Nat.le_refl _) _ _ _
      · obtain ⟨chars, after, later, takes⟩ := turn_takes cuts rest
        rw [takes.turns.loop, takes.turns.loop]
        exact ih later takes.length _ _ _

/-- Blanks before a statement change nothing. -/
theorem finish_blanks {blanks : Text} (blank : ∀ char ∈ blanks, isWhitespace char = true)
    (complete : List Text) (current : Text) (mode : Mode) (text : Text) :
    finish ⟨complete, blanks ++ current, mode⟩ text = finish ⟨complete, current, mode⟩ text := by
  induction text using loop_induction generalizing complete current mode with
  | nil =>
      rw [finish_nil, finish_nil, trimStart_blanks blank]
  | cons c rest ih =>
      by_cases cuts : Cuts mode c
      · obtain ⟨rfl, rfl⟩ := cuts
        rw [finish_semicolon, finish_semicolon, trim_blanks blank]
      · obtain ⟨chars, after, later, takes⟩ := turn_takes cuts rest
        rw [finish_cons, finish_cons, takes.turns, takes.turns, List.append_assoc]
        exact ih later takes.length _ _ _

theorem quiet_of_isWhitespace {c : Char} (blank : isWhitespace c = true) : Quiet c :=
  quiet_of (by decide) blank

/-- Blanks before a text change nothing. -/
theorem finish_trimStart (complete : List Text) (text after : Text) :
    finish ⟨complete, [], .top⟩ (text ++ after) =
      finish ⟨complete, [], .top⟩ (trimStart text ++ after) := by
  obtain ⟨blanks, whole, blank⟩ := trimStart_split text
  have skipped : ∀ front : Text, (∀ char ∈ front, isWhitespace char = true) → ∀ current rest,
      finish ⟨complete, current, .top⟩ (front ++ rest) =
        finish ⟨complete, current ++ front, .top⟩ rest := by
    intro front
    induction front with
    | nil =>
        intro _ current rest
        rw [List.nil_append, List.append_nil]
    | cons c front ih =>
        intro all current rest
        obtain ⟨first, others⟩ := List.forall_mem_cons.mp all
        rw [List.cons_append, finish_cons, (quiet_of_isWhitespace first).pushes, ih others,
          List.append_assoc]
        rfl
  have split : text ++ after = blanks ++ (trimStart text ++ after) := by
    rw [← List.append_assoc, ← whole]
  have moved := finish_blanks blank complete [] .top (trimStart text ++ after)
  rw [split, skipped blanks blank, List.nil_append]
  rw [List.append_nil] at moved
  exact moved

/-! ### Resuming -/

/-- What the loop has read since the last statement is all that the text behind
has to do with. -/
def Resumes (state : State) (text : Text) : Prop :=
  ∀ behind, loop state (text ++ behind) =
    loop ⟨(loop state text).complete, [], .top⟩ ((loop state text).current ++ behind)

/-- Either the loop can be resumed, or it has taken the text as it is. -/
theorem loop_resumes {complete : List Text} {current : Text} {mode : Mode} (tagged : Tagged mode)
    (text : Text) :
    Resumes ⟨complete, current, mode⟩ text ∨
      ∃ after, loop ⟨complete, current, mode⟩ text = ⟨complete, current ++ text, after⟩ := by
  induction text using loop_induction generalizing complete current mode with
  | nil => exact .inr ⟨mode, by rw [loop_nil, List.append_nil]⟩
  | cons c rest ih =>
      by_cases cuts : Cuts mode c
      · obtain ⟨rfl, rfl⟩ := cuts
        refine .inl fun behind => ?_
        rw [List.cons_append, loop_cut, loop_cut]
        rcases @ih rest (Nat.le_refl _) (complete ++ [trim current].filter (· ≠ [])) [] .top trivial
          with resumes | ⟨after, taken⟩
        · exact resumes behind
        · rw [taken, List.nil_append]
      · obtain ⟨chars, after, later, takes⟩ := turn_takes cuts rest
        rcases takes.local_ tagged with pushes | stable
        · exact .inr (pushes complete current)
        · rcases @ih later takes.length complete (current ++ c :: chars) after (takes.tagged tagged)
            with resumes | ⟨last, taken⟩
          · refine .inl fun behind => ?_
            rw [List.cons_append, (stable behind).loop, takes.turns.loop]
            exact resumes behind
          · refine .inr ⟨last, ?_⟩
            rw [takes.turns.loop, taken, takes.whole, List.append_assoc]

theorem splitStatements_resumes (text : Text) : Resumes {} text := by
  rcases @loop_resumes [] [] .top trivial text with resumes | ⟨after, taken⟩
  · exact resumes
  · intro behind
    have taken : loop {} text = ⟨[], text, after⟩ := taken
    rw [taken]

theorem splitStatements_append (text behind : Text) :
    splitStatements (text ++ behind) =
      { complete := (splitStatements text).complete ++
          (splitStatements ((splitStatements text).remainder ++ behind)).complete
        remainder := (splitStatements ((splitStatements text).remainder ++ behind)).remainder } := by
  have resumed : splitStatements (text ++ behind) =
      finish ⟨(loop {} text).complete ++ [], [], .top⟩ ((loop {} text).current ++ behind) := by
    have same := splitStatements_resumes text behind
    rw [List.append_nil]
    exact congrArg (fun final => SplitResult.mk final.complete (trimStart final.current)) same
  have framed := loop_complete (loop {} text).complete [] [] .top
    (trimStart (loop {} text).current ++ behind)
  rw [resumed, finish_trimStart]
  exact congrArg (fun final => SplitResult.mk final.complete (trimStart final.current)) framed

/-! ### Nothing is lost -/

/-- What the turns of the loop take of a text, with the modes they find. -/
def turnsFrom : Nat → State → Text → List (Mode × Text)
  | 0, _, _ | _, _, [] => []
  | fuel + 1, state, c :: rest =>
      let (next, later) := turn state c rest
      (state.mode, (c :: rest).take ((c :: rest).length - later.length)) :: turnsFrom fuel next later

def turns (input : Text) : List (Mode × Text) := turnsFrom input.length {} input

/-- A semicolon outside of any quote and comment. -/
def isTopSemicolon (turn : Mode × Text) : Bool := turn = (.top, [';'])

/-- What turns take, without the semicolons outside of quotes and comments. -/
def kept (turns : List (Mode × Text)) : Text :=
  (turns.filter fun turn => !isTopSemicolon turn).flatMap Prod.snd

theorem kept_cut (turns : List (Mode × Text)) : kept ((.top, [';']) :: turns) = kept turns := rfl

theorem kept_cons {mode : Mode} {c : Char} (inside : ¬Cuts mode c) (chars : Text)
    (turns : List (Mode × Text)) :
    kept ((mode, c :: chars) :: turns) = c :: chars ++ kept turns := by
  have other : (!isTopSemicolon (mode, c :: chars)) = true := by
    rw [Bool.not_eq_true', isTopSemicolon, decide_eq_false_iff_not]
    intro same
    obtain ⟨top, cut⟩ := Prod.mk.inj same
    exact inside ⟨top, (List.cons.inj cut).1⟩
  have filtered : ((mode, c :: chars) :: turns).filter (fun turn => !isTopSemicolon turn) =
      (mode, c :: chars) :: turns.filter (fun turn => !isTopSemicolon turn) :=
    List.filter_cons_of_pos other
  rw [kept, filtered, List.flatMap_cons]
  rfl

theorem turnsFrom_nil (fuel : Nat) (state : State) : turnsFrom fuel state [] = [] := by
  cases fuel with
  | _ => rfl

theorem take_front (front later : Text) :
    (front ++ later).take ((front ++ later).length - later.length) = front := by
  rw [List.length_append, Nat.add_sub_cancel, List.take_left]

theorem turnsFrom_cut (fuel : Nat) (complete : List Text) (current rest : Text) :
    turnsFrom (fuel + 1) ⟨complete, current, .top⟩ (';' :: rest) =
      (.top, [';']) ::
        turnsFrom fuel ⟨complete ++ [trim current].filter (· ≠ []), [], .top⟩ rest := by
  rw [turnsFrom, turn_cut]
  exact congrArg (fun taken => (Mode.top, taken) :: _) (take_front [';'] rest)

theorem Takes.turnsFrom {mode after : Mode} {c : Char} {rest chars later : Text}
    (takes : Takes mode c rest chars after later) (fuel : Nat) (complete : List Text)
    (current : Text) :
    SqlTokenizer.turnsFrom (fuel + 1) ⟨complete, current, mode⟩ (c :: rest) =
      (mode, c :: chars) ::
        SqlTokenizer.turnsFrom fuel ⟨complete, current ++ c :: chars, after⟩ later := by
  rw [SqlTokenizer.turnsFrom, takes.turns, takes.whole]
  exact congrArg (fun taken => (mode, taken) :: _) (take_front (c :: chars) later)

/-- The turns take the text, character by character. -/
theorem turnsFrom_join {fuel : Nat} {text : Text} (enough : text.length ≤ fuel)
    (complete : List Text) (current : Text) (mode : Mode) :
    (turnsFrom fuel ⟨complete, current, mode⟩ text).flatMap Prod.snd = text := by
  induction fuel generalizing text complete current mode with
  | zero =>
      rw [List.length_eq_zero_iff.mp (Nat.le_zero.mp enough)]
      rfl
  | succ fuel ih =>
      cases text with
      | nil => rw [turnsFrom_nil, List.flatMap_nil]
      | cons c rest =>
          have inner : rest.length ≤ fuel := Nat.le_of_succ_le_succ enough
          by_cases cuts : Cuts mode c
          · obtain ⟨rfl, rfl⟩ := cuts
            rw [turnsFrom_cut, List.flatMap_cons, ih inner]
            rfl
          · obtain ⟨chars, after, later, takes⟩ := turn_takes cuts rest
            rw [takes.turnsFrom, List.flatMap_cons, ih (Nat.le_trans takes.length inner),
              takes.whole]

theorem trim_split (text : Text) :
    ∃ front back, text = front ++ trim text ++ back ∧
      (∀ char ∈ front, isWhitespace char = true) ∧ ∀ char ∈ back, isWhitespace char = true := by
  obtain ⟨front, started, blank⟩ := trimStart_split text
  obtain ⟨back, ended, others⟩ := trimEnd_split (trimStart text)
  refine ⟨front, back, ?_, blank, others⟩
  rw [trim, List.append_assoc, ← ended, ← started]

/-- The statement that ends at a semicolon, before others. -/
theorem spaced_finish {pieces : List Text} {text : Text} (spaced : Spaced pieces text)
    (current : Text) : Spaced ([trim current].filter (· ≠ []) ++ pieces) (current ++ text) := by
  obtain ⟨front, back, whole, blank, others⟩ := trim_split current
  have behind := spaced.blanks others
  by_cases empty : trim current = []
  · have removed : [trim current].filter (· ≠ []) = [] := by simp [empty]
    rw [empty, List.append_nil] at whole
    rw [removed, List.nil_append, whole, List.append_assoc]
    exact behind.blanks blank
  · have filtered : [trim current].filter (· ≠ []) = [trim current] := by simp [empty]
    have split : current ++ text = front ++ trim current ++ (back ++ text) := by
      rw [← List.append_assoc, ← whole]
    rw [filtered, split]
    exact .cons blank behind

theorem run_spaced_nil (fuel : Nat) (complete : List Text) (current : Text) (mode : Mode) :
    ∃ added, (run fuel ⟨complete, current, mode⟩ []).complete = complete ++ added ∧
      Spaced (added ++ [trimStart (run fuel ⟨complete, current, mode⟩ []).current])
        (current ++ kept (turnsFrom fuel ⟨complete, current, mode⟩ [])) := by
  obtain ⟨front, whole, blank⟩ := trimStart_split current
  refine ⟨[], by rw [run_nil, List.append_nil], ?_⟩
  have one : Spaced [trimStart current] (front ++ trimStart current ++ []) :=
    .cons blank (.nil fun _ member => absurd member List.not_mem_nil)
  rw [← whole] at one
  rw [run_nil, turnsFrom_nil]
  exact one

theorem run_spaced {fuel : Nat} {text : Text} (enough : text.length ≤ fuel)
    (complete : List Text) (current : Text) (mode : Mode) :
    ∃ added, (run fuel ⟨complete, current, mode⟩ text).complete = complete ++ added ∧
      Spaced (added ++ [trimStart (run fuel ⟨complete, current, mode⟩ text).current])
        (current ++ kept (turnsFrom fuel ⟨complete, current, mode⟩ text)) := by
  induction fuel generalizing text complete current mode with
  | zero =>
      rw [List.length_eq_zero_iff.mp (Nat.le_zero.mp enough)]
      exact run_spaced_nil _ complete current mode
  | succ fuel ih =>
      cases text with
      | nil => exact run_spaced_nil _ complete current mode
      | cons c rest =>
          have inner : rest.length ≤ fuel := Nat.le_of_succ_le_succ enough
          by_cases cuts : Cuts mode c
          · obtain ⟨rfl, rfl⟩ := cuts
            obtain ⟨added, completed, spaced⟩ :=
              ih inner (complete ++ [trim current].filter (· ≠ [])) [] .top
            have step : run (fuel + 1) ⟨complete, current, .top⟩ (';' :: rest) =
                run fuel ⟨complete ++ [trim current].filter (· ≠ []), [], .top⟩ rest := by
              rw [run, turn_cut]
            refine ⟨[trim current].filter (· ≠ []) ++ added, ?_, ?_⟩
            · rw [step, completed, List.append_assoc]
            · rw [step, turnsFrom_cut, kept_cut, List.append_assoc]
              rw [List.nil_append] at spaced
              exact spaced_finish spaced current
          · obtain ⟨chars, after, later, takes⟩ := turn_takes cuts rest
            obtain ⟨added, completed, spaced⟩ :=
              ih (Nat.le_trans takes.length inner) complete (current ++ c :: chars) after
            have step : run (fuel + 1) ⟨complete, current, mode⟩ (c :: rest) =
                run fuel ⟨complete, current ++ c :: chars, after⟩ later := by
              rw [run, takes.turns]
            refine ⟨added, ?_, ?_⟩
            · rw [step, completed]
            · rw [step, takes.turnsFrom, kept_cons cuts, ← List.append_assoc]
              exact spaced

/-- A text without its semicolons outside of quotes and comments. -/
def withoutSemicolons (input : Text) : Text := kept (turns input)

/-- A script may be cut anywhere and resumed from the remainder; and apart from
the blanks around the statements, what is cut out of it is its semicolons
outside of quotes and comments. -/
theorem splitStatements_incremental :
    (∀ text behind, splitStatements (text ++ behind) =
      { complete := (splitStatements text).complete ++
          (splitStatements ((splitStatements text).remainder ++ behind)).complete
        remainder := (splitStatements ((splitStatements text).remainder ++ behind)).remainder }) ∧
      ∀ input, (turns input).flatMap Prod.snd = input ∧
        Spaced ((splitStatements input).complete ++ [(splitStatements input).remainder])
          (withoutSemicolons input) := by
  refine ⟨splitStatements_append, fun input => ⟨?_, ?_⟩⟩
  · exact turnsFrom_join (Nat.le_refl _) [] [] .top
  · obtain ⟨added, completed, spaced⟩ := run_spaced (Nat.le_refl input.length) [] [] .top
    rw [List.nil_append] at completed
    rw [← completed] at spaced
    exact spaced

end OpenGauss.Mcp.SqlTokenizer
