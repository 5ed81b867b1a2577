import OpenGauss.Driver.Config

/-! The parameters a key-value string consists of, and when a value that is
written without quotes is read as it stands. -/

set_option autoImplicit false

namespace OpenGauss.Driver

open Lib Lib.Text

/-! ### Single parameters -/

namespace Config

/-- What `addHost` makes of a host. -/
def hostOf (host : Text) : Host :=
  if host.head? = some '/' then .unix (Utf8.encode host) else .tcp host

theorem param_host (config : Config) (value : Text) :
    config.param "host".toList value =
      .ok { config with host := config.host ++ (value.splitOn ',').map hostOf } := by
  have added (hosts : List Text) (config : Config) : hosts.foldl addHost config =
      { config with host := config.host ++ hosts.map hostOf } := by
    induction hosts generalizing config with
    | nil => simp
    | cons host hosts ih =>
        rw [List.foldl_cons, ih, List.map_cons, addHost, hostOf]
        split <;> simp
  exact congrArg Except.ok (added (value.splitOn ',') config)

theorem param_port (config : Config) {number : Nat} (below : number < 2 ^ 16) :
    config.param "port".toList (Nat.toDigits 10 number) =
      .ok { config with port := config.port ++ [number] } := by
  have digits : ∀ char ∈ Nat.toDigits 10 number, char.isDigit = true :=
    fun char member => Nat.isDigit_of_mem_toDigits (by decide) (by decide) member
  have noComma : ',' ∉ Nat.toDigits 10 number := fun member => absurd (digits ',' member) (by decide)
  have single := List.splitOn_eq_singleton noComma
  change ((Nat.toDigits 10 number).splitOn ',').foldlM addPort config = _
  rw [single, List.foldlM_cons, addPort, if_neg Nat.toDigits_ne_nil,
    Numeral.parseUnsigned_toDigits below]
  rfl

theorem param_user (config : Config) (value : Text) :
    config.param "user".toList value = .ok { config with user := some value } := rfl

theorem param_password (config : Config) (value : Text) :
    config.param "password".toList value =
      .ok { config with password := some (Utf8.encode value) } := rfl

theorem param_dbname (config : Config) (value : Text) :
    config.param "dbname".toList value = .ok { config with dbname := some value } := rfl

theorem param_sslmode (config : Config) (value : Text) :
    config.param "sslmode".toList value =
      (word "sslmode" sslModeWords value).map fun sslMode => { config with sslMode } := by
  change (word "sslmode" sslModeWords value).bind _ = _
  cases word "sslmode" sslModeWords value <;> rfl

end Config

/-! ### Parsing is reading the parameters and applying them -/

namespace Parser

/-- The parameters that the loop of `parse` takes. -/
def parametersFrom (s : Text) : Nat → Text → Except Error (List (Text × Text))
  | 0, _ => .ok []
  | fuel + 1, rest =>
      match parameter s rest with
      | .error error => .error error
      | .ok none => .ok []
      | .ok (some (pair, rest)) => (parametersFrom s fuel rest).map (pair :: ·)

def parameters (s : Text) : Except Error (List (Text × Text)) :=
  parametersFrom s (s.length + 1) s

def applyAll (config : Config) (pairs : List (Text × Text)) : Except Error Config :=
  pairs.foldlM (fun config pair => config.param pair.1 pair.2) config

theorem applyAll_cons (config : Config) (pair : Text × Text) (pairs : List (Text × Text)) :
    applyAll config (pair :: pairs) =
      (config.param pair.1 pair.2).bind fun config => applyAll config pairs := rfl

theorem applyAll_append (config : Config) (first second : List (Text × Text)) :
    applyAll config (first ++ second) =
      (applyAll config first).bind fun config => applyAll config second :=
  List.foldlM_append ..

theorem applyAll_singleton (config : Config) (key value : Text) :
    applyAll config [(key, value)] = config.param key value := by
  rw [applyAll_cons]
  cases config.param key value <;> rfl

theorem parseFrom_of_parameters {s : Text} {fuel : Nat} {rest : Text} {config : Config}
    {pairs : List (Text × Text)} (read : parametersFrom s fuel rest = .ok pairs) :
    parseFrom s fuel rest config = applyAll config pairs := by
  induction fuel generalizing rest config pairs with
  | zero =>
      obtain rfl := Except.ok.inj read
      rfl
  | succ fuel ih =>
      rw [parametersFrom] at read
      rw [parseFrom]
      match taken : parameter s rest with
      | .error error => simp [taken] at read
      | .ok none =>
          rw [taken] at read
          obtain rfl := Except.ok.inj read
          rfl
      | .ok (some ((key, value), rest)) =>
          rw [taken] at read
          cases later : parametersFrom s fuel rest with
          | error error => simp [later, Except.map] at read
          | ok pairs =>
              simp only [later, Except.map, Except.ok.injEq] at read
              subst read
              dsimp only
              rw [applyAll_cons]
              cases config.param key value with
              | error error => rfl
              | ok config => exact ih later

theorem parse_of_parameters {s : Text} {pairs : List (Text × Text)}
    (read : parameters s = .ok pairs) : parse s = applyAll .new pairs :=
  parseFrom_of_parameters read

/-! ### Values without quotes -/

/-- A value that stands for itself when it is written without quotes. -/
structure PlainValue (value : Text) : Prop where
  nonempty : value ≠ []
  unquoted : value.head? ≠ some '\''
  plain : ∀ char ∈ value, isWhitespace char = false ∧ char ≠ '\\'

instance (value : Text) : Decidable (PlainValue value) :=
  decidable_of_iff (value ≠ [] ∧ value.head? ≠ some '\'' ∧
      ∀ char ∈ value, isWhitespace char = false ∧ char ≠ '\\')
    ⟨fun plain => ⟨plain.1, plain.2.1, plain.2.2⟩, fun plain => ⟨plain.1, plain.2, plain.3⟩⟩

/-- What may follow a value: nothing, or a blank. -/
def EndsValue (rest : Text) : Prop := ∀ char ∈ rest.head?, isWhitespace char = true

theorem simpleChars_cons (char : Char) (rest : Text) :
    simpleChars (char :: rest) =
      if isWhitespace char then ([], char :: rest)
      else if char = '\\' then
        match rest with
        | [] => ([], [])
        | escaped :: rest => (escaped :: (simpleChars rest).1, (simpleChars rest).2)
      else (char :: (simpleChars rest).1, (simpleChars rest).2) := by
  cases rest <;> rfl

theorem simpleChars_blank {char : Char} (rest : Text) (blank : isWhitespace char = true) :
    simpleChars (char :: rest) = ([], char :: rest) := by
  rw [simpleChars_cons, if_pos blank]

theorem simpleChars_char {char : Char} (rest : Text) (visible : isWhitespace char = false)
    (literal : char ≠ '\\') :
    simpleChars (char :: rest) = (char :: (simpleChars rest).1, (simpleChars rest).2) := by
  rw [simpleChars_cons, if_neg (Bool.eq_false_iff.mp visible), if_neg literal]

theorem simpleChars_escape (escaped : Char) (rest : Text) :
    simpleChars ('\\' :: escaped :: rest) =
      (escaped :: (simpleChars rest).1, (simpleChars rest).2) := by
  rw [simpleChars_cons, if_neg (by decide), if_pos rfl]

theorem simpleChars_plain {value rest : Text}
    (plain : ∀ char ∈ value, isWhitespace char = false ∧ char ≠ '\\') (ends : EndsValue rest) :
    simpleChars (value ++ rest) = (value, rest) := by
  induction value with
  | nil =>
      cases rest with
      | nil => rfl
      | cons char rest => exact simpleChars_blank rest (ends char rfl)
  | cons char value ih =>
      obtain ⟨visible, literal⟩ := plain char (List.mem_cons_self ..)
      have later := ih fun other member => plain other (List.mem_cons_of_mem _ member)
      rw [List.cons_append, simpleChars_char _ visible literal, later]

theorem skipWs_plain {value : Text} (plain : PlainValue value) (rest : Text) :
    skipWs (value ++ rest) = value ++ rest := by
  cases value with
  | nil => exact absurd rfl plain.nonempty
  | cons char value =>
      have visible := (plain.plain char (List.mem_cons_self ..)).1
      rw [skipWs, List.cons_append, List.dropWhile_cons_of_neg (Bool.eq_false_iff.mp visible)]

theorem value_simple (s : Text) {rest : Text} (unquoted : rest.head? ≠ some '\'') :
    Parser.value s rest = simpleValue rest := by
  unfold Parser.value
  split
  · exact absurd rfl unquoted
  · rfl

theorem value_plain {value rest : Text} (plain : PlainValue value) (ends : EndsValue rest)
    (s : Text) : Parser.value s (skipWs (value ++ rest)) = .ok (value, rest) := by
  have unquoted : (value ++ rest).head? ≠ some '\'' := by
    cases value with
    | nil => exact absurd rfl plain.nonempty
    | cons char value => exact plain.unquoted
  rw [skipWs_plain plain, value_simple s unquoted, simpleValue, simpleChars_plain plain.plain ends]
  cases value with
  | nil => exact absurd rfl plain.nonempty
  | cons char value => rfl

/-! ### What is read out of what is written -/

/-- A text without its backslashes. -/
def letters (text : Text) : Text := text.filter (· != '\\')

theorem letters_cons (char : Char) (text : Text) :
    letters (char :: text) = if char = '\\' then letters text else char :: letters text := by
  by_cases slash : char = '\\' <;> simp [letters, slash]

theorem letters_append (first second : Text) :
    letters (first ++ second) = letters first ++ letters second := List.filter_append ..

theorem letters_plain {text : Text} (plain : ∀ char ∈ text, char ≠ '\\') : letters text = text :=
  List.filter_eq_self.mpr fun char member => bne_iff_ne.mpr (plain char member)

/-- A value against the characters it is written with: the same ones up to
backslashes, and the same text if it is as long. -/
structure Reads (stops : Char → Bool) (raw value : Text) : Prop where
  letters_eq : letters value = letters raw
  length_le : value.length ≤ raw.length
  exact : raw.length ≤ value.length →
    value = raw ∧ ∀ char ∈ raw, stops char = false ∧ char ≠ '\\'

namespace Reads

variable {stops : Char → Bool} {raw value : Text}

theorem nil (stops : Char → Bool) : Reads stops [] [] :=
  ⟨rfl, Nat.le_refl _, fun _ => ⟨rfl, fun _ member => by cases member⟩⟩

theorem lone (stops : Char → Bool) : Reads stops ['\\'] [] :=
  ⟨by decide, by decide, fun short => by cases short⟩

theorem escape (reads : Reads stops raw value) (escaped : Char) :
    Reads stops ('\\' :: escaped :: raw) (escaped :: value) where
  letters_eq := by
    rw [letters_cons '\\', if_pos rfl, letters_cons, letters_cons, reads.letters_eq]
  length_le := by
    have := reads.length_le
    simp only [List.length_cons]
    omega
  exact short := by
    have := reads.length_le
    simp only [List.length_cons] at short
    omega

theorem char (reads : Reads stops raw value) {char : Char} (goes : stops char = false)
    (literal : char ≠ '\\') : Reads stops (char :: raw) (char :: value) where
  letters_eq := by rw [letters_cons, letters_cons, reads.letters_eq]
  length_le := Nat.succ_le_succ reads.length_le
  exact short := by
    obtain ⟨same, plain⟩ := reads.exact (Nat.le_of_succ_le_succ short)
    exact ⟨congrArg _ same, List.forall_mem_cons.mpr ⟨⟨goes, literal⟩, plain⟩⟩

end Reads

theorem simpleChars_reads (rest : Text) :
    ∃ raw, rest = raw ++ (simpleChars rest).2 ∧ Reads isWhitespace raw (simpleChars rest).1 := by
  induction rest using simpleChars.induct with
  | case1 => exact ⟨[], rfl, .nil _⟩
  | case2 char rest blank =>
      rw [simpleChars_blank rest blank]
      exact ⟨[], rfl, .nil _⟩
  | case3 => exact ⟨['\\'], by decide, .lone _⟩
  | case4 escaped rest _ ih =>
      obtain ⟨raw, split, reads⟩ := ih
      rw [simpleChars_escape]
      exact ⟨'\\' :: escaped :: raw, by rw [List.cons_append, List.cons_append, ← split],
        reads.escape escaped⟩
  | case5 char rest visible literal ih =>
      obtain ⟨raw, split, reads⟩ := ih
      have visible := Bool.eq_false_iff.mpr visible
      rw [simpleChars_char rest visible literal]
      exact ⟨char :: raw, by rw [List.cons_append, ← split], reads.char visible literal⟩

theorem quotedChars_quote (rest : Text) : quotedChars ('\'' :: rest) = some ([], '\'' :: rest) := by
  rw [quotedChars.eq_def]
  exact if_pos rfl

theorem quotedChars_char {char : Char} (rest : Text) (goes : char ≠ '\'') (literal : char ≠ '\\') :
    quotedChars (char :: rest) =
      (quotedChars rest).map fun read => (char :: read.1, read.2) := by
  rw [quotedChars.eq_def]
  simp [goes, literal]

theorem quotedChars_escape (escaped : Char) (rest : Text) :
    quotedChars ('\\' :: escaped :: rest) =
      (quotedChars rest).map fun read => (escaped :: read.1, read.2) := by
  rw [quotedChars.eq_def]
  simp

theorem quotedChars_reads {rest value after : Text} (read : quotedChars rest = some (value, after)) :
    ∃ raw, rest = raw ++ after ∧ Reads (· == '\'') raw value := by
  induction rest using quotedChars.induct generalizing value with
  | case1 => cases read
  | case2 rest =>
      rw [quotedChars_quote, Option.some.injEq, Prod.mk.injEq] at read
      obtain ⟨rfl, rfl⟩ := read
      exact ⟨[], rfl, .nil _⟩
  | case3 =>
      rw [quotedChars.eq_def] at read
      simp at read
  | case4 escaped rest _ ih =>
      rw [quotedChars_escape, Option.map_eq_some_iff] at read
      obtain ⟨⟨value, after⟩, later, same⟩ := read
      obtain ⟨rfl, rfl⟩ := Prod.mk.inj same
      obtain ⟨raw, split, reads⟩ := ih later
      exact ⟨'\\' :: escaped :: raw, by rw [List.cons_append, List.cons_append, ← split],
        reads.escape escaped⟩
  | case5 char rest goes literal ih =>
      rw [quotedChars_char rest goes literal, Option.map_eq_some_iff] at read
      obtain ⟨⟨value, after⟩, later, same⟩ := read
      obtain ⟨rfl, rfl⟩ := Prod.mk.inj same
      obtain ⟨raw, split, reads⟩ := ih later
      exact ⟨char :: raw, by rw [List.cons_append, ← split],
        reads.char (beq_eq_false_iff_ne.mpr goes) literal⟩

/-! ### A value that is read back is plain -/

/-- A character that no blank, quote or backslash can pass for. -/
def ordinary (char : Char) : Bool := !isWhitespace char && char != '\\' && char != '\''

/-- What follows a value among parameters with single blanks between them. -/
def Follows (rest : Text) : Prop :=
  rest = [] ∨ ∃ char more, rest = ' ' :: char :: more ∧ ordinary char = true

theorem Follows.endsValue {rest : Text} (follows : Follows rest) : EndsValue rest := by
  obtain rfl | ⟨char, more, rfl, _⟩ := follows
  · exact fun char member => by cases member
  · intro char member
    obtain rfl := Option.some.inj member
    decide

theorem Follows.overhang {rest extra after : Text} (follows : Follows rest)
    (split : rest = extra ++ after) (nonempty : extra ≠ [])
    (marks : (letters extra).countP ordinary = 0) : extra = [' '] := by
  obtain rfl | ⟨char, more, rfl, common⟩ := follows
  · exact absurd (List.append_eq_nil_iff.mp split.symm).1 nonempty
  · match extra, nonempty with
    | [blank], _ => rw [List.cons_append, List.cons.injEq] at split; rw [split.1]
    | blank :: first :: later, _ =>
        simp only [List.cons_append, List.cons.injEq] at split
        obtain ⟨rfl, rfl, _⟩ := split
        have literal : char ≠ '\\' := by
          rintro rfl
          exact absurd common (by decide)
        have counted := List.countP_eq_zero.mp marks char
          (by simp [letters_cons, literal])
        exact absurd common counted

/-- A value whose characters after `front` stand where it is written: all of
them and no more have been read, or one blank more. -/
theorem Reads.cut {stops : Char → Bool} {raw front value rest after : Text}
    (reads : Reads stops raw (front ++ value))
    (marks : ∀ char ∈ front, ordinary char = false ∧ char ≠ '\\') (follows : Follows rest)
    (cut : value ++ rest = raw ++ after) :
    (front = [] ∧ after = rest ∧ ∀ char ∈ value, stops char = false ∧ char ≠ '\\') ∨
      (front.length = 1 ∧ raw = value ++ [' '] ∧ front ++ value = raw ∧
        ∀ char ∈ raw, stops char = false ∧ char ≠ '\\') := by
  have bound := reads.length_le
  rw [List.length_append] at bound
  obtain ⟨extra, rfl, split⟩ | ⟨short, rfl, rfl⟩ := List.append_eq_append_iff.mp cut
  · by_cases within : extra = []
    · subst within
      obtain rfl : front = [] := List.length_eq_zero_iff.mp (by rw [List.append_nil] at bound; omega)
      obtain ⟨-, plain⟩ := reads.exact (by simp)
      exact .inl ⟨rfl, split.symm, by simpa using plain⟩
    · have same := reads.letters_eq
      rw [letters_append, letters_append, letters_plain fun char member => (marks char member).2]
        at same
      have counted := congrArg (List.countP ordinary) same
      have unmarked : front.countP ordinary = 0 :=
        List.countP_eq_zero.mpr fun char member => by simp [(marks char member).1]
      rw [List.countP_append, List.countP_append, unmarked] at counted
      obtain rfl := follows.overhang split within (by omega)
      have sizes := congrArg List.length same
      have blank : letters [' '] = [' '] := by decide
      rw [blank, List.length_append, List.length_append, List.length_singleton] at sizes
      have one : front.length = 1 := by omega
      obtain ⟨exactly, plain⟩ := reads.exact
        (by rw [List.length_append, List.length_append, one, List.length_singleton]; omega)
      exact .inr ⟨one, rfl, exactly, plain⟩
  · rw [List.length_append] at bound
    obtain rfl : front = [] := List.length_eq_zero_iff.mp (by omega)
    obtain rfl : short = [] := List.length_eq_zero_iff.mp (by omega)
    obtain ⟨-, plain⟩ := reads.exact (by simp)
    exact .inl ⟨rfl, by simp, by simpa using plain⟩

theorem ordinary_blank {char : Char} (blank : isWhitespace char = true) :
    ordinary char = false ∧ char ≠ '\\' := by
  refine ⟨by simp [ordinary, blank], ?_⟩
  rintro rfl
  exact absurd blank (by decide)

theorem simpleValue_exact {blanks value rest after : Text} (follows : Follows rest)
    (blank : ∀ char ∈ blanks, isWhitespace char = true)
    (read : simpleValue (value ++ rest) = .ok (blanks ++ value, after)) :
    blanks = [] ∧ after = rest ∧ ∀ char ∈ value, isWhitespace char = false ∧ char ≠ '\\' := by
  obtain ⟨raw, cut, reads⟩ := simpleChars_reads (value ++ rest)
  have chars : simpleChars (value ++ rest) = (blanks ++ value, after) := by
    rw [simpleValue] at read
    split at read
    · cases read
    · rename_i chars
      exact chars.trans (Except.ok.inj read)
  rw [chars] at cut reads
  obtain found | ⟨-, rfl, -, plain⟩ :=
    reads.cut (fun char member => ordinary_blank (blank char member)) follows cut
  · exact found
  · exact absurd (plain ' ' (by simp)).1 (by decide)

theorem quotedValue_exact {blanks value rest after : Text} (follows : Follows rest)
    (blank : ∀ char ∈ blanks, isWhitespace char = true) :
    quotedValue (value ++ rest) ≠ .ok (blanks ++ '\'' :: value, after) := by
  intro read
  have chars : quotedChars (value ++ rest) = some (blanks ++ '\'' :: value, after) := by
    rw [quotedValue] at read
    split at read
    · rename_i chars
      exact chars.trans (congrArg some (Except.ok.inj read))
    · cases read
  obtain ⟨raw, cut, reads⟩ := quotedChars_reads chars
  rw [List.append_cons] at reads
  have marks : ∀ char ∈ blanks ++ ['\''], ordinary char = false ∧ char ≠ '\\' := by
    intro char member
    rcases List.mem_append.mp member with old | quote
    · exact ordinary_blank (blank char old)
    · rw [List.mem_singleton.mp quote]
      decide
  obtain ⟨empty, -⟩ | ⟨-, -, same, plain⟩ := reads.cut marks follows cut
  · simp at empty
  · have quote : '\'' ∈ raw := by simp [← same]
    exact absurd (plain '\'' quote).1 (by decide)

theorem blanks_append (text : Text) : ∃ blanks shown, text = blanks ++ shown ∧
    (∀ char ∈ blanks, isWhitespace char = true) ∧ ∀ char ∈ shown.head?, isWhitespace char = false := by
  induction text with
  | nil => exact ⟨[], [], rfl, by simp, by simp⟩
  | cons char text ih =>
      cases blank : isWhitespace char with
      | true =>
          obtain ⟨blanks, shown, rfl, allBlank, starts⟩ := ih
          exact ⟨char :: blanks, shown, rfl, List.forall_mem_cons.mpr ⟨blank, allBlank⟩, starts⟩
      | false =>
          exact ⟨[], char :: text, rfl, by simp, by simpa using blank⟩

theorem skipWs_blanks {blanks : Text} (blank : ∀ char ∈ blanks, isWhitespace char = true)
    (rest : Text) : skipWs (blanks ++ rest) = skipWs rest :=
  List.dropWhile_append_of_pos blank

theorem skipWs_shown {char : Char} (visible : isWhitespace char = false) (rest : Text) :
    skipWs (char :: rest) = char :: rest :=
  List.dropWhile_cons_of_neg (Bool.eq_false_iff.mp visible)

/-- A value of blanks only is not read back, whatever is read in its place. -/
theorem blanks_lost {s blanks rest after : Text} (follows : Follows rest)
    (blank : ∀ char ∈ blanks, isWhitespace char = true) :
    Parser.value s (skipWs rest) ≠ .ok (blanks, after) := by
  intro read
  obtain rfl | ⟨char, more, rfl, common⟩ := follows
  · cases read
  · simp only [ordinary, Bool.and_eq_true, Bool.not_eq_true', bne_iff_ne] at common
    obtain ⟨⟨visible, literal⟩, unquoted⟩ := common
    have skipped : skipWs (' ' :: char :: more) = char :: more :=
      (List.dropWhile_cons_of_pos (by decide)).trans (skipWs_shown visible more)
    rw [skipped, value_simple s (by simpa using unquoted), simpleValue,
      simpleChars_char more visible literal] at read
    obtain ⟨rfl, -⟩ := Prod.mk.inj (Except.ok.inj read)
    exact absurd (blank char (List.mem_cons_self ..)) (Bool.eq_false_iff.mp visible)

theorem value_quoted {s rest value after : Text}
    (read : Parser.value s ('\'' :: rest) = .ok (value, after)) :
    ∃ closing, quotedValue rest = .ok (value, closing) := by
  cases quoted : quotedValue rest with
  | error error => simp [Parser.value, quoted, bind, Except.bind] at read
  | ok pair =>
      refine ⟨pair.2, ?_⟩
      cases eaten : eat s '\'' pair.2 with
      | error error => simp [Parser.value, quoted, eaten, bind, Except.bind] at read
      | ok rest =>
          simp [Parser.value, quoted, eaten, bind, Except.bind, pure, Except.pure] at read
          rw [← read.1]

/-- A value that is read back from where it stands unquoted is a plain one. -/
theorem value_exact {s value rest after : Text} (follows : Follows rest)
    (read : Parser.value s (skipWs (value ++ rest)) = .ok (value, after)) :
    PlainValue value ∧ after = rest := by
  obtain ⟨blanks, shown, rfl, blank, starts⟩ := blanks_append value
  rw [List.append_assoc, skipWs_blanks blank] at read
  cases shown with
  | nil =>
      rw [List.append_nil, List.nil_append] at read
      exact absurd read (blanks_lost follows blank)
  | cons char shown =>
      rw [List.cons_append, skipWs_shown (starts char rfl)] at read
      by_cases quote : char = '\''
      · subst quote
        obtain ⟨closing, quoted⟩ := value_quoted read
        exact absurd quoted (quotedValue_exact follows blank)
      · have unquoted : (char :: (shown ++ rest)).head? ≠ some '\'' := by simpa using quote
        rw [value_simple s unquoted, ← List.cons_append] at read
        obtain ⟨rfl, rfl, plain⟩ := simpleValue_exact follows blank read
        exact ⟨⟨List.cons_ne_nil _ _, by simpa using quote, plain⟩, rfl⟩

/-! ### Parameters without quotes -/

/-- A keyword of letters, as the parameters have. -/
structure PlainKey (key : Text) : Prop where
  nonempty : key ≠ []
  ordinary : ∀ char ∈ key, ordinary char = true ∧ char ≠ '='

/-- Parameters with single blanks between them and nothing quoted. -/
def render (pairs : List (Text × Text)) : Text :=
  [' '].intercalate (pairs.map fun pair => pair.1 ++ '=' :: pair.2)

/-- The rest of the parameters after one. -/
def renderRest : List (Text × Text) → Text
  | [] => []
  | pair :: pairs => ' ' :: render (pair :: pairs)

theorem render_cons (pair : Text × Text) (pairs : List (Text × Text)) :
    render (pair :: pairs) = pair.1 ++ '=' :: (pair.2 ++ renderRest pairs) := by
  cases pairs with
  | nil => simp [render, renderRest]
  | cons next pairs => simp [render, renderRest, List.intercalate_cons_cons]

theorem renderRest_follows {pairs : List (Text × Text)} (keys : ∀ pair ∈ pairs, PlainKey pair.1) :
    Follows (renderRest pairs) := by
  cases pairs with
  | nil => exact .inl rfl
  | cons pair pairs =>
      have key := keys pair (List.mem_cons_self ..)
      rw [renderRest, render_cons]
      cases shown : pair.1 with
      | nil => exact absurd shown key.nonempty
      | cons char rest =>
          exact .inr ⟨char, _, rfl, (key.ordinary char (shown ▸ List.mem_cons_self ..)).1⟩

theorem keyword_plain {key : Text} (plain : PlainKey key) (rest : Text) :
    keyword (skipWs (key ++ '=' :: rest)) = some (key, '=' :: rest) := by
  have visible (char : Char) (member : char ∈ key) : isWhitespace char = false ∧ char ≠ '=' := by
    obtain ⟨common, unequal⟩ := plain.ordinary char member
    simp only [ordinary, Bool.and_eq_true, Bool.not_eq_true'] at common
    exact ⟨common.1.1, unequal⟩
  have inKey : ∀ char ∈ key, isKeywordChar char = true := by
    intro char member
    obtain ⟨shown, unequal⟩ := visible char member
    simp [isKeywordChar, shown, unequal]
  have stop : ¬isKeywordChar '=' = true := by decide
  have unskipped : skipWs (key ++ '=' :: rest) = key ++ '=' :: rest := by
    cases key with
    | nil => exact absurd rfl plain.nonempty
    | cons char key => exact skipWs_shown (visible char (List.mem_cons_self ..)).1 _
  have taken : (key ++ '=' :: rest).takeWhile isKeywordChar = key := by
    rw [List.takeWhile_append_of_pos inKey, List.takeWhile_cons_of_neg stop, List.append_nil]
  have dropped : (key ++ '=' :: rest).dropWhile isKeywordChar = '=' :: rest := by
    rw [List.dropWhile_append_of_pos inKey, List.dropWhile_cons_of_neg stop]
  rw [unskipped, keyword, taken, dropped]
  cases key with
  | nil => exact absurd rfl plain.nonempty
  | cons char key => rfl

theorem parameter_plain {key : Text} (plain : PlainKey key) (s rest : Text) :
    parameter s (key ++ '=' :: rest) =
      (Parser.value s (skipWs rest)).map fun read => some ((key, read.1), read.2) := by
  have eaten : eat s '=' (skipWs ('=' :: rest)) = .ok rest := by
    rw [skipWs_shown (by decide), eat, if_pos rfl]
  rw [parameter, keyword_plain plain]
  simp only [eaten, bind, Except.bind]
  cases Parser.value s (skipWs rest) <;> rfl

theorem parameter_blank (s rest : Text) : parameter s (' ' :: rest) = parameter s rest := by
  have skipped : skipWs (' ' :: rest) = skipWs rest := List.dropWhile_cons_of_pos (by decide)
  rw [parameter, parameter, skipped]

theorem parametersFrom_renderRest (s : Text) (fuel : Nat) (pairs : List (Text × Text)) :
    parametersFrom s fuel (renderRest pairs) = parametersFrom s fuel (render pairs) := by
  cases pairs with
  | nil => rfl
  | cons pair pairs =>
      cases fuel with
      | zero => rfl
      | succ fuel => rw [renderRest, parametersFrom, parametersFrom, parameter_blank]

/-- Plain values are read back. -/
theorem parametersFrom_render {s : Text} {fuel : Nat} {pairs : List (Text × Text)}
    (keys : ∀ pair ∈ pairs, PlainKey pair.1) (values : ∀ pair ∈ pairs, PlainValue pair.2)
    (enough : pairs.length < fuel) : parametersFrom s fuel (render pairs) = .ok pairs := by
  induction pairs generalizing fuel with
  | nil =>
      cases fuel with
      | zero => rfl
      | succ fuel => rfl
  | cons pair pairs ih =>
      obtain ⟨key, keys⟩ := List.forall_mem_cons.mp keys
      obtain ⟨value, values⟩ := List.forall_mem_cons.mp values
      cases fuel with
      | zero => cases enough
      | succ fuel =>
          have later := ih keys values (Nat.lt_of_succ_lt_succ enough)
          have read := value_plain value (renderRest_follows keys).endsValue s
          rw [render_cons, parametersFrom, parameter_plain key, read]
          simp only [Except.map, parametersFrom_renderRest, later]

theorem length_render (pairs : List (Text × Text)) : pairs.length ≤ (render pairs).length := by
  induction pairs with
  | nil => exact Nat.le_refl _
  | cons pair pairs ih =>
      have rest : pairs.length ≤ (renderRest pairs).length := by
        cases pairs with
        | nil => exact Nat.le_refl _
        | cons next pairs => exact Nat.le_succ_of_le ih
      rw [render_cons]
      simp only [List.length_cons, List.length_append]
      omega

/-- No other values are. -/
theorem plain_of_parametersFrom {s : Text} {fuel : Nat} {pairs : List (Text × Text)}
    (keys : ∀ pair ∈ pairs, PlainKey pair.1)
    (read : parametersFrom s fuel (render pairs) = .ok pairs) :
    ∀ pair ∈ pairs, PlainValue pair.2 := by
  induction pairs generalizing fuel with
  | nil => exact fun pair member => by cases member
  | cons pair pairs ih =>
      obtain ⟨key, keys⟩ := List.forall_mem_cons.mp keys
      cases fuel with
      | zero => cases read
      | succ fuel =>
          rw [render_cons, parametersFrom, parameter_plain key] at read
          cases value : Parser.value s (skipWs (pair.2 ++ renderRest pairs)) with
          | error error => simp [value, Except.map] at read
          | ok pair' =>
              obtain ⟨first, after⟩ := pair'
              simp only [value, Except.map] at read
              cases later : parametersFrom s fuel after with
              | error error => simp [later] at read
              | ok others =>
                  simp only [later, Except.ok.injEq, List.cons.injEq] at read
                  obtain ⟨same, rfl⟩ := read
                  obtain rfl : first = pair.2 := congrArg Prod.snd same
                  obtain ⟨plain, rfl⟩ := value_exact (renderRest_follows keys) value
                  rw [parametersFrom_renderRest] at later
                  exact List.forall_mem_cons.mpr ⟨plain, ih keys later⟩

end Parser

end OpenGauss.Driver
