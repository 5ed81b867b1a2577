import Mathlib.Data.List.TakeWhile
import OpenGauss.Driver.ConfigProperties

/-! Key-value strings: how a parameter can be written, and that the parser reads
exactly what is written so. -/

set_option autoImplicit false

namespace OpenGauss.Driver.Parser

open Lib Lib.Text

/-! ### Values -/

/-- A value against the characters it is written with. -/
inductive Escaped (stops : Char → Bool) : Text → Text → Prop where
  | nil : Escaped stops [] []
  | char {char : Char} {raw value : Text} (goes : stops char = false) (literal : char ≠ '\\') :
      Escaped stops raw value → Escaped stops (char :: raw) (char :: value)
  | escape (char : Char) {raw value : Text} :
      Escaped stops raw value → Escaped stops ('\\' :: char :: raw) (char :: value)

/-- A value at the front of a text. A backslash at the end of the string stands
for nothing. -/
inductive ValueText : Text → Text → Text → Prop where
  | quoted {raw value later : Text} (body : Escaped (· == '\'') raw value) :
      ValueText ('\'' :: (raw ++ '\'' :: later)) value later
  | simple {raw value later : Text} (body : Escaped isWhitespace raw value) (nonempty : value ≠ [])
      (unquoted : raw.head? ≠ some '\'') (ends : EndsValue later) :
      ValueText (raw ++ later) value later
  | lone {raw value : Text} (body : Escaped isWhitespace raw value) (nonempty : value ≠ [])
      (unquoted : raw.head? ≠ some '\'') : ValueText (raw ++ ['\\']) value []

theorem simpleChars_escaped {raw value : Text} (body : Escaped isWhitespace raw value) (rest : Text) :
    simpleChars (raw ++ rest) = (value ++ (simpleChars rest).1, (simpleChars rest).2) := by
  induction body with
  | nil => rfl
  | char visible literal _ ih => rw [List.cons_append, simpleChars_char _ visible literal, ih]; rfl
  | escape char _ ih => rw [List.cons_append, List.cons_append, simpleChars_escape, ih]; rfl

theorem simpleChars_ends {rest : Text} (ends : EndsValue rest) : simpleChars rest = ([], rest) := by
  cases rest with
  | nil => rfl
  | cons char rest => exact simpleChars_blank rest (ends char rfl)

/-- What the loop of `simple_value` stops at: the end of the value, or a
backslash at the end of the string. -/
theorem escaped_simpleChars (text : Text) :
    ∃ raw tail, text = raw ++ tail ∧ Escaped isWhitespace raw (simpleChars text).1 ∧
      (EndsValue tail ∧ (simpleChars text).2 = tail ∨ tail = ['\\'] ∧ (simpleChars text).2 = []) := by
  induction text using simpleChars.induct with
  | case1 => exact ⟨[], [], rfl, .nil, .inl ⟨fun _ member => (by cases member), rfl⟩⟩
  | case2 char rest blank =>
      rw [simpleChars_blank rest blank]
      refine ⟨[], char :: rest, rfl, .nil, .inl ⟨fun other member => ?_, rfl⟩⟩
      exact Option.some.inj member ▸ blank
  | case3 => exact ⟨[], ['\\'], rfl, .nil, .inr ⟨rfl, rfl⟩⟩
  | case4 escaped rest _ ih =>
      obtain ⟨raw, tail, split, body, stop⟩ := ih
      rw [simpleChars_escape]
      exact ⟨'\\' :: escaped :: raw, tail, congrArg _ (congrArg _ split), .escape escaped body, stop⟩
  | case5 char rest visible literal ih =>
      obtain ⟨raw, tail, split, body, stop⟩ := ih
      have visible := Bool.eq_false_iff.mpr visible
      rw [simpleChars_char rest visible literal]
      exact ⟨char :: raw, tail, congrArg _ split, .char visible literal body, stop⟩

theorem quotedChars_escaped {raw value : Text} (body : Escaped (· == '\'') raw value) (rest : Text) :
    quotedChars (raw ++ '\'' :: rest) = some (value, '\'' :: rest) := by
  induction body with
  | nil => exact quotedChars_quote rest
  | char goes literal _ ih =>
      rw [List.cons_append, quotedChars_char _ (beq_eq_false_iff_ne.mp goes) literal, ih]
      rfl
  | escape char _ ih => rw [List.cons_append, List.cons_append, quotedChars_escape, ih]; rfl

theorem escaped_quotedChars {text value later : Text} (read : quotedChars text = some (value, later)) :
    ∃ raw rest, text = raw ++ '\'' :: rest ∧ later = '\'' :: rest ∧ Escaped (· == '\'') raw value := by
  induction text using quotedChars.induct generalizing value with
  | case1 => cases read
  | case2 rest =>
      rw [quotedChars_quote, Option.some.injEq, Prod.mk.injEq] at read
      obtain ⟨rfl, rfl⟩ := read
      exact ⟨[], rest, rfl, rfl, .nil⟩
  | case3 =>
      rw [quotedChars.eq_def] at read
      simp at read
  | case4 escaped rest _ ih =>
      rw [quotedChars_escape, Option.map_eq_some_iff] at read
      obtain ⟨⟨value, after⟩, found, same⟩ := read
      obtain ⟨rfl, rfl⟩ := Prod.mk.inj same
      obtain ⟨raw, rest, rfl, behind, body⟩ := ih found
      exact ⟨'\\' :: escaped :: raw, rest, rfl, behind, .escape escaped body⟩
  | case5 char rest goes literal ih =>
      rw [quotedChars_char rest goes literal, Option.map_eq_some_iff] at read
      obtain ⟨⟨value, after⟩, found, same⟩ := read
      obtain ⟨rfl, rfl⟩ := Prod.mk.inj same
      obtain ⟨raw, rest, rfl, behind, body⟩ := ih found
      exact ⟨char :: raw, rest, rfl, behind, .char (beq_eq_false_iff_ne.mpr goes) literal body⟩

theorem eat_head {target : Char} {s rest later : Text} :
    eat s target rest = .ok later ↔ rest = target :: later := by
  cases rest with
  | nil => simp [eat]
  | cons char rest =>
      rw [eat]
      by_cases same : char = target
      · rw [if_pos same, same, Except.ok.injEq, List.cons.injEq, and_iff_right rfl]
      · rw [if_neg same]
        simp [same]

theorem simpleValue_ok {text value later : Text} :
    simpleValue text = .ok (value, later) ↔ value ≠ [] ∧ simpleChars text = (value, later) := by
  rw [simpleValue]
  cases simpleChars text with
  | mk read rest =>
      cases read with
      | nil =>
          simp only [reduceCtorEq, Prod.mk.injEq, false_iff, not_and]
          exact fun nonempty empty => absurd empty.symm nonempty
      | cons char read =>
          simp only [Except.ok.injEq, Prod.mk.injEq]
          exact ⟨fun same => ⟨same.1 ▸ List.cons_ne_nil _ _, same⟩, fun same => same.2⟩

theorem value_quote {s rest value later : Text} :
    Parser.value s ('\'' :: rest) = .ok (value, later) ↔
      quotedChars rest = some (value, '\'' :: later) := by
  change (quotedValue rest).bind (fun read => (eat s '\'' read.2).bind fun rest => .ok (read.1, rest)) =
    _ ↔ _
  rw [quotedValue]
  cases chars : quotedChars rest with
  | none => simp [Except.bind]
  | some read =>
      obtain ⟨first, after⟩ := read
      simp only [Except.bind, Option.some.injEq, Prod.mk.injEq]
      cases eaten : eat s '\'' after with
      | error error =>
          refine ⟨fun impossible => (by cases impossible), fun same => ?_⟩
          rw [eat_head.mpr same.2] at eaten
          cases eaten
      | ok rest =>
          rw [eat_head.mp eaten]
          simp

/-- The parser reads a value exactly if one is written there. -/
theorem value_iff {s text value later : Text} :
    Parser.value s text = .ok (value, later) ↔ ValueText text value later := by
  constructor
  · intro read
    by_cases quote : text.head? = some '\''
    · obtain ⟨rest, rfl⟩ := List.head?_eq_some_iff.mp quote
      obtain ⟨raw, rest, rfl, behind, body⟩ := escaped_quotedChars (value_quote.mp read)
      obtain ⟨-, rfl⟩ := List.cons.inj behind
      exact .quoted body
    · rw [value_simple s quote] at read
      obtain ⟨nonempty, chars⟩ := simpleValue_ok.mp read
      obtain ⟨raw, tail, rfl, body, stop⟩ := escaped_simpleChars text
      rw [chars] at body stop
      have unquoted : raw.head? ≠ some '\'' := by
        cases body with
        | nil => exact absurd rfl nonempty
        | char => exact quote
        | escape => exact quote
      obtain ⟨ends, rfl⟩ | ⟨rfl, rfl⟩ := stop
      · exact .simple body nonempty unquoted ends
      · exact .lone body nonempty unquoted
  · have first {raw value rest : Text} (body : Escaped isWhitespace raw value) (nonempty : value ≠ [])
        (unquoted : raw.head? ≠ some '\'') : (raw ++ rest).head? ≠ some '\'' := by
      cases body with
      | nil => exact absurd rfl nonempty
      | char => exact unquoted
      | escape => exact unquoted
    intro written
    cases written with
    | quoted body => exact value_quote.mpr (quotedChars_escaped body later)
    | simple body nonempty unquoted ends =>
        rw [value_simple s (first body nonempty unquoted)]
        refine simpleValue_ok.mpr ⟨nonempty, ?_⟩
        rw [simpleChars_escaped body, simpleChars_ends ends, List.append_nil]
    | lone body nonempty unquoted =>
        rw [value_simple s (first body nonempty unquoted)]
        refine simpleValue_ok.mpr ⟨nonempty, ?_⟩
        rw [simpleChars_escaped body]
        exact congrArg (·, []) (List.append_nil value)

/-! ### Parameters -/

def Blank (text : Text) : Prop := ∀ char ∈ text, isWhitespace char = true

instance (text : Text) : Decidable (Blank text) :=
  inferInstanceAs (Decidable (∀ char ∈ text, isWhitespace char = true))

structure KeyText (key : Text) : Prop where
  nonempty : key ≠ []
  chars : ∀ char ∈ key, isKeywordChar char = true

instance (key : Text) : Decidable (KeyText key) :=
  decidable_of_iff (key ≠ [] ∧ ∀ char ∈ key, isKeywordChar char = true)
    ⟨fun both => ⟨both.1, both.2⟩, fun keyText => ⟨keyText.nonempty, keyText.chars⟩⟩

/-- A parameter at the front of a text. -/
inductive Setting : Text → Text × Text → Text → Prop where
  | mk {before key around after text value later : Text} (beforeBlank : Blank before)
      (keyText : KeyText key) (aroundBlank : Blank around) (afterBlank : Blank after)
      (valueText : ValueText text value later) :
      Setting (before ++ (key ++ (around ++ '=' :: (after ++ text)))) (key, value) later

theorem skipWs_split (text : Text) :
    ∃ blanks, text = blanks ++ skipWs text ∧ Blank blanks ∧
      ∀ char ∈ (skipWs text).head?, isWhitespace char = false := by
  refine ⟨text.takeWhile isWhitespace, List.takeWhile_append_dropWhile.symm,
    fun _ => List.mem_takeWhile_imp, fun char first => ?_⟩
  have ends := List.head?_dropWhile_not isWhitespace text
  rw [skipWs] at first
  rwa [first] at ends

theorem keyword_iff {text key later : Text} :
    keyword text = some (key, later) ↔
      KeyText key ∧ text = key ++ later ∧ ∀ char ∈ later.head?, isKeywordChar char = false := by
  have whole : text.takeWhile isKeywordChar ++ text.dropWhile isKeywordChar = text :=
    List.takeWhile_append_dropWhile
  constructor
  · intro read
    rw [keyword] at read
    split at read
    · cases read
    · rename_i nonempty
      obtain ⟨rfl, rfl⟩ := Prod.mk.inj (Option.some.inj read)
      refine ⟨⟨nonempty, fun _ => List.mem_takeWhile_imp⟩, whole.symm, fun char first => ?_⟩
      have ends := List.head?_dropWhile_not isKeywordChar text
      rwa [first] at ends
  · rintro ⟨keyText, rfl, ends⟩
    have stop : later.takeWhile isKeywordChar = [] ∧ later.dropWhile isKeywordChar = later := by
      cases later with
      | nil => exact ⟨rfl, rfl⟩
      | cons char later =>
          have out := Bool.eq_false_iff.mp (ends char rfl)
          exact ⟨List.takeWhile_cons_of_neg out, List.dropWhile_cons_of_neg out⟩
    rw [keyword, List.takeWhile_append_of_pos keyText.chars,
      List.dropWhile_append_of_pos keyText.chars, stop.1, stop.2, List.append_nil]
    cases key with
    | nil => exact absurd rfl keyText.nonempty
    | cons char key => rfl

theorem parameter_some {s rest key value later : Text} :
    parameter s rest = .ok (some ((key, value), later)) ↔
      ∃ behind text, keyword (skipWs rest) = some (key, behind) ∧ skipWs behind = '=' :: text ∧
        Parser.value s (skipWs text) = .ok (value, later) := by
  rw [parameter]
  cases read : keyword (skipWs rest) with
  | none => simp
  | some found =>
      obtain ⟨name, behind⟩ := found
      dsimp only
      cases eaten : eat s '=' (skipWs behind) with
      | error error =>
          refine ⟨fun impossible => (by cases impossible), ?_⟩
          rintro ⟨other, text, same, equals, -⟩
          obtain ⟨rfl, rfl⟩ := Prod.mk.inj (Option.some.inj same)
          rw [eat_head.mpr equals] at eaten
          cases eaten
      | ok text =>
          have equals := eat_head.mp eaten
          cases taken : Parser.value s (skipWs text) with
          | error error =>
              refine ⟨fun impossible => ?_, ?_⟩
              · simp [taken, bind, Except.bind] at impossible
              · rintro ⟨other, text', same, equals', read⟩
                obtain ⟨rfl, rfl⟩ := Prod.mk.inj (Option.some.inj same)
                obtain ⟨-, rfl⟩ := List.cons.inj (equals'.symm.trans equals)
                rw [taken] at read
                cases read
          | ok result =>
              obtain ⟨first, rest⟩ := result
              constructor
              · intro same
                simp only [taken, bind, Except.bind, pure, Except.pure, Except.ok.injEq, Option.some.injEq,
                  Prod.mk.injEq] at same
                obtain ⟨⟨rfl, rfl⟩, rfl⟩ := same
                exact ⟨behind, text, rfl, equals, taken⟩
              · rintro ⟨other, text', same, equals', read⟩
                obtain ⟨rfl, rfl⟩ := Prod.mk.inj (Option.some.inj same)
                obtain ⟨-, rfl⟩ := List.cons.inj (equals'.symm.trans equals)
                obtain ⟨rfl, rfl⟩ := Prod.mk.inj (Except.ok.inj (taken.symm.trans read))
                simp [taken, bind, Except.bind, pure, Except.pure]

theorem valueText_shown {text value later : Text} (written : ValueText text value later) :
    skipWs text = text := by
  have shown {raw value rest : Text} (body : Escaped isWhitespace raw value) (nonempty : value ≠ []) :
      skipWs (raw ++ rest) = raw ++ rest := by
    cases body with
    | nil => exact absurd rfl nonempty
    | char visible => exact skipWs_shown visible _
    | escape => exact skipWs_shown (by decide) _
  cases written with
  | quoted => exact skipWs_shown (by decide) _
  | simple body nonempty => exact shown body nonempty
  | lone body nonempty => exact shown body nonempty

/-- The parser reads a parameter exactly if one is written there. -/
theorem parameter_iff (s : Text) {rest later : Text} {pair : Text × Text} :
    parameter s rest = .ok (some (pair, later)) ↔ Setting rest pair later := by
  obtain ⟨key, value⟩ := pair
  rw [parameter_some]
  constructor
  · rintro ⟨behind, text, found, equals, read⟩
    obtain ⟨before, split, beforeBlank, -⟩ := skipWs_split rest
    obtain ⟨keyText, keySplit, -⟩ := keyword_iff.mp found
    obtain ⟨around, aroundSplit, aroundBlank, -⟩ := skipWs_split behind
    obtain ⟨after, afterSplit, afterBlank, -⟩ := skipWs_split text
    rw [split, keySplit, aroundSplit, equals, afterSplit]
    exact .mk beforeBlank keyText aroundBlank afterBlank (value_iff.mp read)
  · intro written
    cases written with
    | @mk before key around after text value later beforeBlank keyText aroundBlank afterBlank written =>
        refine ⟨around ++ '=' :: (after ++ text), after ++ text, keyword_iff.mpr ⟨keyText, ?_, ?_⟩, ?_, ?_⟩
        · rw [skipWs_blanks beforeBlank]
          cases key with
          | nil => exact absurd rfl keyText.nonempty
          | cons char key =>
              have inside := keyText.chars char List.mem_cons_self
              simp only [isKeywordChar, Bool.and_eq_true, Bool.not_eq_true'] at inside
              exact skipWs_shown inside.1 _
        · intro char first
          cases around with
          | nil => exact Option.some.inj first ▸ rfl
          | cons blank around =>
              obtain rfl := Option.some.inj first
              simp [isKeywordChar, aroundBlank blank List.mem_cons_self]
        · rw [skipWs_blanks aroundBlank, skipWs_shown (by decide)]
        · rw [skipWs_blanks afterBlank, valueText_shown written]
          exact value_iff.mpr written

/-- Where the parser finds no further parameter: at the end of the string, or
before an equals sign. -/
def Stops (rest : Text) : Prop := Blank rest ∨ ∃ blanks later, Blank blanks ∧ rest = blanks ++ '=' :: later

theorem keyword_none {text : Text} :
    keyword text = none ↔ ∀ char ∈ text.head?, isKeywordChar char = false := by
  rw [keyword]
  cases text with
  | nil => simp
  | cons char text =>
      by_cases inside : isKeywordChar char = true
      · simp [List.takeWhile_cons_of_pos inside, inside]
      · simp [List.takeWhile_cons_of_neg inside, Bool.eq_false_iff.mpr inside]

theorem keyword_stops {rest : Text} : keyword (skipWs rest) = none ↔ Stops rest := by
  obtain ⟨before, split, beforeBlank, shown⟩ := skipWs_split rest
  rw [keyword_none]
  constructor
  · intro ends
    cases skipped : skipWs rest with
    | nil =>
        rw [skipped, List.append_nil] at split
        exact .inl (split ▸ beforeBlank)
    | cons char later =>
        rw [skipped] at split shown ends
        have visible := shown char rfl
        have equals : char = '=' := by simpa [isKeywordChar, visible] using ends char rfl
        exact .inr ⟨before, later, beforeBlank, equals ▸ split⟩
  · rintro (blank | ⟨blanks, later, blank, rfl⟩) char first
    · have skipped := skipWs_blanks blank []
      rw [List.append_nil] at skipped
      rw [skipped] at first
      cases first
    · rw [skipWs_blanks blank, skipWs_shown (by decide)] at first
      exact Option.some.inj first ▸ rfl

theorem parameter_none (s : Text) {rest : Text} : parameter s rest = .ok none ↔ Stops rest := by
  rw [← keyword_stops, parameter]
  cases keyword (skipWs rest) with
  | none => simp
  | some found =>
      refine ⟨fun ended => ?_, fun impossible => (by cases impossible)⟩
      obtain ⟨key, behind⟩ := found
      cases eaten : eat s '=' (skipWs behind) with
      | error error => simp [eaten, bind, Except.bind] at ended
      | ok text =>
          cases taken : Parser.value s (skipWs text) with
          | error error => simp [eaten, taken, bind, Except.bind] at ended
          | ok read => simp [eaten, taken, bind, Except.bind, pure, Except.pure] at ended

/-! ### Strings -/

theorem valueText_length {text value later : Text} (written : ValueText text value later) :
    later.length ≤ text.length := by
  cases written with
  | quoted =>
      simp only [List.length_append, List.length_cons]
      omega
  | simple => exact List.length_append ▸ Nat.le_add_left ..
  | lone => exact Nat.zero_le _

theorem Setting.shorter {rest later : Text} {pair : Text × Text} (setting : Setting rest pair later) :
    later.length < rest.length := by
  cases setting with
  | mk _ keyText _ _ valueText =>
      have behind := valueText_length valueText
      simp only [List.length_append, List.length_cons]
      omega

theorem parametersFrom_items {s rest stop : Text} {fuel : Nat} {pairs : List (Text × Text)}
    (enough : rest.length < fuel) (items : Items Setting rest pairs stop) (stops : Stops stop) :
    parametersFrom s fuel rest = .ok pairs := by
  induction items generalizing fuel with
  | done text =>
      cases fuel with
      | zero => rfl
      | succ fuel => rw [parametersFrom, (parameter_none s).mpr stops]
  | next setting _ ih =>
      cases fuel with
      | zero => cases enough
      | succ fuel =>
          have later := ih (Nat.lt_of_lt_of_le setting.shorter (Nat.le_of_lt_succ enough)) stops
          rw [parametersFrom, (parameter_iff s).mpr setting]
          simp only [later, Except.map]

theorem parseFrom_ok {s rest : Text} {fuel : Nat} (enough : rest.length < fuel) {config final : Config}
    (parsed : parseFrom s fuel rest config = .ok final) :
    ∃ pairs stop, Items Setting rest pairs stop ∧ Stops stop ∧ applyAll config pairs = .ok final := by
  induction fuel generalizing rest config with
  | zero => exact absurd enough (Nat.not_lt_zero _)
  | succ fuel ih =>
      rw [parseFrom] at parsed
      cases taken : parameter s rest with
      | error error => simp [taken] at parsed
      | ok found =>
          rw [taken] at parsed
          cases found with
          | none => exact ⟨[], rest, .done rest, (parameter_none s).mp taken, parsed⟩
          | some result =>
              obtain ⟨⟨key, value⟩, later⟩ := result
              dsimp only at parsed
              have setting := (parameter_iff s).mp taken
              have shorter := Nat.lt_of_lt_of_le setting.shorter (Nat.le_of_lt_succ enough)
              cases applied : config.param key value with
              | error error => simp [applied] at parsed
              | ok config =>
                  rw [applied] at parsed
                  obtain ⟨pairs, stop, items, stops, all⟩ := ih shorter parsed
                  refine ⟨(key, value) :: pairs, stop, .next setting items, stops, ?_⟩
                  rw [applyAll_cons, applied]
                  exact all

theorem parse_of_items {s stop : Text} {pairs : List (Text × Text)}
    (items : Items Setting s pairs stop) (stops : Stops stop) : parse s = applyAll .new pairs :=
  parse_of_parameters (parametersFrom_items (Nat.lt_succ_self _) items stops)

/-- What the parser accepts: parameters that are known, up to a place where no
further one begins. -/
theorem parse_iff {s : Text} {final : Config} :
    parse s = .ok final ↔
      ∃ pairs stop, Items Setting s pairs stop ∧ Stops stop ∧ applyAll .new pairs = .ok final := by
  refine ⟨parseFrom_ok (Nat.lt_succ_self _), ?_⟩
  rintro ⟨pairs, stop, items, stops, applied⟩
  exact (parse_of_items items stops).trans applied

theorem items_unique {text first second : Text} {pairs others : List (Text × Text)}
    (read : Items Setting text pairs first) (firstStops : Stops first)
    (again : Items Setting text others second) (secondStops : Stops second) :
    pairs = others ∧ first = second := by
  have apart {rest later : Text} {pair : Text × Text} (setting : Setting rest pair later) : ¬Stops rest := by
    intro stops
    have both := ((parameter_iff []).mpr setting).symm.trans ((parameter_none []).mpr stops)
    cases both
  induction read generalizing others with
  | done text =>
      cases again with
      | done => exact ⟨rfl, rfl⟩
      | next setting => exact absurd firstStops (apart setting)
  | next setting _ ih =>
      cases again with
      | done => exact absurd secondStops (apart setting)
      | next setting' later =>
          have both := ((parameter_iff []).mpr setting).symm.trans ((parameter_iff []).mpr setting')
          obtain ⟨rfl, rfl⟩ := Prod.mk.inj (Option.some.inj (Except.ok.inj both))
          obtain ⟨rfl, rfl⟩ := ih firstStops later
          exact ⟨rfl, rfl⟩

/-- The whole string is parameters, and they make the configuration. -/
def Consumed (s : Text) (config : Config) : Prop :=
  ∃ pairs blanks, Items Setting s pairs blanks ∧ Blank blanks ∧ applyAll .new pairs = .ok config

/-- After some parameters that are known, the string has an equals sign without a
keyword before it. -/
def StrayEquals (s : Text) : Prop :=
  ∃ pairs blanks rest, Items Setting s pairs (blanks ++ '=' :: rest) ∧ Blank blanks ∧
    ∃ config, applyAll .new pairs = .ok config

theorem notConsumed_of_strayEquals {s : Text} (stray : StrayEquals s) :
    ∃ config, parse s = .ok config ∧ ¬Consumed s config := by
  obtain ⟨pairs, blanks, rest, items, blank, config, applied⟩ := stray
  have stops : Stops (blanks ++ '=' :: rest) := .inr ⟨blanks, rest, blank, rfl⟩
  refine ⟨config, parse_iff.mpr ⟨pairs, _, items, stops, applied⟩, ?_⟩
  rintro ⟨others, ended, itemsAll, endBlank, -⟩
  obtain ⟨-, rfl⟩ := items_unique items stops itemsAll (.inl endBlank)
  exact absurd (endBlank '=' (List.mem_append_right blanks List.mem_cons_self)) (by decide)

/-- What the parser accepts is consumed as a whole unless there is a stray
equals sign: there it stops, and ignores what follows. -/
theorem parse_consumed_iff (s : Text) :
    (∀ config, parse s = .ok config → Consumed s config) ↔ ¬StrayEquals s := by
  constructor
  · intro consumed stray
    obtain ⟨config, parsed, lost⟩ := notConsumed_of_strayEquals stray
    exact lost (consumed config parsed)
  · intro noStray config parsed
    obtain ⟨pairs, stop, items, stops, applied⟩ := parse_iff.mp parsed
    obtain blank | ⟨blanks, later, blank, rfl⟩ := stops
    · exact ⟨pairs, stop, items, blank, applied⟩
    · exact absurd ⟨pairs, blanks, later, items, blank, config, applied⟩ noStray

theorem not_consumed_sslmode :
    ∃ config, parse "host=db = sslmode=require".toList = .ok config ∧
      ¬Consumed "host=db = sslmode=require".toList config := by
  refine notConsumed_of_strayEquals ⟨[("host".toList, "db".toList)], [' '], " sslmode=require".toList,
    .next ((parameter_iff []).mp (by decide +kernel)) (.done _), ?_, _, rfl⟩
  exact fun char blank => List.mem_singleton.mp blank ▸ rfl

/-! ### Rendering -/

/-- A parameter as it is written: its keyword and value, the blanks around its
equals sign and behind its value, and whether the value is in quotes. -/
structure Written where
  keyword : Text
  value : Text
  beforeEq : Text
  afterEq : Text
  quoted : Bool
  behind : Text
  deriving DecidableEq, Repr

namespace Written

structure Valid (written : Written) : Prop where
  keyword : KeyText written.keyword
  beforeEq : Blank written.beforeEq
  afterEq : Blank written.afterEq
  behind : Blank written.behind
  nonempty : written.quoted = false → written.value ≠ []

instance (written : Written) : Decidable written.Valid :=
  decidable_of_iff (KeyText written.keyword ∧ Blank written.beforeEq ∧ Blank written.afterEq ∧
      Blank written.behind ∧ (written.quoted = false → written.value ≠ []))
    ⟨fun all => ⟨all.1, all.2.1, all.2.2.1, all.2.2.2.1, all.2.2.2.2⟩,
      fun valid => ⟨valid.keyword, valid.beforeEq, valid.afterEq, valid.behind, valid.nonempty⟩⟩

def escape (special : Char → Bool) (char : Char) : Text :=
  if special char || char == '\\' then ['\\', char] else [char]

/-- A value without quotes. -/
def simple : Text → Text
  | [] => []
  | char :: rest =>
      escape (fun char => isWhitespace char || char == '\'') char ++ rest.flatMap (escape isWhitespace)

def valueText (written : Written) : Text :=
  if written.quoted then '\'' :: (written.value.flatMap (escape (· == '\'')) ++ ['\''])
  else simple written.value

def text (written : Written) : Text :=
  written.keyword ++ written.beforeEq ++ '=' :: written.afterEq ++ written.valueText ++ written.behind

def pair (written : Written) : Text × Text := (written.keyword, written.value)

def render (settings : List Written) : Text := settings.flatMap text

theorem escape_escaped {stops special : Char → Bool}
    (stopped : ∀ char, special char = false → stops char = false) (char : Char) {raw value : Text}
    (body : Escaped stops raw value) : Escaped stops (escape special char ++ raw) (char :: value) := by
  rw [escape]
  split
  · exact .escape char body
  · rename_i plain
    rw [Bool.not_eq_true, Bool.or_eq_false_iff, beq_eq_false_iff_ne] at plain
    exact .char (stopped char plain.1) plain.2 body

theorem escaped_flatMap (stops : Char → Bool) (value : Text) :
    Escaped stops (value.flatMap (escape stops)) value := by
  induction value with
  | nil => exact .nil
  | cons char value ih => exact escape_escaped (fun _ plain => plain) char ih

theorem simple_escaped (value : Text) : Escaped isWhitespace (simple value) value := by
  cases value with
  | nil => exact .nil
  | cons char rest =>
      refine escape_escaped (fun char plain => ?_) char (escaped_flatMap isWhitespace rest)
      exact (Bool.or_eq_false_iff.mp plain).1

theorem simple_unquoted (value : Text) : (simple value).head? ≠ some '\'' := by
  cases value with
  | nil => exact nofun
  | cons char rest =>
      rw [simple, escape]
      split
      · exact nofun
      · rename_i plain
        intro quote
        obtain rfl := Option.some.inj quote
        exact plain (by decide)

theorem valueText_written {written : Written} (valid : written.Valid) {later : Text}
    (ends : written.quoted = false → EndsValue later) :
    ValueText (written.valueText ++ later) written.value later := by
  rw [Written.valueText]
  cases quoting : written.quoted with
  | true =>
      have text : ValueText ('\'' :: (written.value.flatMap (escape (· == '\'')) ++ '\'' :: later))
          written.value later := .quoted (escaped_flatMap (· == '\'') written.value)
      simpa using text
  | false =>
      exact .simple (simple_escaped _) (valid.nonempty quoting) (simple_unquoted _) (ends quoting)

theorem endsValue_behind {written : Written} (valid : written.Valid) {rest : Text}
    (apart : rest ≠ [] → written.behind ≠ []) : EndsValue (written.behind ++ rest) := by
  intro char first
  cases behind : written.behind with
  | nil =>
      rw [behind, List.nil_append] at first
      exact absurd behind (apart fun empty => by rw [empty] at first; cases first)
  | cons blank blanks =>
      rw [behind] at first
      obtain rfl := Option.some.inj first
      exact valid.behind blank (behind ▸ List.mem_cons_self)

theorem items_render {settings : List Written} (valid : ∀ written ∈ settings, written.Valid)
    (apart : ∀ written ∈ settings.dropLast, written.quoted = false → written.behind ≠ [])
    {before : Text} (beforeBlank : Blank before) :
    ∃ blanks, Blank blanks ∧
      Items Setting (before ++ render settings) (settings.map pair) blanks := by
  induction settings generalizing before with
  | nil => exact ⟨before, beforeBlank, by rw [render, List.flatMap_nil, List.append_nil]; exact .done before⟩
  | cons written settings ih =>
      obtain ⟨first, others⟩ := List.forall_mem_cons.mp valid
      have apartLater : ∀ written ∈ settings.dropLast, written.quoted = false → written.behind ≠ [] := by
        intro other member
        cases settings with
        | nil => cases member
        | cons next settings => exact apart other (List.mem_cons_of_mem _ member)
      have ends (unquoted : written.quoted = false) : EndsValue (written.behind ++ render settings) := by
        refine endsValue_behind first fun more => ?_
        cases settings with
        | nil => exact absurd rfl more
        | cons next settings => exact apart written List.mem_cons_self unquoted
      obtain ⟨blanks, blank, items⟩ := ih others apartLater first.behind
      refine ⟨blanks, blank, ?_⟩
      have setting := Setting.mk beforeBlank first.keyword first.beforeEq first.afterEq
        (valueText_written first ends)
      have same : before ++ render (written :: settings) =
          before ++ (written.keyword ++ (written.beforeEq ++ '=' ::
            (written.afterEq ++ (written.valueText ++ (written.behind ++ render settings))))) := by
        simp [render, text]
      rw [same]
      exact .next setting items

/-- The parser takes from a rendering the settings that are written in it, in
their order and up to its end, and the configuration is made of them. -/
theorem parameter_render (settings : List Written) (valid : ∀ written ∈ settings, written.Valid)
    (apart : ∀ written ∈ settings.dropLast, written.quoted = false → written.behind ≠ []) :
    (∃ blanks, Blank blanks ∧ parameter (render settings) blanks = .ok none ∧
      Items (fun rest pair later => parameter (render settings) rest = .ok (some (pair, later)))
        (render settings) (settings.map pair) blanks) ∧
    parse (render settings) = applyAll .new (settings.map pair) := by
  have noBlanks : Blank [] := nofun
  obtain ⟨blanks, blank, items⟩ := items_render valid apart noBlanks
  refine ⟨⟨blanks, blank, (parameter_none _).mpr (.inl blank), ?_⟩, parse_of_items items (.inl blank)⟩
  exact items.imp fun rest pair later setting => (parameter_iff _).mpr setting

/-- A password with a quote, blanks and a backslash at its end, and an empty value. -/
private def fizz : List Written :=
  [⟨"user".toList, "'f o\\".toList, "\t".toList, "\r\n\x0b".toList, false, " ".toList⟩,
    ⟨"password".toList, " fizz 'buzz\\".toList, [], [], true, []⟩,
    ⟨"application_name".toList, [], " ".toList, " ".toList, true, " ".toList⟩]

theorem parameter_render_fizz :
    render fizz = "user\t=\r\n\x0b\\'f\\ o\\\\ password=' fizz \\'buzz\\\\'application_name = '' ".toList ∧
      parse (render fizz) = .ok { Config.new with
        user := some "'f o\\".toList, password := some (Utf8.encode " fizz 'buzz\\".toList),
        applicationName := some [] } :=
  ⟨by decide +kernel,
    (parameter_render fizz (by decide +kernel) (by decide +kernel)).2.trans (by decide +kernel)⟩

end Written

end OpenGauss.Driver.Parser
