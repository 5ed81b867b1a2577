import OpenGauss.Gaussdb.Timeouts
import OpenGauss.Lib.NumeralText

/-! The texts that `parse_duration` takes, against the formats that it is documented for
(`gaussdb`, `duration_parse.rs`). -/

set_option autoImplicit false

namespace OpenGauss.Gaussdb

open Lib Lib.Text

/-- The documented suffixes, with their milliseconds. -/
def suffixes : List (List Char × Nat) :=
  [("ms".toList, 1), ("s".toList, 1000), ("m".toList, 60000), ("min".toList, 60000),
    ("minutes".toList, 60000), ("h".toList, 3600000), ("hr".toList, 3600000),
    ("d".toList, 86400000)]

/-- No suffix, for seconds, or one in any letter case. -/
inductive IsUnit : List Char → Nat → Prop where
  | seconds : IsUnit [] 1000
  | suffix {unit word : List Char} {millis : Nat} (listed : (word, millis) ∈ suffixes)
      (same : unit.map Char.toLower = word) : IsUnit unit millis

/-- A number with its unit, of fewer than 2^64 milliseconds. -/
structure IsAmount (text : List Char) (millis : Nat) : Prop where
  parts : ∃ number unit factor, text = number ++ unit ∧ number ≠ [] ∧
    (∀ char ∈ number, char.isDigit = true) ∧ IsUnit unit factor ∧
    Nat.ofDigitChars 10 number 0 * factor = millis
  small : millis < 2 ^ 64

/-- The documented texts are read as they should be, and nothing else is read. -/
def ReadsDuration (text : List Char) : Prop :=
  ∀ duration, parseDuration text = .ok duration ↔
    ∃ millis, IsAmount (trim text) millis ∧ duration = millis * 10 ^ 6

/-- An amount behind a plus sign. -/
def Signed (text : List Char) : Prop :=
  ∃ amount millis, trim text = '+' :: amount ∧ IsAmount amount millis

/-! ### Units -/

theorem lookup_iff_mem {Key Value : Type} [DecidableEq Key] {entries : List (Key × Value)}
    (keys : (entries.map Prod.fst).Nodup) {key : Key} {value : Value} :
    entries.lookup key = some value ↔ (key, value) ∈ entries := by
  induction entries with
  | nil => exact iff_of_false nofun List.not_mem_nil
  | cons entry entries ih =>
      obtain ⟨first, stored⟩ := entry
      obtain ⟨fresh, others⟩ := List.nodup_cons.mp keys
      rw [List.lookup_cons, List.mem_cons, Prod.mk.injEq]
      by_cases same : key = first
      · subst same
        have absent : (key, value) ∉ entries :=
          fun member => fresh (List.mem_map.mpr ⟨_, member, rfl⟩)
        rw [beq_self_eq_true]
        dsimp only
        rw [Option.some.injEq]
        constructor
        · rintro rfl
          exact .inl ⟨rfl, rfl⟩
        · rintro (⟨-, rfl⟩ | member)
          · rfl
          · exact absurd member absent
      · rw [beq_eq_false_iff_ne.mpr same]
        dsimp only
        rw [ih others]
        exact (or_iff_right fun first => same first.1).symm

/-- Only a `k` is the lower case of a character outside of ASCII. -/
theorem lowercaseWord_iff {text word : List Char} (noKelvin : 'k' ∉ word)
    (ascii : ∀ char ∈ word, char.toNat < 128) :
    lowercaseWord text = word ↔ text.map Char.toLower = word := by
  have lower {char : Char} (noKelvin : char ≠ Char.ofNat 0x212A) :
      (if char = Char.ofNat 0x212A then 'k' else char.toLower) = char.toLower := if_neg noKelvin
  constructor
  · rintro rfl
    refine List.map_congr_left fun char member => (lower ?_).symm
    rintro rfl
    exact noKelvin (List.mem_map.mpr ⟨_, member, rfl⟩)
  · rintro rfl
    refine List.map_congr_left fun char member => lower ?_
    rintro rfl
    have small := ascii _ (List.mem_map.mpr ⟨_, member, rfl⟩)
    exact absurd small (by decide)

theorem unitMillis_eq :
    unitMillis = (([], 1000) :: suffixes).map fun entry => (String.ofList entry.1, entry.2) := by
  decide +kernel

theorem suffixes_word {word : List Char} {millis : Nat} (listed : (word, millis) ∈ suffixes) :
    word ≠ [] ∧ 'k' ∉ word ∧ ∀ char ∈ word, char.toNat < 128 ∧ char.isAlpha = true := by
  have all : ∀ entry ∈ suffixes, entry.1 ≠ [] ∧ 'k' ∉ entry.1 ∧
      ∀ char ∈ entry.1, char.toNat < 128 ∧ char.isAlpha = true := by decide +kernel
  exact all _ listed

theorem lookup_unit {unit : List Char} {millis : Nat} :
    unitMillis.lookup (String.ofList (lowercaseWord unit)) = some millis ↔ IsUnit unit millis := by
  have keys : (unitMillis.map Prod.fst).Nodup := by decide +kernel
  rw [lookup_iff_mem keys, unitMillis_eq, List.mem_map]
  constructor
  · rintro ⟨⟨word, factor⟩, listed, same⟩
    obtain ⟨words, rfl⟩ := Prod.mk.inj same
    have lowered := String.ofList_injective words
    rcases List.mem_cons.mp listed with first | listed
    · obtain ⟨rfl, rfl⟩ := Prod.mk.inj first
      obtain rfl : unit = [] := List.map_eq_nil_iff.mp lowered.symm
      exact .seconds
    · obtain ⟨-, noKelvin, ascii⟩ := suffixes_word listed
      exact .suffix listed
        ((lowercaseWord_iff noKelvin fun char member => (ascii char member).1).mp lowered.symm)
  · intro isUnit
    cases isUnit with
    | seconds => exact ⟨([], 1000), List.mem_cons_self, rfl⟩
    | @suffix unit word millis listed same =>
        obtain ⟨-, noKelvin, ascii⟩ := suffixes_word listed
        have lowered :=
          (lowercaseWord_iff noKelvin fun char member => (ascii char member).1).mpr same
        exact ⟨(word, millis), List.mem_cons_of_mem _ listed, by rw [lowered]⟩

theorem isAlpha_of_toLower {char : Char} (letter : char.toLower.isAlpha = true) :
    char.isAlpha = true := by
  by_cases upper : 'A'.val ≤ char.val ∧ char.val ≤ 'Z'.val
  · have isUpper : char.isUpper = true := decide_eq_true upper
    exact Bool.or_eq_true_iff.mpr (.inl isUpper)
  · have same : char.toLower = char := dif_neg upper
    rwa [same] at letter

theorem isAlpha_iff {char : Char} : char.isAlpha = true ↔
    65 ≤ char.toNat ∧ char.toNat ≤ 90 ∨ 97 ≤ char.toNat ∧ char.toNat ≤ 122 := by
  have isUpper : char.isUpper = true ↔ 65 ≤ char.toNat ∧ char.toNat ≤ 90 := decide_eq_true_iff
  have isLower : char.isLower = true ↔ 97 ≤ char.toNat ∧ char.toNat ≤ 122 := by
    refine Bool.and_eq_true_iff.trans ?_
    rw [decide_eq_true_eq, decide_eq_true_eq]
    rfl
  exact Bool.or_eq_true_iff.trans (or_congr isUpper isLower)

theorem visible_of_isAlpha {char : Char} (letter : char.isAlpha = true) :
    isWhitespace char = false := by
  have code := isAlpha_iff.mp letter
  simp only [isWhitespace, Bool.or_eq_false_iff, Bool.and_eq_false_iff, decide_eq_false_iff_not,
    beq_eq_false_iff_ne]
  omega

theorem not_isAlpha_of_isDigit {char : Char} (digit : char.isDigit = true) :
    char.isAlpha = false := by
  rw [Char.isDigit, Bool.and_eq_true, decide_eq_true_eq, decide_eq_true_eq] at digit
  have most : char.toNat ≤ 57 := digit.2
  refine Bool.eq_false_iff.mpr fun letter => ?_
  have code := isAlpha_iff.mp letter
  omega

theorem IsUnit.alpha {unit : List Char} {millis : Nat} (isUnit : IsUnit unit millis) :
    ∀ char ∈ unit, char.isAlpha = true := by
  cases isUnit with
  | seconds => exact nofun
  | suffix listed same =>
      subst same
      obtain ⟨-, -, letters⟩ := suffixes_word listed
      exact fun char member =>
        isAlpha_of_toLower (letters _ (List.mem_map_of_mem member)).2

/-! ### Numbers and units -/

/-- Where the unit begins: at the first letter, if there is one. -/
structure IsSplit (text number unit : List Char) : Prop where
  whole : text = number ++ unit
  noLetter : ∀ char ∈ number, char.isAlpha = false
  letter : ∀ first ∈ unit.head?, first.isAlpha = true

theorem splitAtFirst_split (text : List Char) :
    IsSplit text ((splitAtFirst Char.isAlpha text).getD (text, [])).1
      ((splitAtFirst Char.isAlpha text).getD (text, [])).2 := by
  obtain inside | ⟨front, stop, rest, rfl, inside, stops⟩ := first_end Char.isAlpha text
  · rw [splitAtFirst_none inside]
    exact ⟨(List.append_nil _).symm, inside, nofun⟩
  · rw [splitAtFirst_append inside stops]
    exact ⟨rfl, inside, fun first same => Option.some.inj same ▸ stops⟩

theorem IsSplit.eq {text number unit : List Char} (split : IsSplit text number unit) :
    (splitAtFirst Char.isAlpha text).getD (text, []) = (number, unit) := by
  obtain ⟨rfl, noLetter, letter⟩ := split
  cases unit with
  | nil =>
      rw [List.append_nil, splitAtFirst_none noLetter]
      rfl
  | cons first unit =>
      rw [splitAtFirst_append noLetter (letter first rfl)]
      rfl

/-- The unit of a trimmed text has no blanks around it. -/
theorem IsSplit.trim_unit {text number unit : List Char}
    (split : IsSplit (trim text) number unit) : trim unit = unit := by
  cases shown : unit.getLast? with
  | none =>
      rw [List.getLast?_eq_none_iff.mp shown]
      rfl
  | some last =>
      have filled : unit ≠ [] := by
        rintro rfl
        cases shown
      obtain ⟨first, rest, rfl⟩ := List.exists_cons_of_ne_nil filled
      refine trim_ends rfl (visible_of_isAlpha (split.letter first rfl)) shown (trim_shown text last ?_)
      rw [split.whole, List.getLast?_append, shown]
      rfl

/-- What is read: an amount, perhaps behind a plus sign. -/
theorem parseDuration_iff {text : List Char} {duration : Duration} :
    parseDuration text = .ok duration ↔ ∃ sign amount millis, trim text = sign ++ amount ∧
      (sign = [] ∨ sign = ['+']) ∧ IsAmount amount millis ∧ duration = millis * 10 ^ 6 := by
  have split := splitAtFirst_split (trim text)
  constructor
  · intro read
    rw [parseDuration] at read
    generalize (splitAtFirst Char.isAlpha (trim text)).getD (trim text, []) = parts at read split
    obtain ⟨number, unit⟩ := parts
    dsimp only at read split
    rw [split.trim_unit] at read
    split at read
    · cases read
    · split at read
      · cases read
      · split at read
        · cases read
        · next value parsed =>
            split at read
            · cases read
            · next factor found =>
                split at read
                · next small =>
                    obtain ⟨sign, digits, rfl, signs, filled, decimal, rfl, -⟩ :=
                      Numeral.parseUnsigned_iff.mp parsed
                    refine ⟨sign, digits ++ unit, _, ?_, signs, ⟨⟨digits, unit, factor, rfl, filled,
                      decimal, lookup_unit.mp found, rfl⟩, small⟩, (Except.ok.inj read).symm⟩
                    rw [split.whole, List.append_assoc]
                · cases read
  · rintro ⟨sign, amount, millis, whole, signs, ⟨⟨number, unit, factor, rfl, filled, decimal,
      isUnit, rfl⟩, small⟩, rfl⟩
    have positive : 0 < factor := by
      cases isUnit with
      | seconds => decide
      | suffix listed =>
          have all : ∀ entry ∈ suffixes, 0 < entry.2 := by decide +kernel
          exact all _ listed
    have parsed : Numeral.parseUnsigned (2 ^ 64) (sign ++ number) =
        some (Nat.ofDigitChars 10 number 0) :=
      Numeral.parseUnsigned_iff.mpr ⟨sign, number, rfl, signs, filled, decimal, rfl,
        Nat.lt_of_le_of_lt (Nat.le_mul_of_pos_right _ positive) small⟩
    have parts : IsSplit (trim text) (sign ++ number) unit := by
      refine ⟨by rw [whole, List.append_assoc], fun char member => ?_, fun first member =>
        isUnit.alpha first (List.mem_of_mem_head? member)⟩
      rcases List.mem_append.mp member with signed | digit
      · rcases signs with rfl | rfl
        · cases signed
        · rw [List.mem_singleton.mp signed]
          rfl
      · exact not_isAlpha_of_isDigit (decimal char digit)
    have filledNumber : sign ++ number ≠ [] := List.append_ne_nil_of_right_ne_nil _ filled
    have filledText : trim text ≠ [] := by
      rw [parts.whole]
      exact List.append_ne_nil_of_left_ne_nil filledNumber _
    rw [parseDuration]
    dsimp only
    rw [if_neg filledText, parts.eq]
    dsimp only
    rw [if_neg filledNumber, parsed, parts.trim_unit]
    dsimp only
    rw [lookup_unit.mpr isUnit]
    exact if_pos small

/-- An amount begins with a digit. -/
theorem IsAmount.unsigned {amount rest : List Char} {millis : Nat} (isAmount : IsAmount amount millis) :
    amount ≠ '+' :: rest := by
  rintro rfl
  obtain ⟨number, unit, factor, whole, filled, decimal, -, -⟩ := isAmount.parts
  obtain ⟨first, digits, rfl⟩ := List.exists_cons_of_ne_nil filled
  have digit := decimal first List.mem_cons_self
  rw [← (List.cons.inj whole).1] at digit
  exact absurd digit (by decide)

theorem not_readsDuration_signed {text : List Char} (signed : Signed text) :
    ¬ReadsDuration text := by
  intro reads
  obtain ⟨amount, millis, whole, isAmount⟩ := signed
  have read := parseDuration_iff.mpr ⟨['+'], amount, millis, whole, .inr rfl, isAmount, rfl⟩
  obtain ⟨other, documented, -⟩ := (reads _).mp read
  rw [whole] at documented
  exact documented.unsigned rfl

/-- A text is read as it is documented exactly if it is no amount behind a plus sign. -/
theorem readsDuration_iff (text : List Char) : ReadsDuration text ↔ ¬Signed text := by
  constructor
  · exact fun reads signed => not_readsDuration_signed signed reads
  · intro unsigned duration
    rw [parseDuration_iff]
    constructor
    · rintro ⟨sign, amount, millis, whole, rfl | rfl, isAmount, same⟩
      · exact ⟨millis, whole ▸ isAmount, same⟩
      · exact absurd ⟨amount, millis, whole, isAmount⟩ unsigned
    · rintro ⟨millis, isAmount, same⟩
      exact ⟨[], trim text, millis, rfl, .inl rfl, isAmount, same⟩

/-- Five seconds behind a sign are read. -/
theorem not_readsDuration : ¬ReadsDuration "+5s".toList := by
  refine not_readsDuration_signed ?_
  refine ⟨"5s".toList, 5000, rfl, ⟨"5".toList, "s".toList, 1000, rfl, by decide, by decide, ?_, rfl⟩,
    by decide⟩
  exact .suffix (by decide) rfl

end OpenGauss.Gaussdb
