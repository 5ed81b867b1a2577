import OpenGauss.Mcp.Interval
import OpenGauss.Protocol.BigEndian
import Mathlib.Data.Nat.Digits.Lemmas
import Mathlib.Data.Set.Defs

/-! What the text of an INTERVAL value says: months and days with their signs, but
a time of day that has lost its sign, so that a value below zero is not the one
that its text denotes. -/

set_option autoImplicit false

namespace OpenGauss.Mcp

open Driver Lib Protocol OpenGauss.Types

/-! ### Reading the text -/

/-- The number before a unit, if these are the next words, and the words left. -/
def readUnit (unit : Text) (words : List Text) : Option (Int × List Text) :=
  if words[1]? = some unit then
    (Numeral.parseSigned (2 ^ 31) (words.headD [])).map fun number => (number, words.drop 2)
  else some (0, words)

/-- The digits behind the point: six, if any. -/
def readFraction (digits : Option Text) : Option Nat :=
  digits.elim (some 0) fun digits =>
    (Numeral.magnitude? digits).filter fun _ => digits.length = 6

/-- `H:MM:SS` or `H:MM:SS.ffffff`, in microseconds. -/
def readUnsignedClock (clock : Text) : Option Nat :=
  match clock.splitOn ':' with
  | [hours, minutes, seconds] => do
      let h ← Numeral.magnitude? hours
      let m ← Numeral.magnitude? minutes
      let s ← Numeral.magnitude? (Text.splitTwo '.' seconds).1
      let frac ← readFraction (Text.splitTwo '.' seconds).2
      some (((h * 60 + m) * 60 + s) * 1000000 + frac)
  | _ => none

/-- A clock with a minus sign in front of it denotes a time below zero. -/
def readClock (clock : Text) : Option Int :=
  match Text.stripPrefix? ['-'] clock with
  | some clock => (readUnsignedClock clock).map fun micros => -(micros : Int)
  | none => (readUnsignedClock clock).map fun micros => (micros : Int)

def readTime : List Text → Option Int
  | [] => some 0
  | [clock] => readClock clock
  | _ => none

def readWords (words : List Text) : Option Interval := do
  let (years, words) ← readUnit "years".toList words
  let (mons, words) ← readUnit "mons".toList words
  let (days, words) ← readUnit "days".toList words
  let micros ← readTime words
  some ⟨micros, days, years * 12 + mons⟩

/-- The value that a text denotes. -/
def readInterval (text : Text) : Option Interval := readWords (text.splitOn ' ')

/-! ### The clock -/

/-- The seconds that the clock of a time shows: they have no sign. -/
def clockSeconds (micros : Int) : Nat := (micros / 1000000).natAbs

/-- The microseconds behind its seconds. -/
def clockFraction (micros : Int) : Nat := (micros % 1000000).natAbs

/-- What the clock shows, in microseconds. -/
def clockMicros (micros : Int) : Nat := clockSeconds micros * 1000000 + clockFraction micros

theorem clockFraction_lt (micros : Int) : clockFraction micros < 1000000 := by
  rw [clockFraction]
  omega

theorem bind_of {Value Next : Type} {first : Option Value} {value : Value}
    {next : Value → Option Next} (same : first = some value) : (first >>= next) = next value := by
  rw [same]
  rfl

theorem inSigned_of {bits : Nat} {value : Int} (small : value.natAbs < 2 ^ (bits - 1)) :
    inSigned bits value = some value := by
  have bound : ((2 ^ (bits - 1) : Nat) : Int) = 2 ^ (bits - 1) := by push_cast; rfl
  refine if_pos ⟨?_, ?_⟩ <;> omega

theorem inI32 {value : Int} (small : value.natAbs < 2 ^ 31) : inSigned 32 value = some value :=
  inSigned_of small

theorem inI64 {value : Int} (small : value.natAbs < 2 ^ 63) : inSigned 64 value = some value :=
  inSigned_of small

theorem absInI64 {value : Int} (small : value.natAbs < 2 ^ 63) :
    absIn 64 value = some (value.natAbs : Int) :=
  inI64 small

/-- No step of the clock overflows. -/
theorem timePart_eq {micros : Int} (least : -2 ^ 63 ≤ micros) (below : micros < 2 ^ 63) :
    timePart micros =
      some (clockText (clockSeconds micros / 3600 : Nat) (clockSeconds micros % 3600 / 60 : Nat)
        (clockSeconds micros % 60 : Nat) (clockFraction micros)) := by
  have total : (micros / 1000000).natAbs < 2 ^ 63 := by omega
  have fraction : (micros % 1000000).natAbs < 2 ^ 63 := by omega
  have hours : ((micros / 1000000).tdiv 3600).natAbs = clockSeconds micros / 3600 :=
    Int.natAbs_tdiv ..
  have ofHour : ((micros / 1000000).tmod 3600).natAbs = clockSeconds micros % 3600 :=
    Int.natAbs_tmod ..
  have minutes : (((micros / 1000000).tmod 3600).tdiv 60).natAbs =
      clockSeconds micros % 3600 / 60 := by
    rw [← ofHour]
    exact Int.natAbs_tdiv ..
  have seconds : ((micros / 1000000).tmod 60).natAbs = clockSeconds micros % 60 :=
    Int.natAbs_tmod ..
  have small : clockSeconds micros < 2 ^ 63 := total
  have hoursFit : ((micros / 1000000).tdiv 3600).natAbs < 2 ^ 63 := by omega
  have ofHourFits : ((micros / 1000000).tmod 3600).natAbs < 2 ^ 63 := by omega
  have minutesFit : (((micros / 1000000).tmod 3600).tdiv 60).natAbs < 2 ^ 63 := by omega
  have secondsFit : ((micros / 1000000).tmod 60).natAbs < 2 ^ 63 := by omega
  rw [timePart, bind_of (inI64 total), bind_of (inI64 fraction), bind_of (absInI64 fraction),
    bind_of (inI64 hoursFit), bind_of (inI64 ofHourFits), bind_of (inI64 minutesFit),
    bind_of (inI64 secondsFit), bind_of (absInI64 hoursFit), bind_of (absInI64 minutesFit),
    bind_of (absInI64 secondsFit), hours, minutes, seconds]
  rfl

/-! ### Reading the clock -/

theorem not_mem_zeroPadded (char : Char) (other : char.isDigit = false) (width value : Nat) :
    char ∉ Numeral.zeroPadded width value :=
  Numeral.not_mem_of_digits (Numeral.zeroPadded_digits width value) other

/-- The seconds of a clock, and the fraction behind them if there is one. -/
def secondsText (s frac : Nat) : Text :=
  Numeral.zeroPadded 2 s ++ if (0 : Int) < frac then '.' :: Numeral.zeroPadded 6 frac else []

theorem clockText_eq (h m s frac : Nat) :
    clockText h m s frac =
      Numeral.zeroPadded 2 h ++ ':' :: (Numeral.zeroPadded 2 m ++ ':' :: secondsText s frac) := by
  rw [clockText, secondsText, List.append_assoc, List.append_assoc, List.cons_append,
    List.cons_append]

theorem splitTwo_secondsText (s frac : Nat) :
    Text.splitTwo '.' (secondsText s frac) =
      (Numeral.zeroPadded 2 s, if (0 : Int) < frac then some (Numeral.zeroPadded 6 frac) else none) := by
  have digits := not_mem_zeroPadded '.' rfl 2 s
  rw [secondsText]
  split
  · exact Text.splitTwo_append digits _
  · rw [List.append_nil, Text.splitTwo_single digits]

theorem not_mem_secondsText (char : Char) (other : char.isDigit = false) (notPoint : char ≠ '.')
    (s frac : Nat) : char ∉ secondsText s frac := by
  intro member
  rw [secondsText] at member
  cases List.mem_append.mp member with
  | inl whole => exact not_mem_zeroPadded char other 2 s whole
  | inr rest =>
      split at rest
      · cases List.mem_cons.mp rest with
        | inl point => exact notPoint point
        | inr fraction => exact not_mem_zeroPadded char other 6 frac fraction
      · exact List.not_mem_nil rest

theorem readFraction_zeroPadded {frac : Nat} (small : frac < 1000000) :
    readFraction (if (0 : Int) < frac then some (Numeral.zeroPadded 6 frac) else none) =
      some frac := by
  split
  · rw [readFraction, Option.elim_some, Numeral.magnitude?_zeroPadded, Option.filter_some,
      if_pos (decide_eq_true (Numeral.zeroPadded_length (by omega) small))]
  · next zero =>
      have same : frac = 0 := by omega
      rw [same]
      rfl

theorem readUnsignedClock_clockText (h m s : Nat) {frac : Nat} (small : frac < 1000000) :
    readUnsignedClock (clockText h m s frac) =
      some (((h * 60 + m) * 60 + s) * 1000000 + frac) := by
  have pieces : (clockText h m s frac).splitOn ':' =
      [Numeral.zeroPadded 2 h, Numeral.zeroPadded 2 m, secondsText s frac] := by
    rw [clockText_eq, List.splitOn_append_cons_self_of_not_mem (not_mem_zeroPadded ':' rfl 2 h),
      List.splitOn_append_cons_self_of_not_mem (not_mem_zeroPadded ':' rfl 2 m),
      List.splitOn_eq_singleton (not_mem_secondsText ':' rfl (by decide) s frac)]
  simp only [readUnsignedClock, pieces, Numeral.magnitude?_zeroPadded, splitTwo_secondsText,
    readFraction_zeroPadded small, Option.bind_eq_bind, Option.bind_some]

theorem readClock_clockText (h m s : Nat) {frac : Nat} (small : frac < 1000000) :
    readClock (clockText h m s frac) =
      some ((((h * 60 + m) * 60 + s) * 1000000 + frac : Nat) : Int) := by
  have unsigned : Text.stripPrefix? ['-'] (clockText h m s frac) = none := by
    have digits := Numeral.zeroPadded_digits 2 h
    have filled : 0 < (Numeral.zeroPadded 2 h).length := by
      rw [Numeral.zeroPadded_natCast, List.length_append]
      exact Nat.add_pos_right _ Nat.length_toDigits_pos
    rw [clockText_eq]
    cases shown : Numeral.zeroPadded 2 h with
    | nil =>
        rw [shown] at filled
        cases filled
    | cons char chars =>
        rw [shown] at digits
        have notMinus : ('-' == char) = false := beq_eq_false_iff_ne.mpr fun minus =>
          absurd (minus ▸ digits char List.mem_cons_self) (by decide)
        refine Text.stripPrefix?_none ?_
        rw [List.cons_append, List.isPrefixOf_cons_cons, notMinus, Bool.false_and]
  rw [readClock, unsigned, readUnsignedClock_clockText h m s small]
  rfl

/-- The clock of a time says what it shows. -/
theorem readClock_timePart {micros : Int} (least : -2 ^ 63 ≤ micros) (below : micros < 2 ^ 63) :
    (timePart micros).bind readClock = some (clockMicros micros : Int) := by
  have whole : (clockSeconds micros / 3600 * 60 + clockSeconds micros % 3600 / 60) * 60 +
      clockSeconds micros % 60 = clockSeconds micros := by omega
  rw [timePart_eq least below, Option.bind_some, readClock_clockText _ _ _ (clockFraction_lt micros),
    whole, clockMicros]

/-! ### The words -/

theorem splitOn_intercalate_flatMap (separator : Char) {parts : List Text} (filled : parts ≠ []) :
    ([separator].intercalate parts).splitOn separator =
      parts.flatMap fun part => part.splitOn separator := by
  induction parts with
  | nil => exact absurd rfl filled
  | cons part parts ih =>
      cases parts with
      | nil => rw [List.intercalate_singleton, List.flatMap_singleton]
      | cons next parts =>
          rw [List.intercalate_cons_cons, List.append_assoc, List.singleton_append,
            List.splitOn_append_cons_self, ih (List.cons_ne_nil _ _)]
          rfl

/-- The words of a number and its unit. -/
def unitWords (unit : Text) (number : Int) : List Text :=
  if number ≠ 0 then [Numeral.showSigned number, unit] else []

theorem unitPart_words {unit : Text} (oneWord : ' ' ∉ unit) (number : Int) :
    ((unitPart unit number).flatMap fun part => part.splitOn ' ') = unitWords unit number := by
  have number? : ' ' ∉ Numeral.showSigned number := by
    intro member
    cases Numeral.showSigned_chars number ' ' member with
    | inl minus => exact absurd minus (by decide)
    | inr digit => exact absurd digit (by decide)
  rw [unitPart, unitWords]
  split
  · rw [List.flatMap_singleton, List.splitOn_append_cons_self_of_not_mem number?,
      List.splitOn_eq_singleton oneWord]
  · rfl

/-- The second of these words is not this unit. -/
def Apart (unit : Text) (words : List Text) : Prop := words[1]? ≠ some unit

theorem apart_of_short {words : List Text} (short : words.length ≤ 1) (unit : Text) :
    Apart unit words := by
  rw [Apart, List.getElem?_eq_none short]
  exact (Option.some_ne_none unit).symm

theorem Apart.unitWords {unit other : Text} {words : List Text} (apart : Apart unit words)
    (differ : other ≠ unit) (number : Int) : Apart unit (unitWords other number ++ words) := by
  rw [Mcp.unitWords]
  split
  · exact fun same => differ (Option.some.inj same)
  · exact apart

/-- A number that an `i32` can hold is read in front of its unit. -/
theorem readUnit_unitWords {unit : Text} {number : Int} {words : List Text}
    (least : -2 ^ 31 ≤ number) (below : number < 2 ^ 31) (apart : Apart unit words) :
    readUnit unit (unitWords unit number ++ words) = some (number, words) := by
  rw [unitWords]
  split
  · have second : (Numeral.showSigned number :: unit :: words)[1]? = some unit := rfl
    rw [List.cons_append, List.cons_append, List.nil_append, readUnit, if_pos second,
      List.headD_cons, Numeral.parseSigned_showSigned least below]
    rfl
  · next zero =>
      rw [List.nil_append, readUnit, if_neg apart, Decidable.not_not.mp zero]

theorem readWords_unitWords {years mons days micros : Int} {clock : List Text}
    (yearsLeast : -2 ^ 31 ≤ years) (yearsBelow : years < 2 ^ 31)
    (monsLeast : -2 ^ 31 ≤ mons) (monsBelow : mons < 2 ^ 31)
    (daysLeast : -2 ^ 31 ≤ days) (daysBelow : days < 2 ^ 31)
    (short : clock.length ≤ 1) (time : readTime clock = some micros) :
    readWords (unitWords "years".toList years ++ (unitWords "mons".toList mons ++
      (unitWords "days".toList days ++ clock))) = some ⟨micros, days, years * 12 + mons⟩ := by
  have daysApart := apart_of_short short
  have daysMons : "days".toList ≠ "mons".toList := by decide
  have daysYears : "days".toList ≠ "years".toList := by decide
  have monsYears : "mons".toList ≠ "years".toList := by decide
  have monsApart := (daysApart "mons".toList).unitWords daysMons days
  have yearsApart := ((daysApart "years".toList).unitWords daysYears days).unitWords monsYears mons
  rw [readWords, bind_of (readUnit_unitWords yearsLeast yearsBelow yearsApart)]
  dsimp only
  rw [bind_of (readUnit_unitWords monsLeast monsBelow monsApart)]
  dsimp only
  rw [bind_of (readUnit_unitWords daysLeast daysBelow (daysApart _))]
  dsimp only
  rw [bind_of time]

/-! ### The value of a text -/

/-- The integers of an INTERVAL are in the range of their types. -/
structure Interval.InRange (interval : Interval) : Prop where
  microsLeast : -2 ^ 63 ≤ interval.micros
  microsBelow : interval.micros < 2 ^ 63
  daysLeast : -2 ^ 31 ≤ interval.days
  daysBelow : interval.days < 2 ^ 31
  monthsLeast : -2 ^ 31 ≤ interval.months
  monthsBelow : interval.months < 2 ^ 31

/-- A value as it comes from the server. -/
abbrev RawInterval := { raw : Bytes // raw.length = 16 }

def RawInterval.interval (raw : RawInterval) : Interval := Interval.ofBytes raw.val

theorem asI64_inj {word other : Nat} (below : word < 256 ^ 8) (otherBelow : other < 256 ^ 8)
    (same : asI64 word = asI64 other) : word = other := by
  unfold asI64 at same
  split at same <;> split at same <;> omega

theorem asI32_inj {word other : Nat} (below : word < 256 ^ 4) (otherBelow : other < 256 ^ 4)
    (same : asI32 word = asI32 other) : word = other := by
  unfold asI32 at same
  split at same <;> split at same <;> omega

namespace RawInterval

theorem take_length (raw : RawInterval) : (raw.val.take 8).length = 8 := by
  rw [List.length_take, raw.property]
  rfl

theorem middle_length (raw : RawInterval) : ((raw.val.drop 8).take 4).length = 4 := by
  rw [List.length_take, List.length_drop, raw.property]
  rfl

theorem last_length (raw : RawInterval) : ((raw.val.drop 12).take 4).length = 4 := by
  rw [List.length_take, List.length_drop, raw.property]
  rfl

theorem interval_inRange (raw : RawInterval) : raw.interval.InRange := by
  have micros := beNat_lt_pow raw.take_length
  have days := beNat_lt_pow raw.middle_length
  have months := beNat_lt_pow raw.last_length
  constructor <;> simp only [interval, Interval.ofBytes, asI64, asI32] <;> split <;> omega

theorem parts_append (raw : RawInterval) :
    raw.val.take 8 ++ ((raw.val.drop 8).take 4 ++ (raw.val.drop 12).take 4) = raw.val := by
  have rest : (raw.val.drop 12).take 4 = (raw.val.drop 8).drop 4 := by
    rw [List.drop_drop]
    refine List.take_of_length_le ?_
    rw [List.length_drop, raw.property]
  rw [rest, List.take_append_drop, List.take_append_drop]

/-- The three integers say which sixteen bytes they stand in. -/
theorem interval_inj {raw other : RawInterval} (same : raw.interval = other.interval) :
    raw = other := by
  have microsBelow := beNat_lt_pow raw.take_length
  have otherMicros := beNat_lt_pow other.take_length
  have daysBelow := beNat_lt_pow raw.middle_length
  have otherDays := beNat_lt_pow other.middle_length
  have monthsBelow := beNat_lt_pow raw.last_length
  have otherMonths := beNat_lt_pow other.last_length
  have micros : beNat (raw.val.take 8) = beNat (other.val.take 8) :=
    asI64_inj microsBelow otherMicros (congrArg Interval.micros same)
  have days : beNat ((raw.val.drop 8).take 4) = beNat ((other.val.drop 8).take 4) :=
    asI32_inj daysBelow otherDays (congrArg Interval.days same)
  have months : beNat ((raw.val.drop 12).take 4) = beNat ((other.val.drop 12).take 4) :=
    asI32_inj monthsBelow otherMonths (congrArg Interval.months same)
  refine Subtype.ext ?_
  rw [← raw.parts_append, ← other.parts_append,
    beNat_inj raw.take_length other.take_length micros,
    beNat_inj raw.middle_length other.middle_length days,
    beNat_inj raw.last_length other.last_length months]

end RawInterval

/-! ### The parts of the text -/

theorem monthParts_eq {months : Int} (least : -2 ^ 31 ≤ months) (below : months < 2 ^ 31) :
    monthParts months =
      some (unitPart "years".toList (months.tdiv 12) ++ unitPart "mons".toList (months.tmod 12)) := by
  have years : (months.tdiv 12).natAbs = months.natAbs / 12 := Int.natAbs_tdiv ..
  have mons : (months.tmod 12).natAbs = months.natAbs % 12 := Int.natAbs_tmod ..
  rw [monthParts]
  split
  · rw [bind_of (inI32 (by omega)), bind_of (inI32 (by omega))]
    rfl
  · next zero =>
      rw [Decidable.not_not.mp zero]
      rfl

theorem not_mem_clockText (char : Char) (other : char.isDigit = false) (notPoint : char ≠ '.')
    (notColon : char ≠ ':') (h m s frac : Nat) : char ∉ clockText h m s frac := by
  intro member
  rw [clockText_eq] at member
  cases List.mem_append.mp member with
  | inl hours => exact not_mem_zeroPadded char other 2 h hours
  | inr rest =>
      cases List.mem_append.mp ((List.mem_cons.mp rest).resolve_left notColon) with
      | inl minutes => exact not_mem_zeroPadded char other 2 m minutes
      | inr rest =>
          exact not_mem_secondsText char other notPoint s frac
            ((List.mem_cons.mp rest).resolve_left notColon)

/-- What is pushed for a time: nothing if there is none, else one word. -/
structure TimeWords (micros : Int) (words : List Text) : Prop where
  pushed : timeParts micros = some words
  short : words.length ≤ 1
  oneWord : (words.flatMap fun word => word.splitOn ' ') = words
  reads : readTime words = some (clockMicros micros : Int)
  empty : words = [] → micros = 0

theorem exists_timeWords {micros : Int} (least : -2 ^ 63 ≤ micros) (below : micros < 2 ^ 63) :
    ∃ words, TimeWords micros words := by
  by_cases zero : micros = 0
  · rw [zero]
    exact ⟨[], rfl, Nat.zero_le _, rfl, rfl, fun _ => rfl⟩
  · have clock := timePart_eq least below
    have read := readClock_timePart least below
    rw [clock, Option.bind_some] at read
    refine ⟨[_], ?_, le_rfl, ?_, read, fun empty => absurd empty (List.cons_ne_nil _ _)⟩
    · rw [timeParts, if_pos zero, clock]
      rfl
    · rw [List.flatMap_singleton,
        List.splitOn_eq_singleton (not_mem_clockText ' ' rfl (by decide) (by decide) _ _ _ _)]

/-- The parts behind one another. -/
def intervalText (parts : List Text) : Text :=
  if parts.isEmpty then "00:00:00".toList else [' '].intercalate parts

/-- No step overflows, and the text of a value denotes it but for the sign of its time. -/
theorem formatInterval_reads (raw : RawInterval) :
    ∃ text, formatInterval raw.val = some text ∧
      readInterval text = some { raw.interval with micros := clockMicros raw.interval.micros } := by
  have inRange := raw.interval_inRange
  have wide : ¬raw.val.length ≠ 16 := not_not_intro raw.property
  obtain ⟨time, words⟩ := exists_timeWords inRange.microsLeast inRange.microsBelow
  have years : (raw.interval.months.tdiv 12).natAbs = raw.interval.months.natAbs / 12 :=
    Int.natAbs_tdiv ..
  have mons : (raw.interval.months.tmod 12).natAbs = raw.interval.months.natAbs % 12 :=
    Int.natAbs_tmod ..
  have months := Int.tdiv_mul_add_tmod raw.interval.months 12
  have monthsLeast := inRange.monthsLeast
  have monthsBelow := inRange.monthsBelow
  have read : readWords (unitWords "years".toList (raw.interval.months.tdiv 12) ++
      (unitWords "mons".toList (raw.interval.months.tmod 12) ++
        (unitWords "days".toList raw.interval.days ++ time))) =
      some { raw.interval with micros := clockMicros raw.interval.micros } := by
    rw [readWords_unitWords (by omega) (by omega) (by omega) (by omega) inRange.daysLeast
      inRange.daysBelow words.short words.reads, Int.mul_comm, Int.mul_tdiv_add_tmod]
  obtain ⟨parts, same⟩ : ∃ parts, parts = unitPart "years".toList (raw.interval.months.tdiv 12) ++
      unitPart "mons".toList (raw.interval.months.tmod 12) ++
        unitPart "days".toList raw.interval.days ++ time := ⟨_, rfl⟩
  have split : (parts.flatMap fun part => part.splitOn ' ') =
      unitWords "years".toList (raw.interval.months.tdiv 12) ++
        (unitWords "mons".toList (raw.interval.months.tmod 12) ++
          (unitWords "days".toList raw.interval.days ++ time)) := by
    rw [same, List.flatMap_append, List.flatMap_append, List.flatMap_append,
      unitPart_words (by decide), unitPart_words (by decide), unitPart_words (by decide),
      words.oneWord, List.append_assoc, List.append_assoc]
  have run : formatInterval raw.val = some (intervalText parts) := by
    rw [same, formatInterval, if_neg wide]
    exact (bind_of (monthParts_eq monthsLeast monthsBelow)).trans (bind_of words.pushed)
  rw [← split] at read
  refine ⟨_, run, ?_⟩
  cases parts with
  | nil =>
      have midnight : readInterval (intervalText []) = readWords [] := by decide
      exact midnight.trans read
  | cons part parts =>
      rw [← splitOn_intercalate_flatMap ' ' (List.cons_ne_nil _ _)] at read
      exact read

/-! ### Which values are told apart -/

/-- The text of a value denotes it, and no other of these values has that text. -/
def Faithful (values : Set RawInterval) (raw : RawInterval) : Prop :=
  ∃ text, formatInterval raw.val = some text ∧ readInterval text = some raw.interval ∧
    ∀ other ∈ values, formatInterval other.val = some text → other = raw

theorem clockMicros_eq_iff (micros : Int) : (clockMicros micros : Int) = micros ↔ 0 ≤ micros := by
  rw [clockMicros, clockSeconds, clockFraction]
  omega

/-- Values with one text differ in the sign of their time only. -/
theorem interval_of_same_text {raw other : RawInterval} {text : Text}
    (shown : formatInterval raw.val = some text) (otherShown : formatInterval other.val = some text) :
    clockMicros other.interval.micros = clockMicros raw.interval.micros ∧
      other.interval.days = raw.interval.days ∧ other.interval.months = raw.interval.months := by
  obtain ⟨first, firstShown, read⟩ := formatInterval_reads raw
  obtain ⟨second, secondShown, otherRead⟩ := formatInterval_reads other
  have same : first = second := by
    rw [shown, ← otherShown, secondShown] at firstShown
    exact (Option.some.inj firstShown).symm
  rw [same, otherRead] at read
  have values := Interval.mk.inj (Option.some.inj read)
  exact ⟨Int.ofNat.inj values.1, values.2⟩

theorem eq_of_micros {raw other : RawInterval} (micros : other.interval.micros = raw.interval.micros)
    (days : other.interval.days = raw.interval.days)
    (months : other.interval.months = raw.interval.months) : other = raw := by
  refine RawInterval.interval_inj ?_
  cases shown : raw.interval
  cases otherShown : other.interval
  rw [shown, otherShown] at micros days months
  rw [Interval.mk.injEq]
  exact ⟨micros, days, months⟩

theorem timeParts_eq_of_clock {micros other : Int} (least : -2 ^ 63 ≤ micros) (below : micros < 2 ^ 63)
    (otherLeast : -2 ^ 63 ≤ other) (otherBelow : other < 2 ^ 63) (some : micros ≠ 0)
    (otherSome : other ≠ 0) (seconds : clockSeconds other = clockSeconds micros)
    (fraction : clockFraction other = clockFraction micros) :
    timeParts other = timeParts micros := by
  rw [timeParts, timeParts, if_pos some, if_pos otherSome, timePart_eq least below,
    timePart_eq otherLeast otherBelow, seconds, fraction]

/-- A time with another sign in the place of the time of a value. -/
theorem exists_withMicros (raw : RawInterval) {micros : Int} (least : -2 ^ 63 ≤ micros)
    (below : micros < 2 ^ 63) :
    ∃ other : RawInterval, other.interval = { raw.interval with micros } := by
  have small : (micros % 2 ^ 64).toNat < 256 ^ 8 := by omega
  obtain ⟨bytes, long, word⟩ := exists_beNat small
  have sixteen : (bytes ++ raw.val.drop 8).length = 16 := by
    rw [List.length_append, long, List.length_drop, raw.property]
  have first : (bytes ++ raw.val.drop 8).take 8 = bytes := by rw [← long, List.take_left]
  have middle : (bytes ++ raw.val.drop 8).drop 8 = raw.val.drop 8 := by rw [← long, List.drop_left]
  have last : (bytes ++ raw.val.drop 8).drop 12 = raw.val.drop 12 := by
    have twelve : 12 = 8 + 4 := rfl
    rw [twelve, ← List.drop_drop, middle, List.drop_drop]
  have value : asI64 (micros % 2 ^ 64).toNat = micros := by
    unfold asI64
    split <;> omega
  refine ⟨⟨_, sixteen⟩, ?_⟩
  rw [RawInterval.interval, Interval.ofBytes, first, middle, last, word, value]
  rfl

theorem formatInterval_congr {raw other : RawInterval}
    (days : other.interval.days = raw.interval.days)
    (months : other.interval.months = raw.interval.months)
    (time : timeParts other.interval.micros = timeParts raw.interval.micros) :
    formatInterval other.val = formatInterval raw.val := by
  have wide : ¬raw.val.length ≠ 16 := not_not_intro raw.property
  have otherWide : ¬other.val.length ≠ 16 := not_not_intro other.property
  unfold RawInterval.interval at days months time
  rw [formatInterval, formatInterval, if_neg wide, if_neg otherWide]
  dsimp only
  rw [days, months, time]

/-- From one second on, another value has the same text: the one whose seconds have
the other sign. -/
theorem exists_same_text {raw : RawInterval} (second : 1000000 ≤ raw.interval.micros) :
    ∃ other, formatInterval other.val = formatInterval raw.val ∧ other ≠ raw := by
  have least := raw.interval_inRange.microsLeast
  have below := raw.interval_inRange.microsBelow
  obtain ⟨micros, mirrored⟩ : ∃ micros : Int,
      micros = 2 * (raw.interval.micros % 1000000) - raw.interval.micros := ⟨_, rfl⟩
  have negative : micros < raw.interval.micros := by omega
  have some : raw.interval.micros ≠ 0 := by omega
  have mirroredSome : micros ≠ 0 := by omega
  have mirroredLeast : -2 ^ 63 ≤ micros := by omega
  have mirroredBelow : micros < 2 ^ 63 := by omega
  obtain ⟨other, interval⟩ := exists_withMicros raw mirroredLeast mirroredBelow
  have seconds : clockSeconds micros = clockSeconds raw.interval.micros := by
    rw [clockSeconds, clockSeconds]
    omega
  have fraction : clockFraction micros = clockFraction raw.interval.micros := by
    rw [clockFraction, clockFraction]
    omega
  have time : timeParts other.interval.micros = timeParts raw.interval.micros := by
    rw [interval]
    exact timeParts_eq_of_clock least below mirroredLeast mirroredBelow some mirroredSome seconds
      fraction
  refine ⟨other, formatInterval_congr (by rw [interval]) (by rw [interval]) time, ?_⟩
  intro same
  rw [same] at interval
  have unmoved := congrArg Interval.micros interval
  dsimp only at unmoved
  omega

theorem faithful_of_small {raw : RawInterval} (least : 0 ≤ raw.interval.micros)
    (below : raw.interval.micros < 1000000) : Faithful Set.univ raw := by
  obtain ⟨text, shown, read⟩ := formatInterval_reads raw
  refine ⟨text, shown, ?_, ?_⟩
  · rw [read, (clockMicros_eq_iff raw.interval.micros).mpr least]
  · intro other _ otherShown
    obtain ⟨micros, days, months⟩ := interval_of_same_text shown otherShown
    refine eq_of_micros ?_ days months
    rw [clockMicros, clockMicros, clockSeconds, clockSeconds, clockFraction, clockFraction] at micros
    omega

theorem Faithful.nonnegative {values : Set RawInterval} {raw : RawInterval}
    (faithful : Faithful values raw) : 0 ≤ raw.interval.micros := by
  obtain ⟨text, shown, denoted, _⟩ := faithful
  obtain ⟨other, otherShown, read⟩ := formatInterval_reads raw
  rw [shown] at otherShown
  rw [Option.some.inj otherShown, read] at denoted
  exact (clockMicros_eq_iff _).mp (congrArg Interval.micros (Option.some.inj denoted))

theorem Faithful.small {raw : RawInterval} (faithful : Faithful Set.univ raw) :
    raw.interval.micros < 1000000 := by
  obtain ⟨text, shown, _, alone⟩ := faithful
  refine Int.not_le.mp fun second => ?_
  obtain ⟨other, same, differs⟩ := exists_same_text second
  exact differs (alone other (Set.mem_univ other) (same.trans shown))

/-- The text of a value denotes it and is that of no other value exactly when its
time is less than a second and not below zero. Among some values, each text
denotes its value and is that of no other one exactly when no time is below zero. -/
theorem faithful_formatInterval_iff (raw : RawInterval) (values : Set RawInterval) :
    (Faithful Set.univ raw ↔ 0 ≤ raw.interval.micros ∧ raw.interval.micros < 1000000) ∧
      ((∀ raw ∈ values, Faithful values raw) ↔ ∀ raw ∈ values, 0 ≤ raw.interval.micros) := by
  refine ⟨⟨fun faithful => ⟨faithful.nonnegative, faithful.small⟩,
    fun bounds => faithful_of_small bounds.1 bounds.2⟩,
    ⟨fun all raw member => (all raw member).nonnegative, ?_⟩⟩
  intro nonnegative raw member
  obtain ⟨text, shown, read⟩ := formatInterval_reads raw
  refine ⟨text, shown, ?_, ?_⟩
  · rw [read, (clockMicros_eq_iff raw.interval.micros).mpr (nonnegative raw member)]
  · intro other otherMember otherShown
    obtain ⟨micros, days, months⟩ := interval_of_same_text shown otherShown
    refine eq_of_micros ?_ days months
    rw [← (clockMicros_eq_iff _).mpr (nonnegative other otherMember), micros,
      (clockMicros_eq_iff _).mpr (nonnegative raw member)]

/-- One second, and one second before zero. -/
def oneSecond : RawInterval := ⟨[0, 0, 0, 0, 0, 15, 66, 64, 0, 0, 0, 0, 0, 0, 0, 0], rfl⟩

def minusOneSecond : RawInterval :=
  ⟨[255, 255, 255, 255, 255, 240, 189, 192, 0, 0, 0, 0, 0, 0, 0, 0], rfl⟩

theorem not_faithful_formatInterval : ¬∀ raw, Faithful Set.univ raw := by
  intro all
  obtain ⟨text, shown, _, alone⟩ := all minusOneSecond
  have same : formatInterval oneSecond.val = formatInterval minusOneSecond.val := by decide +kernel
  have equal : oneSecond = minusOneSecond := alone oneSecond (Set.mem_univ _) (same.trans shown)
  exact absurd equal (by decide)

end OpenGauss.Mcp
