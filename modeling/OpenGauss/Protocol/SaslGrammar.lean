import OpenGauss.Lib.NumeralText
import OpenGauss.Protocol.SaslRuns

/-! The messages of the server against their grammar (RFC 5802): which strings the parser
takes, and what it makes of them. -/

set_option autoImplicit false

namespace OpenGauss.Protocol.Sasl.Parser

open Lib

/-! ### The grammar -/

/-- `printable`, for a string of such characters. -/
def Printables (text : List Char) : Prop := ∀ char ∈ text, isPrintable char = true

/-- Characters of the base64 alphabet and its padding. -/
def Base64s (text : List Char) : Prop := ∀ char ∈ text, isBase64 char = true

/-- `value-char`. -/
def ValueChar (char : Char) : Prop := char ≠ '\x00' ∧ char ≠ '=' ∧ char ≠ ','

/-- `value`. -/
def Value (text : List Char) : Prop := text ≠ [] ∧ ∀ char ∈ text, ValueChar char

/-- A server's first message, up to the digits of its iteration count. -/
def firstMessage (nonce salt digits : List Char) : List Char :=
  'r' :: '=' :: (nonce ++ ',' :: 's' :: '=' :: (salt ++ ',' :: 'i' :: '=' :: digits))

/-- The final message is read as its grammar says. -/
def ReadsFinal (s : List Char) : Prop :=
  (∀ verifier, serverFinalMessage s = .ok (.verifier verifier) ↔
    s = 'v' :: '=' :: verifier ∧ Base64s verifier) ∧
  ∀ error, serverFinalMessage s = .ok (.error error) ↔ s = 'e' :: '=' :: error ∧ Value error

/-- The first message is read as its grammar says: its count is a `posit-number`, which
does not begin with a zero. -/
def ReadsFirst (s : List Char) : Prop :=
  ∀ message, serverFirstMessage s = .ok message ↔
    Printables message.nonce ∧ Base64s message.salt ∧
      0 < message.iterationCount ∧ message.iterationCount < 2 ^ 32 ∧
      s = firstMessage message.nonce message.salt (Nat.toDigits 10 message.iterationCount)

/-! ### The parts of a message -/

theorem bind_ok_iff {Error First Second : Type} {first : Except Error First}
    {next : First → Except Error Second} {result : Second} :
    first >>= next = .ok result ↔ ∃ value, first = .ok value ∧ next value = .ok result := by
  cases first with
  | error error => exact ⟨fun ran => (by cases ran), fun found => (nomatch found.choose_spec.1)⟩
  | ok value =>
      constructor
      · exact fun ran => ⟨value, rfl, ran⟩
      · intro found
        obtain ⟨other, same, ran⟩ := found
        cases same
        exact ran

theorem eat_iff {s rest left : List Char} {target : Char} :
    eat s target rest = .ok left ↔ rest = target :: left := by
  refine ⟨eat_ok, ?_⟩
  rintro rfl
  rw [eat, if_pos rfl]

theorem eof_iff {s rest : List Char} {done : Unit} : eof s rest = .ok done ↔ rest = [] := by
  refine ⟨eof_ok, ?_⟩
  rintro rfl
  rw [eof, if_pos rfl]

/-- A piece of allowed characters, and what cannot belong to it. -/
def Stops (allowed : Char → Bool) (left : List Char) : Prop :=
  ∀ char, left.head? = some char → allowed char = false

theorem takeWhile_stops {allowed : Char → Bool} {value left : List Char}
    (all : ∀ char ∈ value, allowed char = true) (stops : Stops allowed left) :
    (value ++ left).takeWhile allowed = value ∧ (value ++ left).dropWhile allowed = left := by
  induction value with
  | nil =>
      cases left with
      | nil => exact ⟨rfl, rfl⟩
      | cons char left =>
          have stop := stops char rfl
          rw [List.nil_append, List.takeWhile_cons, List.dropWhile_cons, stop]
          exact ⟨rfl, rfl⟩
  | cons char value ih =>
      obtain ⟨taken, dropped⟩ := ih fun other member => all other (List.mem_cons_of_mem _ member)
      rw [List.cons_append, List.takeWhile_cons, List.dropWhile_cons,
        all char List.mem_cons_self, if_pos rfl, if_pos rfl, taken]
      exact ⟨rfl, dropped⟩

theorem dropWhile_stops (allowed : Char → Bool) (text : List Char) :
    Stops allowed (text.dropWhile allowed) := by
  induction text with
  | nil => exact fun char same => nomatch same
  | cons first text ih =>
      rw [List.dropWhile_cons]
      split
      · exact ih
      · next other =>
          intro char same
          rw [← Option.some.inj same]
          exact Bool.eq_false_iff.mpr other

theorem field_iff {s rest value left : List Char} {name : Char} {allowed : Char → Bool} :
    field s name allowed rest = .ok (value, left) ↔
      rest = name :: '=' :: (value ++ left) ∧ (∀ char ∈ value, allowed char = true) ∧
        Stops allowed left := by
  rw [field, bind_ok_iff]
  constructor
  · intro read
    obtain ⟨behind, first, read⟩ := read
    obtain ⟨tail, second, last⟩ := bind_ok_iff.mp read
    obtain ⟨rfl, rfl⟩ := Prod.mk.inj (Except.ok.inj last)
    rw [eat_iff.mp first, eat_iff.mp second, List.takeWhile_append_dropWhile]
    exact ⟨rfl, fun char member => List.mem_takeWhile_imp member, dropWhile_stops allowed tail⟩
  · intro written
    obtain ⟨rfl, all, stops⟩ := written
    obtain ⟨taken, dropped⟩ := takeWhile_stops all stops
    refine ⟨_, eat_iff.mpr rfl, bind_ok_iff.mpr ⟨_, eat_iff.mpr rfl, ?_⟩⟩
    rw [taken, dropped]
    rfl

theorem stops_nil (allowed : Char → Bool) : Stops allowed [] := fun _ same => nomatch same

theorem stops_cons {allowed : Char → Bool} {char : Char} (stop : allowed char = false)
    (left : List Char) : Stops allowed (char :: left) :=
  fun _ same => Option.some.inj same ▸ stop

/-! ### The final message -/

theorem serverFinalMessage_error {s : List Char} (starts : s.head? = some 'e')
    {message : ServerFinalMessage} : serverFinalMessage s = .ok message ↔
      ∃ error, s = 'e' :: '=' :: error ∧ (∀ char ∈ error, isValue char = true) ∧
        message = .error error := by
  rw [serverFinalMessage, if_pos starts, bind_ok_iff]
  constructor
  · intro read
    obtain ⟨⟨error, left⟩, first, read⟩ := read
    obtain ⟨_, ended, last⟩ := bind_ok_iff.mp read
    obtain ⟨same, all, _⟩ := field_iff.mp first
    rw [eof_iff.mp ended, List.append_nil] at same
    exact ⟨error, same, all, (Except.ok.inj last).symm⟩
  · intro written
    obtain ⟨error, rfl, all, rfl⟩ := written
    have whole : 'e' :: '=' :: error = 'e' :: '=' :: (error ++ []) := by rw [List.append_nil]
    exact ⟨(error, []), field_iff.mpr ⟨whole, all, stops_nil _⟩,
      bind_ok_iff.mpr ⟨(), eof_iff.mpr rfl, rfl⟩⟩

theorem serverFinalMessage_other {s : List Char} (starts : s.head? ≠ some 'e')
    {message : ServerFinalMessage} : serverFinalMessage s = .ok message ↔
      ∃ verifier, s = 'v' :: '=' :: verifier ∧ Base64s verifier ∧
        message = .verifier verifier := by
  rw [serverFinalMessage, if_neg starts, bind_ok_iff]
  constructor
  · intro read
    obtain ⟨⟨verifier, left⟩, first, read⟩ := read
    obtain ⟨_, ended, last⟩ := bind_ok_iff.mp read
    obtain ⟨same, all, _⟩ := field_iff.mp first
    rw [eof_iff.mp ended, List.append_nil] at same
    exact ⟨verifier, same, all, (Except.ok.inj last).symm⟩
  · intro written
    obtain ⟨verifier, rfl, all, rfl⟩ := written
    have whole : 'v' :: '=' :: verifier = 'v' :: '=' :: (verifier ++ []) := by
      rw [List.append_nil]
    exact ⟨(verifier, []), field_iff.mpr ⟨whole, all, stops_nil _⟩,
      bind_ok_iff.mpr ⟨(), eof_iff.mpr rfl, rfl⟩⟩

theorem isValue_iff (char : Char) : isValue char = true ↔ ¬ValueChar char := by
  rw [isValue, Bool.or_eq_true, Bool.or_eq_true, beq_iff_eq, beq_iff_eq, beq_iff_eq, ValueChar,
    not_and_or, not_and_or, not_not, not_not, not_not, or_assoc]

/-- The parser takes the characters that a value cannot have for those of a value: the
final message is read as it should be exactly if no `e=` is in front, or both kinds of
characters stand behind it. -/
theorem readsFinal_iff (s : List Char) :
    ReadsFinal s ↔ ∀ error, s = 'e' :: '=' :: error →
      (∃ char ∈ error, ValueChar char) ∧ ∃ char ∈ error, ¬ValueChar char := by
  constructor
  · intro reads error same
    have starts : s.head? = some 'e' := by
      rw [same]
      rfl
    have answers := reads.2 error
    rw [serverFinalMessage_error starts] at answers
    constructor
    · by_contra none
      have all : ∀ char ∈ error, isValue char = true := fun char member =>
        (isValue_iff char).mpr fun value => none ⟨char, member, value⟩
      obtain ⟨_, filled, values⟩ := answers.mp ⟨error, same, all, rfl⟩
      obtain ⟨char, rest, rfl⟩ := List.exists_cons_of_ne_nil filled
      exact none ⟨char, List.mem_cons_self, values char List.mem_cons_self⟩
    · by_contra none
      have values : ∀ char ∈ error, ValueChar char := fun char member =>
        not_not.mp fun other => none ⟨char, member, other⟩
      have filled : error ≠ [] := by
        rintro rfl
        obtain ⟨_, filled, _⟩ := answers.mp
          ⟨[], same, fun _ member => absurd member List.not_mem_nil, rfl⟩
        exact filled rfl
      obtain ⟨found, again, all, equal⟩ := answers.mpr ⟨same, filled, values⟩
      cases equal
      obtain ⟨char, rest, rfl⟩ := List.exists_cons_of_ne_nil filled
      exact (isValue_iff char).mp (all char List.mem_cons_self) (values char List.mem_cons_self)
  · intro mixed
    by_cases starts : s.head? = some 'e'
    · have refused (message : ServerFinalMessage) : serverFinalMessage s ≠ .ok message := by
        intro read
        obtain ⟨error, same, all, _⟩ := (serverFinalMessage_error starts).mp read
        obtain ⟨⟨char, member, value⟩, _⟩ := mixed error same
        exact (isValue_iff char).mp (all char member) value
      refine ⟨fun verifier => iff_of_false (refused _) ?_, fun error =>
        iff_of_false (refused _) ?_⟩
      · rintro ⟨rfl, _⟩
        cases starts
      · intro grammar
        obtain ⟨same, _, values⟩ := grammar
        obtain ⟨_, char, member, other⟩ := mixed error same
        exact other (values char member)
    · refine ⟨fun verifier => ?_, fun error => iff_of_false (fun read => ?_) fun grammar => ?_⟩
      · rw [serverFinalMessage_other starts]
        constructor
        · intro read
          obtain ⟨found, same, all, equal⟩ := read
          cases equal
          exact ⟨same, all⟩
        · exact fun grammar => ⟨verifier, grammar.1, grammar.2, rfl⟩
      · obtain ⟨_, _, _, equal⟩ := (serverFinalMessage_other starts).mp read
        cases equal
      · rw [grammar.1] at starts
        exact starts rfl

/-- The text of an error, such as `e=invalid-proof`, is trailing data to the parser. -/
theorem not_readsFinal : ¬ReadsFinal "e=invalid-proof".toList := by
  intro reads
  have value : Value "invalid-proof".toList := by
    refine ⟨by decide, fun char member => ?_⟩
    refine ⟨fun same => ?_, fun same => ?_, fun same => ?_⟩
    · exact absurd (same ▸ member) (by decide)
    · exact absurd (same ▸ member) (by decide)
    · exact absurd (same ▸ member) (by decide)
  have read := (reads.2 "invalid-proof".toList).mpr ⟨rfl, value⟩
  exact absurd read (by decide +kernel)

/-! ### The first message -/

theorem isDigit_eq (char : Char) : isDigit char = char.isDigit := by
  rw [isDigit, Char.isDigit]
  rfl

theorem positNumber_iff {digits : List Char} (all : ∀ char ∈ digits, isDigit char = true)
    {number : Nat} : positNumber digits = .ok number ↔
      digits ≠ [] ∧ Nat.ofDigitChars 10 digits 0 = number ∧ number < 2 ^ 32 := by
  have decimal : ∀ char ∈ digits, char.isDigit = true := fun char member =>
    isDigit_eq char ▸ all char member
  have parsed : Numeral.parseUnsigned (2 ^ 32) digits = some number ↔
      digits ≠ [] ∧ Nat.ofDigitChars 10 digits 0 = number ∧ number < 2 ^ 32 := by
    rw [Numeral.parseUnsigned_iff]
    constructor
    · rintro ⟨sign, rest, rfl, rfl | rfl, filled, _, value, small⟩
      · exact ⟨filled, value, small⟩
      · exact absurd (decimal '+' List.mem_cons_self) (by decide)
    · rintro ⟨filled, value, small⟩
      exact ⟨[], digits, rfl, .inl rfl, filled, decimal, value, small⟩
  rw [← parsed, positNumber]
  cases Numeral.parseUnsigned (2 ^ 32) digits with
  | none => exact iff_of_false (fun same => by cases same) (Option.some_ne_none _).symm
  | some value => exact ⟨fun same => congrArg some (Except.ok.inj same),
      fun same => congrArg Except.ok (Option.some.inj same)⟩

/-- What the parser takes: the count may have zeros in front. -/
theorem serverFirstMessage_iff {s : List Char} {message : ServerFirstMessage} :
    serverFirstMessage s = .ok message ↔ ∃ digits, Printables message.nonce ∧
      Base64s message.salt ∧ (∀ char ∈ digits, isDigit char = true) ∧ digits ≠ [] ∧
      Nat.ofDigitChars 10 digits 0 = message.iterationCount ∧ message.iterationCount < 2 ^ 32 ∧
      s = firstMessage message.nonce message.salt digits := by
  rw [serverFirstMessage, bind_ok_iff]
  constructor
  · intro read
    obtain ⟨⟨nonce, behindNonce⟩, readNonce, read⟩ := read
    obtain ⟨behindFirst, firstComma, read⟩ := bind_ok_iff.mp read
    obtain ⟨⟨salt, behindSalt⟩, readSalt, read⟩ := bind_ok_iff.mp read
    obtain ⟨behindSecond, secondComma, read⟩ := bind_ok_iff.mp read
    obtain ⟨⟨count, left⟩, readCount, read⟩ := bind_ok_iff.mp read
    obtain ⟨_, ended, last⟩ := bind_ok_iff.mp read
    obtain ⟨⟨digits, behindDigits⟩, readDigits, read⟩ := bind_ok_iff.mp readCount
    obtain ⟨number, parsed, same⟩ := bind_ok_iff.mp read
    obtain ⟨rfl, rfl⟩ := Prod.mk.inj (Except.ok.inj same)
    obtain rfl := Except.ok.inj last
    obtain ⟨rfl, printable, _⟩ := field_iff.mp readNonce
    obtain rfl := eat_iff.mp firstComma
    obtain ⟨rfl, base64, _⟩ := field_iff.mp readSalt
    obtain rfl := eat_iff.mp secondComma
    obtain ⟨rfl, decimal, _⟩ := field_iff.mp readDigits
    obtain rfl := eof_iff.mp ended
    obtain ⟨filled, value, small⟩ := (positNumber_iff decimal).mp parsed
    rw [List.append_nil]
    exact ⟨digits, printable, base64, decimal, filled, value, small, rfl⟩
  · intro written
    obtain ⟨digits, printable, base64, decimal, filled, value, small, rfl⟩ := written
    have digitsEnd : 'i' :: '=' :: digits = 'i' :: '=' :: (digits ++ []) := by
      rw [List.append_nil]
    refine ⟨_, field_iff.mpr ⟨rfl, printable, stops_cons (by decide) _⟩, ?_⟩
    refine bind_ok_iff.mpr ⟨_, eat_iff.mpr rfl, ?_⟩
    refine bind_ok_iff.mpr ⟨_, field_iff.mpr ⟨rfl, base64, stops_cons (by decide) _⟩, ?_⟩
    refine bind_ok_iff.mpr ⟨_, eat_iff.mpr rfl, ?_⟩
    refine bind_ok_iff.mpr ⟨(message.iterationCount, []), ?_, ?_⟩
    · refine bind_ok_iff.mpr ⟨_, field_iff.mpr ⟨digitsEnd, decimal, stops_nil _⟩, ?_⟩
      exact bind_ok_iff.mpr ⟨_, (positNumber_iff decimal).mpr ⟨filled, value, small⟩, rfl⟩
    · exact bind_ok_iff.mpr ⟨(), eof_iff.mpr rfl, rfl⟩

/-- A count with a zero in front: zero itself, or a number behind zeros. -/
def LeadingZero (s : List Char) : Prop :=
  ∃ nonce salt digits, Printables nonce ∧ Base64s salt ∧
    (∀ char ∈ digits, isDigit char = true) ∧ Nat.ofDigitChars 10 ('0' :: digits) 0 < 2 ^ 32 ∧
    s = firstMessage nonce salt ('0' :: digits)

theorem append_cons_unique {allowed : Char → Bool} {stop : Char} (stops : allowed stop = false)
    {first second firstRest secondRest : List Char}
    (allFirst : ∀ char ∈ first, allowed char = true)
    (allSecond : ∀ char ∈ second, allowed char = true)
    (same : first ++ stop :: firstRest = second ++ stop :: secondRest) :
    first = second ∧ firstRest = secondRest := by
  have left := takeWhile_stops allFirst (stops_cons stops firstRest)
  have right := takeWhile_stops allSecond (stops_cons stops secondRest)
  rw [same, right.1, right.2] at left
  exact ⟨left.1.symm, (List.cons.inj left.2).2.symm⟩

/-- The parts of a first message are determined by it. -/
theorem firstMessage_inj {nonce otherNonce salt otherSalt digits otherDigits : List Char}
    (printable : Printables nonce) (otherPrintable : Printables otherNonce)
    (base64 : Base64s salt) (otherBase64 : Base64s otherSalt)
    (same : firstMessage nonce salt digits = firstMessage otherNonce otherSalt otherDigits) :
    nonce = otherNonce ∧ salt = otherSalt ∧ digits = otherDigits := by
  have behind := (List.cons.inj (List.cons.inj same).2).2
  obtain ⟨rfl, rest⟩ := append_cons_unique (by decide) printable otherPrintable behind
  have behindSalt := (List.cons.inj (List.cons.inj rest).2).2
  obtain ⟨rfl, last⟩ := append_cons_unique (by decide) base64 otherBase64 behindSalt
  exact ⟨rfl, rfl, (List.cons.inj (List.cons.inj last).2).2⟩

theorem toDigits_head {number : Nat} (positive : 0 < number) :
    ∃ first rest, Nat.toDigits 10 number = first :: rest ∧ first ≠ '0' := by
  induction number using Nat.strongRecOn with
  | _ number ih =>
      by_cases last : number < 10
      · refine ⟨Nat.digitChar number, [], Nat.toDigits_of_lt_base last, fun zero => ?_⟩
        have code := Numeral.digitChar_toNat last
        rw [zero] at code
        change 48 = number + 48 at code
        omega
      · have more := Nat.le_of_not_lt last
        obtain ⟨first, rest, shown, noZero⟩ := ih (number / 10) (by omega) (by omega)
        refine ⟨first, rest ++ [Nat.digitChar (number % 10)], ?_, noZero⟩
        rw [Nat.toDigits_of_base_le (by decide) more, shown]
        rfl

/-- The first message is read as it should be exactly if its count has no zero in front. -/
theorem readsFirst_iff (s : List Char) : ReadsFirst s ↔ ¬LeadingZero s := by
  constructor
  · intro reads leading
    obtain ⟨nonce, salt, digits, printable, base64, decimal, small, rfl⟩ := leading
    have all : ∀ char ∈ '0' :: digits, isDigit char = true :=
      List.forall_mem_cons.mpr ⟨rfl, decimal⟩
    have read := (reads ⟨nonce, salt, Nat.ofDigitChars 10 ('0' :: digits) 0⟩).mp
      (serverFirstMessage_iff.mpr
        ⟨_, printable, base64, all, List.cons_ne_nil _ _, rfl, small, rfl⟩)
    obtain ⟨_, _, positive, _, same⟩ := read
    obtain ⟨_, _, shown⟩ := firstMessage_inj printable printable base64 base64 same
    obtain ⟨first, rest, other, noZero⟩ := toDigits_head positive
    rw [other] at shown
    exact noZero (List.cons.inj shown).1.symm
  · intro noLeading message
    rw [serverFirstMessage_iff]
    constructor
    · intro read
      obtain ⟨digits, printable, base64, decimal, filled, value, small, rfl⟩ := read
      obtain ⟨first, rest, rfl⟩ := List.exists_cons_of_ne_nil filled
      have noZero : first ≠ '0' := by
        rintro rfl
        refine noLeading ⟨_, _, rest, printable, base64, fun char member =>
          decimal char (List.mem_cons_of_mem _ member), value ▸ small, rfl⟩
      obtain ⟨positive, shown⟩ := Numeral.toDigits_ofDigitChars
        (fun char member => isDigit_eq char ▸ decimal char member) rfl noZero
      rw [value] at positive shown
      rw [shown]
      exact ⟨printable, base64, positive, small, rfl⟩
    · intro grammar
      obtain ⟨printable, base64, positive, small, rfl⟩ := grammar
      refine ⟨_, printable, base64, fun char member => ?_, Nat.toDigits_ne_nil,
        Nat.ofDigitChars_ten_toDigits, small, rfl⟩
      rw [isDigit_eq]
      exact Numeral.toDigits_digits _ char member

/-- An iteration count of zero is taken. -/
theorem not_readsFirst : ¬ReadsFirst "r=a,s=QQ==,i=0".toList := by
  intro reads
  have read : serverFirstMessage "r=a,s=QQ==,i=0".toList = .ok ⟨['a'], "QQ==".toList, 0⟩ := by
    decide +kernel
  obtain ⟨_, _, positive, _⟩ := (reads _).mp read
  exact Nat.lt_irrefl 0 positive

end OpenGauss.Protocol.Sasl.Parser
