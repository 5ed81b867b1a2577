import Mathlib.Data.List.TakeWhile
import OpenGauss.Driver.Error

/-! Which bodies of errors and notices the driver understands, and what it takes of them. -/

set_option autoImplicit false

namespace OpenGauss.Driver

open Protocol

/-- A field of an error: its type and its value. -/
abbrev ErrorField := UInt8 × Bytes

namespace ErrorField

def type_ (field : ErrorField) : Char := Char.ofNat field.1.toNat

/-- A field as it is sent. -/
def wire (field : ErrorField) : Bytes := field.1 :: (field.2 ++ [0])

structure Valid (field : ErrorField) : Prop where
  type_ : field.1 ≠ 0
  value : 0 ∉ field.2

end ErrorField

theorem takeWhile_clean (bytes : Bytes) : 0 ∉ bytes.takeWhile (· ≠ 0) := fun member => by
  simpa using List.mem_takeWhile_imp member

theorem cut_zero {bytes : Bytes} (ends : bytes.contains 0 = true) :
    bytes = bytes.takeWhile (· ≠ 0) ++ ([0] ++ (bytes.dropWhile (· ≠ 0)).drop 1) := by
  induction bytes with
  | nil => cases ends
  | cons byte bytes ih =>
      by_cases zero : byte = 0
      · simp [zero]
      · have later : bytes.contains 0 = true := by
          simpa [Ne.symm zero] using ends
        simpa [zero] using ih later

theorem ErrorFields.next_wire {field : ErrorField} (valid : field.Valid) (rest : Bytes) :
    ErrorFields.next (field.wire ++ rest) = .ok (some (field, rest)) := by
  obtain ⟨fieldType, value⟩ := field
  obtain ⟨some, whole⟩ := valid
  have named : fieldType ≠ 0 := some
  have inside : ∀ byte ∈ value, decide (byte ≠ 0) = true := fun byte member =>
    decide_eq_true fun zero => whole (zero ▸ member)
  have cut : ErrorField.wire (fieldType, value) ++ rest = fieldType :: (value ++ 0 :: rest) := by
    simp [ErrorField.wire]
  rw [cut, ErrorFields.next]
  · rw [if_pos (by simp), List.takeWhile_append_of_pos inside, List.dropWhile_append_of_pos inside]
    simp
  · simp [named]
  · simp [named]

theorem ErrorFields.next_ok {buf rest : Bytes} {field : ErrorField}
    (read : ErrorFields.next buf = .ok (some (field, rest))) :
    field.Valid ∧ buf = field.wire ++ rest := by
  rw [ErrorFields.next.eq_def] at read
  split at read
  · cases read
  · cases read
  · cases read
  · next fieldType behind single more =>
      split at read
      · next ends =>
          cases read
          have some : fieldType ≠ 0 := by
            rintro rfl
            cases behind with
            | nil => exact single rfl rfl
            | cons first others => exact more first others rfl rfl
          exact ⟨⟨some, takeWhile_clean behind⟩, by
            rw [ErrorField.wire, List.cons_append, List.append_assoc]
            exact congrArg (fieldType :: ·) (cut_zero ends)⟩
      · cases read

theorem ErrorFields.next_none {buf : Bytes} : ErrorFields.next buf = .ok none ↔ buf = [0] := by
  rw [ErrorFields.next.eq_def]
  split
  · simp
  · simp
  · simp
  · next fieldType behind single more =>
      split <;> simp_all

/-! ### The loop -/

namespace DbError

/-- The value of the last field of a type. -/
def lastOf (fields : List ErrorField) (type_ : Char) : Option Bytes :=
  ((fields.filter fun field => field.type_ = type_).getLast?).map Prod.snd

theorem lastOf_snoc (fields : List ErrorField) (field : ErrorField) (type_ : Char) :
    lastOf (fields ++ [field]) type_ =
      if field.type_ = type_ then some field.2 else lastOf fields type_ := by
  by_cases same : field.type_ = type_ <;> simp [lastOf, same]

/-- `value.parse::<u32>()` -/
def number? (value : Bytes) : Option Nat :=
  Lib.Numeral.parseUnsigned (2 ^ 32) (value.map fun byte => Char.ofNat byte.toNat)

/-- The values that are not taken as they are can be read. -/
def Understood (field : ErrorField) : Prop :=
  (field.type_ ∈ ['P', 'p', 'L'] → (number? field.2).isSome) ∧
    (field.type_ = 'V' → (Severity.fromStr field.2).isSome)

/-- The local variables behind these fields: of each type the last one counts. -/
def summary (fields : List ErrorField) : Fields where
  severity := lastOf fields 'S'
  parsedSeverity := (lastOf fields 'V').bind Severity.fromStr
  code := lastOf fields 'C'
  message := lastOf fields 'M'
  detail := lastOf fields 'D'
  hint := lastOf fields 'H'
  normalPosition := (lastOf fields 'P').bind number?
  internalPosition := (lastOf fields 'p').bind number?
  internalQuery := lastOf fields 'q'
  where_ := lastOf fields 'W'
  schema := lastOf fields 's'
  table := lastOf fields 't'
  column := lastOf fields 'c'
  datatype := lastOf fields 'd'
  constraint := lastOf fields 'n'
  file := lastOf fields 'F'
  line := (lastOf fields 'L').bind number?
  routine := lastOf fields 'R'

theorem parseU32_some {value : Bytes} {number : Nat} (found : number? value = some number)
    (message : String) : parseU32 value message = .ok number := by
  rw [number?] at found
  rw [parseU32, found]

theorem parseU32_none {value : Bytes} (none : number? value = none) (message : String) :
    ∃ error, parseU32 value message = .error error := by
  rw [number?] at none
  rw [parseU32, none]
  exact ⟨_, rfl⟩

/-- Reading a field goes on from the fields before it. -/
theorem record_ok {fields : List ErrorField} {field : ErrorField} {after : Fields} :
    (summary fields).record field.1 field.2 = .ok after ↔
      Understood field ∧ summary (fields ++ [field]) = after := by
  rw [Fields.record.eq_def]
  split
  case h_6 kind | h_7 kind | h_16 kind =>
    cases found : number? field.2 with
    | some number =>
        simp [parseU32_some found, Understood, ErrorField.type_, summary, lastOf_snoc, kind, found,
          bind, Except.bind, pure, Except.pure]
    | none =>
        obtain ⟨error, failed⟩ := parseU32_none found _
        rw [failed]
        simp [Understood, ErrorField.type_, kind, found, bind, Except.bind]
  case h_18 kind =>
    cases found : Severity.fromStr field.2 <;>
      simp [Understood, ErrorField.type_, summary, lastOf_snoc, kind, found]
  case h_19 other =>
    simp_all [Understood, ErrorField.type_, summary, lastOf_snoc]
  all_goals
    next kind => simp [Understood, ErrorField.type_, summary, lastOf_snoc, kind]

theorem foldlM_record {before fields : List ErrorField} {after : Fields} :
    fields.foldlM (fun local_ field => local_.record field.1 field.2) (summary before) = .ok after ↔
      (∀ field ∈ fields, Understood field) ∧ summary (before ++ fields) = after := by
  induction fields generalizing before with
  | nil => simp [pure, Except.pure]
  | cons field fields ih =>
      rw [List.foldlM_cons, List.forall_mem_cons]
      cases recorded : (summary before).record field.1 field.2 with
      | error error =>
          have refused : ¬Understood field := fun understood => by
            have read : (summary before).record field.1 field.2 =
                .ok (summary (before ++ [field])) := record_ok.mpr ⟨understood, rfl⟩
            rw [recorded] at read
            cases read
          simp [refused, bind, Except.bind]
      | ok next =>
          obtain ⟨understood, rfl⟩ := record_ok.mp recorded
          simp only [bind, Except.bind]
          rw [ih, List.append_assoc, List.singleton_append]
          simp [understood]

theorem foldlM_start {fields : List ErrorField} {after : Fields} :
    fields.foldlM (fun local_ field => local_.record field.1 field.2) ({} : Fields) = .ok after ↔
      (∀ field ∈ fields, Understood field) ∧ summary fields = after :=
  @foldlM_record [] fields after

theorem collect_ok {fuel : Nat} {buf : Bytes} {start after : Fields} (enough : buf.length < fuel) :
    collect fuel buf start = .ok after ↔
      ∃ fields : List ErrorField, (∀ field ∈ fields, field.Valid) ∧
        buf = fields.flatMap ErrorField.wire ++ [0] ∧
        fields.foldlM (fun local_ field => local_.record field.1 field.2) start = .ok after := by
  induction fuel generalizing buf start with
  | zero => exact absurd enough (Nat.not_lt_zero _)
  | succ fuel ih =>
      rw [collect]
      constructor
      · intro ran
        split at ran
        · cases ran
        · next ended =>
            cases ran
            exact ⟨[], by simp, by simpa using ErrorFields.next_none.mp ended, rfl⟩
        · next fieldType value rest read =>
            obtain ⟨valid, rfl⟩ := ErrorFields.next_ok read
            split at ran
            · cases ran
            · next between recorded =>
                have shorter : rest.length < fuel := by
                  simp only [ErrorField.wire, List.length_append, List.length_cons] at enough
                  omega
                obtain ⟨fields, all, rfl, folded⟩ := (ih shorter).mp ran
                refine ⟨(fieldType, value) :: fields, List.forall_mem_cons.mpr ⟨valid, all⟩, by simp, ?_⟩
                rw [List.foldlM_cons, recorded]
                exact folded
      · rintro ⟨fields, all, rfl, folded⟩
        cases fields with
        | nil =>
            have ended := ErrorFields.next_none.mpr rfl
            simp only [List.flatMap_nil, List.nil_append, ended]
            exact folded
        | cons field fields =>
            obtain ⟨fieldType, value⟩ := field
            obtain ⟨valid, others⟩ := List.forall_mem_cons.mp all
            have read := ErrorFields.next_wire valid (fields.flatMap ErrorField.wire ++ [0])
            rw [List.flatMap_cons, List.append_assoc, read]
            rw [List.flatMap_cons, List.append_assoc] at enough
            have shorter : (fields.flatMap ErrorField.wire ++ [0]).length < fuel := by
              simp only [ErrorField.wire, List.length_append, List.length_cons] at enough ⊢
              omega
            rw [List.foldlM_cons] at folded
            cases recorded : start.record fieldType value with
            | error error =>
                rw [recorded] at folded
                cases folded
            | ok between =>
                rw [recorded] at folded
                dsimp only
                rw [recorded]
                exact (ih shorter).mpr ⟨fields, others, rfl, folded⟩

/-- Where in a query the error is: a position in the query of the client goes before one in
a query of the server's own. -/
inductive Positioned (fields : List ErrorField) : Option ErrorPosition → Prop where
  | original {position : Nat} (found : (lastOf fields 'P').bind number? = some position) :
      Positioned fields (some (.original position))
  | internal {position : Nat} {query : Bytes} (other : (lastOf fields 'P').bind number? = none)
      (found : (lastOf fields 'p').bind number? = some position)
      (inside : lastOf fields 'q' = some query) :
      Positioned fields (some (.internal position query))
  | none (other : (lastOf fields 'P').bind number? = none)
      (others : (lastOf fields 'p').bind number? = none) : Positioned fields none

/-- The fields of the error are the last ones of their types, and it has those it needs. -/
structure Describes (fields : List ErrorField) (error : DbError) : Prop where
  severity : lastOf fields 'S' = some error.severity
  parsedSeverity : (lastOf fields 'V').bind Severity.fromStr = error.parsedSeverity
  code : lastOf fields 'C' = some error.code
  message : lastOf fields 'M' = some error.message
  detail : lastOf fields 'D' = error.detail
  hint : lastOf fields 'H' = error.hint
  position : Positioned fields error.position
  where_ : lastOf fields 'W' = error.where_
  schema : lastOf fields 's' = error.schema
  table : lastOf fields 't' = error.table
  column : lastOf fields 'c' = error.column
  datatype : lastOf fields 'd' = error.datatype
  constraint : lastOf fields 'n' = error.constraint
  file : lastOf fields 'F' = error.file
  line : (lastOf fields 'L').bind number? = error.line
  routine : lastOf fields 'R' = error.routine

/-- The fields that do not fail, around a position. -/
def described (fields : List ErrorField) (severity code message : Bytes)
    (position : Option ErrorPosition) : DbError where
  severity := severity
  code := code
  message := message
  position := position
  parsedSeverity := (lastOf fields 'V').bind Severity.fromStr
  detail := lastOf fields 'D'
  hint := lastOf fields 'H'
  where_ := lastOf fields 'W'
  schema := lastOf fields 's'
  table := lastOf fields 't'
  column := lastOf fields 'c'
  datatype := lastOf fields 'd'
  constraint := lastOf fields 'n'
  file := lastOf fields 'F'
  line := (lastOf fields 'L').bind number?
  routine := lastOf fields 'R'

theorem describes_iff {fields : List ErrorField} {error : DbError} :
    Describes fields error ↔ ∃ severity code message position,
      lastOf fields 'S' = some severity ∧ lastOf fields 'C' = some code ∧
        lastOf fields 'M' = some message ∧ Positioned fields position ∧
        described fields severity code message position = error := by
  constructor
  · intro describes
    refine ⟨_, _, _, _, describes.severity, describes.code, describes.message, describes.position, ?_⟩
    rw [described, describes.parsedSeverity, describes.detail, describes.hint, describes.where_,
      describes.schema, describes.table, describes.column, describes.datatype,
      describes.constraint, describes.file, describes.line, describes.routine]
  · rintro ⟨_, _, _, _, severity, code, message, position, rfl⟩
    exact ⟨severity, rfl, code, message, rfl, rfl, position, rfl, rfl, rfl, rfl, rfl, rfl, rfl,
      rfl, rfl⟩

theorem parse_collected {buf : Bytes} {fields : List ErrorField} {error : DbError}
    (collected : collect (buf.length + 1) buf {} = .ok (summary fields)) :
    parse buf = .ok error ↔ Describes fields error := by
  rw [parse, collected, describes_iff]
  constructor
  · intro ran
    cases severity : lastOf fields 'S' with
    | none => simp [summary, severity, require, bind, Except.bind] at ran
    | some _ =>
        cases code : lastOf fields 'C' with
        | none => simp [summary, severity, code, require, bind, Except.bind] at ran
        | some _ =>
            cases message : lastOf fields 'M' with
            | none => simp [summary, severity, code, message, require, bind, Except.bind] at ran
            | some _ =>
                simp only [summary, severity, code, message, require, bind, Except.bind] at ran
                cases normal : (lastOf fields 'P').bind number? with
                | some _ =>
                    rw [normal] at ran
                    cases ran
                    exact ⟨_, _, _, _, rfl, rfl, rfl, .original normal, rfl⟩
                | none =>
                    cases internal : (lastOf fields 'p').bind number? with
                    | none =>
                        rw [normal, internal] at ran
                        cases ran
                        exact ⟨_, _, _, _, rfl, rfl, rfl, .none normal internal, rfl⟩
                    | some _ =>
                        rw [normal, internal] at ran
                        cases query : lastOf fields 'q' with
                        | none =>
                            rw [query] at ran
                            cases ran
                        | some _ =>
                            rw [query] at ran
                            cases ran
                            exact ⟨_, _, _, _, rfl, rfl, rfl, .internal normal internal query, rfl⟩
  · rintro ⟨_, _, _, _, severity, code, message, position, rfl⟩
    cases position with
    | original found =>
        simp [summary, severity, code, message, found, require, bind, Except.bind, pure,
          Except.pure, described]
    | internal other found inside =>
        simp [summary, severity, code, message, other, found, inside, require, bind, Except.bind,
          pure, Except.pure, described]
    | none other others =>
        simp [summary, severity, code, message, other, others, require, bind, Except.bind, pure,
          Except.pure, described]

/-- The driver makes an error of a body exactly when the body is a list of fields with a zero
byte behind it, the numbers and the severity in it can be read and the fields an error needs are
there: the severity, the code, the message, and the query of an internal position. It takes
every one of them as the body has it, and of fields of one type the last. -/
theorem parse_ok (buf : Bytes) (error : DbError) :
    parse buf = .ok error ↔ ∃ fields : List ErrorField,
      (∀ field ∈ fields, field.Valid ∧ Understood field) ∧
        buf = fields.flatMap ErrorField.wire ++ [0] ∧ Describes fields error := by
  have enough : buf.length < buf.length + 1 := Nat.lt_succ_self _
  constructor
  · intro ran
    cases collected : collect (buf.length + 1) buf {} with
    | error failed =>
        rw [parse, collected] at ran
        cases ran
    | ok after =>
        obtain ⟨fields, valid, sent, folded⟩ := (collect_ok enough).mp collected
        obtain ⟨understood, rfl⟩ := foldlM_start.mp folded
        exact ⟨fields, fun field member => ⟨valid field member, understood field member⟩, sent,
          (parse_collected collected).mp ran⟩
  · rintro ⟨fields, all, sent, describes⟩
    have folded := foldlM_start.mpr ⟨fun field member => (all field member).2, rfl⟩
    have collected := (collect_ok enough).mpr
      ⟨fields, fun field member => (all field member).1, sent, folded⟩
    exact (parse_collected collected).mpr describes

end DbError

end OpenGauss.Driver
