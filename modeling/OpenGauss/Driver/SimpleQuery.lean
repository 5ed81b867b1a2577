import OpenGauss.Driver.Prepare

/-! Simple queries (`tokio-opengauss`, `simple_query.rs`): the answers to many statements in one
stream. -/

set_option autoImplicit false

namespace OpenGauss.Driver.Query

open Lib Lib.Source Lib.Routine Protocol Protocol.Backend

/-- The names of the columns. -/
abbrev SimpleColumns := List (List Char)

inductive SimpleQueryMessage where
  | row (row : SimpleQueryRow)
  | commandComplete (rows : Nat)
  | rowDescription (columns : SimpleColumns)

/-- `SimpleQueryRow::new`. -/
def newSimpleRow (columns : SimpleColumns) (body : CountedBody) :
    Except ClientError SimpleQueryRow :=
  match Driver.ranges body with
  | .error error => .error (.driver (.parse error))
  | .ok ranges => .ok { columns, body, ranges }

/-- `SimpleQueryStream::poll_next`, with the columns that it keeps. -/
def simpleBody : Body (Option SimpleColumns) Message ClientError (Option SimpleQueryMessage)
  | columns, .commandComplete tag =>
      match extractRowAffected tag with
      | .error error => (.error (.driver error), columns)
      | .ok rows => (.ok (some (some (.commandComplete rows))), columns)
  | columns, .emptyQueryResponse => (.ok (some (some (.commandComplete 0))), columns)
  | columns, .rowDescription body =>
      match fields body with
      | .error error => (.error (.driver (.parse error)), columns)
      | .ok found =>
          let columns := found.map (·.name)
          (.ok (some (some (.rowDescription columns))), some columns)
  | columns, .dataRow body =>
      match columns with
      | none => (.error unexpected, none)
      | some columns =>
          match newSimpleRow columns body with
          | .error error => (.error error, some columns)
          | .ok row => (.ok (some (some (.row row))), some columns)
  | columns, .readyForQuery _ => (.ok (some none), columns)
  | columns, _ => (.error unexpected, columns)

section

variable {State : Type} (source : Source State Message ClientError)

/-- `simple_query`, with all items of its stream. -/
def simpleQuery : Reading State (List SimpleQueryMessage) :=
  fold source simpleBody pushOut [] none

end

/-! ### The answers that succeed -/

/-- The messages of an answer and the items that they make, with the columns described before. -/
inductive Shows : Option SimpleColumns → List Message → List SimpleQueryMessage → Prop where
  | nil {columns : Option SimpleColumns} : Shows columns [] []
  | rowDescription {columns : Option SimpleColumns} {body : CountedBody} {found : List Field}
      {part : List Message} {items : List SimpleQueryMessage} (read : fields body = .ok found)
      (rest : Shows (some (found.map (·.name))) part items) :
      Shows columns (.rowDescription body :: part)
        (.rowDescription (found.map (·.name)) :: items)
  | dataRow {columns : SimpleColumns} {body : CountedBody} {row : SimpleQueryRow}
      {part : List Message} {items : List SimpleQueryMessage}
      (read : newSimpleRow columns body = .ok row) (rest : Shows (some columns) part items) :
      Shows (some columns) (.dataRow body :: part) (.row row :: items)
  | commandComplete {columns : Option SimpleColumns} {tag : Bytes} {rows : Nat}
      {part : List Message} {items : List SimpleQueryMessage}
      (parsed : extractRowAffected tag = .ok rows) (rest : Shows columns part items) :
      Shows columns (.commandComplete tag :: part) (.commandComplete rows :: items)
  | emptyQuery {columns : Option SimpleColumns} {part : List Message}
      {items : List SimpleQueryMessage} (rest : Shows columns part items) :
      Shows columns (.emptyQueryResponse :: part) (.commandComplete 0 :: items)

theorem Shows.fine {columns : Option SimpleColumns} {part : List Message}
    {items : List SimpleQueryMessage} (shows : Shows columns part items) :
    ∀ message ∈ part, errorOf message = none := by
  induction shows with
  | nil => simp
  | rowDescription read rest ih | dataRow read rest ih | commandComplete read rest ih
  | emptyQuery rest ih =>
      intro message member
      rcases List.mem_cons.mp member with rfl | member
      · rfl
      · exact ih message member

theorem Shows.of_emits {columns after : Option SimpleColumns} {part : List Message}
    {items : List SimpleQueryMessage} (emits : Emits simpleBody columns part items after) :
    Shows columns part items := by
  induction emits with
  | nil => exact .nil
  | @skip columns between after message part items again rest ih =>
      cases message with
      | dataRow body =>
          cases columns with
          | none => cases again
          | some columns => cases read : newSimpleRow columns body <;> simp [simpleBody, read] at again
      | rowDescription body => cases read : fields body <;> simp [simpleBody, read] at again
      | commandComplete tag =>
          cases parsed : extractRowAffected tag <;> simp [simpleBody, parsed] at again
      | _ => cases again
  | @emit columns between after message item part items found rest ih =>
      cases message with
      | dataRow body =>
          cases columns with
          | none => cases found
          | some columns =>
              cases read : newSimpleRow columns body with
              | error error => simp [simpleBody, read] at found
              | ok row =>
                  simp only [simpleBody, read] at found
                  cases found
                  exact .dataRow read ih
      | rowDescription body =>
          cases read : fields body with
          | error error => simp [simpleBody, read] at found
          | ok names =>
              simp only [simpleBody, read] at found
              cases found
              exact .rowDescription read ih
      | commandComplete tag =>
          cases parsed : extractRowAffected tag with
          | error error => simp [simpleBody, parsed] at found
          | ok rows =>
              simp only [simpleBody, parsed] at found
              cases found
              exact .commandComplete parsed ih
      | emptyQueryResponse =>
          cases found
          exact .emptyQuery ih
      | _ => cases found

theorem Shows.emits {columns : Option SimpleColumns} {part : List Message}
    {items : List SimpleQueryMessage} (shows : Shows columns part items) :
    ∃ after, Emits simpleBody columns part items after := by
  induction shows with
  | nil => exact ⟨_, .nil⟩
  | rowDescription read rest ih =>
      obtain ⟨after, emits⟩ := ih
      exact ⟨after, .emit (by simp [simpleBody, read]) emits⟩
  | dataRow read rest ih =>
      obtain ⟨after, emits⟩ := ih
      exact ⟨after, .emit (by simp [simpleBody, read]) emits⟩
  | commandComplete parsed rest ih =>
      obtain ⟨after, emits⟩ := ih
      exact ⟨after, .emit (by simp [simpleBody, parsed]) emits⟩
  | emptyQuery rest ih =>
      obtain ⟨after, emits⟩ := ih
      exact ⟨after, .emit rfl emits⟩

theorem Shows.fine_ready {columns : Option SimpleColumns} {part : List Message}
    {items : List SimpleQueryMessage} (shows : Shows columns part items) (status : UInt8) :
    ∀ message ∈ part ++ [.readyForQuery status], errorOf message = none := by
  intro message member
  rcases List.mem_append.mp member with member | member
  · exact shows.fine message member
  · cases List.mem_singleton.mp member
    rfl

theorem simpleQuery_ok {list rest : List Message} {items : List SimpleQueryMessage} :
    (simpleQuery messages).execute list = (.ok items, rest) ↔
      ∃ part status, list = part ++ .readyForQuery status :: rest ∧ Shows none part items := by
  have collected : (simpleQuery messages).execute list =
      ((messages.fold simpleBody pushOut [] none list).result,
        (messages.fold simpleBody pushOut [] none list).source) := rfl
  rw [collected]
  constructor
  · intro same
    obtain ⟨result, source⟩ := Prod.mk.inj same
    have folded : messages.fold simpleBody pushOut [] none list =
        ⟨.ok items, (messages.fold simpleBody pushOut [] none list).locals, rest⟩ := by
      rw [← result, ← source]
    obtain ⟨part, last, between, split, fine, emits, done⟩ := fold_ofList_ok.mp folded
    cases last with
    | readyForQuery status => exact ⟨part, status, split, .of_emits emits⟩
    | dataRow body =>
        cases between with
        | none => cases done
        | some columns => cases read : newSimpleRow columns body <;> simp [simpleBody, read] at done
    | rowDescription body => cases read : fields body <;> simp [simpleBody, read] at done
    | commandComplete tag =>
        cases parsed : extractRowAffected tag <;> simp [simpleBody, parsed] at done
    | _ => cases done
  · rintro ⟨part, status, rfl, shows⟩
    obtain ⟨after, emits⟩ := shows.emits
    have folded : messages.fold simpleBody pushOut [] none (part ++ .readyForQuery status :: rest) =
        ⟨.ok items, after, rest⟩ :=
      fold_ofList_ok.mpr ⟨part, _, after, rfl, shows.fine_ready status, emits, rfl⟩
    rw [folded]

/-- `batch_execute` goes on with all that a simple query shows. -/
theorem Shows.goes_batchBody {columns : Option SimpleColumns} {part : List Message}
    {items : List SimpleQueryMessage} (shows : Shows columns part items) :
    Goes batchBody () part () := by
  induction shows with
  | nil => exact .nil
  | rowDescription read rest ih | dataRow read rest ih | commandComplete read rest ih
  | emptyQuery rest ih => exact .cons rfl ih

def queryFrames : List (Frame .standard) :=
  [⟨84, [0, 0], .rowDescription ⟨[], 0⟩, by decide, rfl⟩,
    ⟨68, [0, 0], .dataRow ⟨[], 0⟩, by decide, rfl⟩,
    ⟨67, [83, 32, 49, 0], .commandComplete [83, 32, 49], by decide, rfl⟩]

def changeFrames : List (Frame .standard) :=
  [⟨67, [73, 32, 51, 0], .commandComplete [73, 32, 51], by decide, rfl⟩,
    ⟨90, [84], .readyForQuery 84, by decide, rfl⟩]

def twoAnswers : Responses :=
  ⟨⟨Framing.encodeAll Frame.bytes queryFrames, .standard⟩,
    [⟨Framing.encodeAll Frame.bytes changeFrames, .standard⟩]⟩

end OpenGauss.Driver.Query
