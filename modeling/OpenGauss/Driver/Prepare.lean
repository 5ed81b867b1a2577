import OpenGauss.Driver.QueryProperties
import OpenGauss.Protocol.DescriptionsProperties

/-! Statements, as the server describes them (`tokio-opengauss`: `prepare.rs`, and `query_typed` of
`query.rs`), and the query without a statement against the one with it. -/

set_option autoImplicit false

namespace OpenGauss.Driver.Query

open Lib Lib.Source Lib.Routine Protocol Protocol.Backend

/-- `Column`. -/
structure DescribedColumn (Ty : Type) extends Column Ty where
  tableOid : Option UInt32
  columnId : Option Int16
  typeModifier : Int32

section

variable {Item Out : Type}

/-- A `while let` loop over such an iterator, with a lookup for each item; for so many items at
most. -/
def lookUpTo (next : Counted → Except IoError (Option (Item × Counted)))
    (lookup : Item → Except ClientError Out) : Nat → Counted → Except ClientError (List Out)
  | 0, _ => .ok []
  | turns + 1, self =>
      match next self with
      | .error error => .error (.driver (.parse error))
      | .ok none => .ok []
      | .ok (some (item, self)) =>
          match lookup item with
          | .error error => .error error
          | .ok out => (lookUpTo next lookup turns self).map (out :: ·)

def lookUp (next : Counted → Except IoError (Option (Item × Counted)))
    (lookup : Item → Except ClientError Out) (body : CountedBody) : Except ClientError (List Out) :=
  lookUpTo next lookup (body.len + 1) (Counted.ofBody body)

end

section

variable {State Ty : Type} (source : Source State Message ClientError)
  (getType : UInt32 → Except ClientError Ty)

/-- A column, with the type that `get_type` finds. -/
def columnOf (field : Field) : Except ClientError (DescribedColumn Ty) :=
  (getType field.typeOid).map fun type =>
    { name := field.name
      type
      tableOid := if field.tableOid = 0 then none else some field.tableOid
      columnId := if field.columnId = 0 then none else some field.columnId
      typeModifier := field.typeModifier }

def columnsOf (body : CountedBody) : Except ClientError (List (DescribedColumn Ty)) :=
  lookUp Fields.next (columnOf getType) body

def acceptParseComplete : Message → Option Unit
  | .parseComplete => some ()
  | _ => none

def acceptParameterDescription : Message → Option CountedBody
  | .parameterDescription body => some body
  | _ => none

def acceptRowDescription : Message → Option (Option CountedBody)
  | .rowDescription body => some (some body)
  | .noData => some none
  | _ => none

/-- The parameters and the columns of the statement that `prepare` returns. -/
def prepare : Reading State (List Ty × List (DescribedColumn Ty)) := do
  expect source acceptParseComplete
  let parameterDescription ← expect source acceptParameterDescription
  let rowDescription ← expect source acceptRowDescription
  let parameters ← liftM (lookUp Parameters.next getType parameterDescription)
  match rowDescription with
  | none => return (parameters, [])
  | some body => return (parameters, ← liftM (columnsOf getType body))

/-- The loop of `query_typed`. -/
def typedBody : Body Unit Message ClientError (List (DescribedColumn Ty))
  | _, .parseComplete | _, .bindComplete | _, .parameterDescription _ => (.ok none, ())
  | _, .noData => (.ok (some []), ())
  | _, .rowDescription body => ((columnsOf getType body).map some, ())
  | _, _ => (.error unexpected, ())

def queryTyped : Reading State (List (Row Ty)) := do
  let columns ← loop source (typedBody getType) ()
  tryCollect source (columns.map (·.toColumn))

end

/-! ### What is looked up -/

section

variable {Item Out : Type} {item : BufferM Item} {undrained : String}
  {lookup : Item → Except ClientError Out}

theorem lookUpTo_ok {next : Counted → Except IoError (Option (Item × Counted))} {turns : Nat}
    {self : Counted} {outs : List Out} :
    lookUpTo next lookup turns self = .ok outs ↔
      ∃ items, Counted.collectUpTo next turns self = .ok items ∧ items.mapM lookup = .ok outs := by
  induction turns generalizing self outs with
  | zero => simp [lookUpTo, Counted.collectUpTo, pure, Except.pure, eq_comm]
  | succ turns ih =>
      cases step : next self with
      | error error => simp [lookUpTo, Counted.collectUpTo, step]
      | ok answer =>
          cases answer with
          | none =>
              simp [lookUpTo, Counted.collectUpTo, step, pure, Except.pure, eq_comm]
          | some found =>
              obtain ⟨first, rest⟩ := found
              cases looked : lookup first with
              | error error =>
                  simp only [lookUpTo, Counted.collectUpTo, step, looked]
                  constructor
                  · intro impossible
                    cases impossible
                  · rintro ⟨items, collected, mapped⟩
                    cases others : Counted.collectUpTo next turns rest with
                    | error error => simp [others, Except.map] at collected
                    | ok tail =>
                        simp only [others, Except.map] at collected
                        cases collected
                        simp [looked, bind, Except.bind] at mapped
              | ok out =>
                  simp only [lookUpTo, Counted.collectUpTo, step, looked]
                  constructor
                  · intro same
                    cases others : lookUpTo next lookup turns rest with
                    | error error => simp [others, Except.map] at same
                    | ok tail =>
                        simp only [others, Except.map] at same
                        cases same
                        obtain ⟨items, collected, mapped⟩ := ih.mp others
                        exact ⟨first :: items, by simp [collected, Except.map],
                          by simp [looked, mapped, bind, Except.bind, pure, Except.pure]⟩
                  · rintro ⟨items, collected, mapped⟩
                    cases others : Counted.collectUpTo next turns rest with
                    | error error => simp [others, Except.map] at collected
                    | ok tail =>
                        simp only [others, Except.map] at collected
                        cases collected
                        cases rests : tail.mapM lookup with
                        | error error => simp [looked, rests, bind, Except.bind] at mapped
                        | ok more =>
                            simp only [List.mapM_cons, looked, rests, bind, Except.bind, pure,
                              Except.pure] at mapped
                            cases mapped
                            simp [ih.mpr ⟨tail, others, rests⟩, Except.map]

theorem lookUp_ok {body : CountedBody} {outs : List Out} :
    lookUp (Counted.next item undrained) lookup body = .ok outs ↔
      ∃ items, Counted.collect (Counted.next item undrained) body = .ok items ∧
        items.mapM lookup = .ok outs :=
  lookUpTo_ok

end

section

variable {Ty : Type} {getType : UInt32 → Except ClientError Ty}

theorem columnsOf_ok {body : CountedBody} {columns : List (DescribedColumn Ty)} :
    columnsOf getType body = .ok columns ↔
      ∃ found, fields body = .ok found ∧ found.mapM (columnOf getType) = .ok columns := lookUp_ok

/-- What describes these columns. -/
inductive Describes (getType : UInt32 → Except ClientError Ty) :
    Message → List (DescribedColumn Ty) → Prop where
  | noData : Describes getType .noData []
  | rows {body : CountedBody} {columns : List (DescribedColumn Ty)} {found : List Field}
      (read : fields body = .ok found) (looked : found.mapM (columnOf getType) = .ok columns) :
      Describes getType (.rowDescription body) columns

theorem execute_lift {State Value : Type} (result : Except ClientError Value) (state : State) :
    (liftM result : Reading State Value).execute state = (result, state) := by
  cases result <;> rfl

/-- Which answers `prepare` succeeds with, and the statement that it makes of them. -/
theorem prepare_ok {list rest : List Message} {params : List Ty}
    {columns : List (DescribedColumn Ty)} :
    (prepare messages getType).execute list = (.ok (params, columns), rest) ↔
      ∃ body oids description,
        list = .parseComplete :: .parameterDescription body :: description :: rest ∧
          parameters body = .ok oids ∧ oids.mapM getType = .ok params ∧
          Describes getType description columns := by
  unfold prepare
  simp only [execute_bind_iff]
  constructor
  · rintro ⟨_, second, parsed, body, third, described, row, fourth, rowed, found, fifth, looked, done⟩
    obtain ⟨one, rfl, isParse⟩ := (expect_ok fun _ => rfl).mp parsed
    obtain ⟨two, rfl, isParameters⟩ := (expect_ok fun _ => rfl).mp described
    obtain ⟨three, rfl, isRow⟩ := (expect_ok fun _ => rfl).mp rowed
    rw [execute_lift] at looked
    obtain ⟨all, rfl⟩ := Prod.mk.inj looked
    obtain ⟨oids, read, mapped⟩ := lookUp_ok.mp all
    have parse : one = .parseComplete := by
      cases one <;> first | rfl | cases isParse
    have parameter : two = .parameterDescription body := by
      cases two <;> cases isParameters
      rfl
    cases three with
    | noData =>
        cases isRow
        cases done
        exact ⟨body, oids, .noData, by rw [parse, parameter], read, mapped, .noData⟩
    | rowDescription description =>
        cases isRow
        simp only [execute_bind_iff, execute_lift] at done
        obtain ⟨found, last, same, done⟩ := done
        obtain ⟨all, rfl⟩ := Prod.mk.inj same
        cases done
        obtain ⟨items, fielded, columned⟩ := columnsOf_ok.mp all
        exact ⟨body, oids, .rowDescription description, by rw [parse, parameter], read, mapped,
          .rows fielded columned⟩
    | _ => cases isRow
  · rintro ⟨body, oids, description, rfl, read, mapped, describes⟩
    have looked : lookUp Parameters.next getType body = .ok params :=
      lookUp_ok.mpr ⟨oids, read, mapped⟩
    refine ⟨(), _, (expect_ok fun _ => rfl).mpr ⟨_, rfl, rfl⟩, body, _,
      (expect_ok fun _ => rfl).mpr ⟨_, rfl, rfl⟩, ?_⟩
    cases describes with
    | noData =>
        exact ⟨none, rest, (expect_ok fun _ => rfl).mpr ⟨_, rfl, rfl⟩, params, rest,
          by rw [execute_lift, looked], rfl⟩
    | rows fielded columned =>
        refine ⟨some _, rest, (expect_ok fun _ => rfl).mpr ⟨_, rfl, rfl⟩, params, rest,
          by rw [execute_lift, looked], ?_⟩
        simp only [execute_bind_iff, execute_lift]
        exact ⟨columns, rest, by rw [columnsOf_ok.mpr ⟨_, fielded, columned⟩], rfl⟩

theorem loop_next {Local Value : Type} {body : Body Local Message ClientError Value}
    {locals after : Local} {message : Message} {list : List Message}
    (fine : errorOf message = none) (again : body locals message = (.ok none, after)) :
    (loop messages body locals).execute (message :: list) =
      (loop messages body after).execute list := by
  have taken : messages.poll (message :: list) = (.ok message, list) := poll_ofList fine
  exact congrArg (fun ended => (ended.result, ended.source)) (run_next taken again)

theorem loop_done {Local Value : Type} {body : Body Local Message ClientError Value}
    {locals after : Local} {message : Message} {value : Value} {list : List Message}
    (fine : errorOf message = none) (done : body locals message = (.ok (some value), after)) :
    (loop messages body locals).execute (message :: list) = (.ok value, list) := by
  have taken : messages.poll (message :: list) = (.ok message, list) := poll_ofList fine
  exact congrArg (fun ended => (ended.result, ended.source)) (run_done taken done)

/-- The loop of `execute_typed` counts what that of `execute` counts. -/
theorem Counts.goes_executeTypedBody {part : List Message} {rows after : Nat}
    (counts : Counts part rows after) : Goes executeTypedBody rows part after := by
  induction counts with
  | nil => exact .nil
  | dataRow rest ih => exact .cons rfl ih
  | commandComplete parsed rest ih => exact .cons (by simp [executeTypedBody, affectedBy, parsed]) ih
  | emptyQuery rest ih => exact .cons rfl ih

theorem executeTyped_counts {part left : List Message} {count : Nat} {status : UInt8}
    (counts : Counts part 0 count) :
    (loop messages executeTypedBody 0).execute (part ++ .readyForQuery status :: left) =
      (.ok count, left) := by
  refine loop_ok.mpr ⟨part, _, count, count, rfl, ?_, counts.goes_executeTypedBody, rfl⟩
  intro message member
  rcases List.mem_append.mp member with member | member
  · exact counts.fine message member
  · cases List.mem_singleton.mp member
    rfl

/-- `query_typed` and `execute_typed` ask once for what `prepare`, `query` and `execute` ask one
after the other. Where the server answers the same, with the description that `prepare` reads in
front, they return the same. -/
theorem queryTyped_prepared {params : List Ty}
    {columns : List (DescribedColumn Ty)} {body : CountedBody} {description : Message}
    {rest : List Message}
    (prepared : (prepare messages getType).execute
      (.parseComplete :: .parameterDescription body :: description :: rest) =
        (.ok (params, columns), rest)) (answer : List Message) :
    (queryTyped messages getType).execute
        (.parseComplete :: .bindComplete :: .parameterDescription body :: description :: answer) =
      (query messages (columns.map (·.toColumn))).execute (.bindComplete :: answer) ∧
    ∀ count left, (execute messages).execute (.bindComplete :: answer) = (.ok count, left) →
      (executeTyped messages).execute
          (.parseComplete :: .bindComplete :: .parameterDescription body :: description :: answer) =
        (.ok count, left) := by
  obtain ⟨_, _, _, same, _, _, describes⟩ := prepare_ok.mp prepared
  cases same
  constructor
  · have described : (loop messages (typedBody getType) ()).execute
        (.parseComplete :: .bindComplete :: .parameterDescription body :: description :: answer) =
          (.ok columns, answer) := by
      rw [loop_next rfl rfl, loop_next rfl rfl, loop_next rfl rfl]
      cases describes with
      | noData => exact loop_done rfl rfl
      | @rows row _ found read looked =>
          have done : typedBody getType () (.rowDescription row) = (.ok (some columns), ()) := by
            simp [typedBody, columnsOf_ok.mpr ⟨found, read, looked⟩, Except.map]
          exact loop_done rfl done
    unfold queryTyped query
    rw [execute_bind_ok described, execute_bind_ok (start_ok.mpr rfl)]
  · intro count left executed
    obtain ⟨part, status, split, counts⟩ := execute_ok.mp executed
    cases split
    unfold executeTyped
    rw [loop_next rfl rfl, loop_next rfl rfl, loop_next rfl rfl]
    cases describes with
    | noData =>
        rw [loop_next rfl rfl]
        exact executeTyped_counts counts
    | rows read looked =>
        rw [loop_next rfl rfl]
        exact executeTyped_counts counts

/-- One parameter of type 23 and no columns. -/
theorem queryTyped_prepared_noData :
    (queryTyped messages fun oid => .ok oid).execute
        [.parseComplete, .bindComplete, .parameterDescription ⟨[0, 0, 0, 23], 1⟩, .noData,
          .commandComplete [66], .readyForQuery 73] =
      (query messages ([] : List (Column UInt32))).execute
        [.bindComplete, .commandComplete [66], .readyForQuery 73] := by
  have prepared : (prepare messages fun oid => .ok oid).execute
      [.parseComplete, .parameterDescription ⟨[0, 0, 0, 23], 1⟩, .noData] =
        (.ok ([(23 : UInt32)], []), []) :=
    prepare_ok.mpr ⟨_, [23], .noData, rfl, rfl, rfl, .noData⟩
  exact (queryTyped_prepared prepared [.commandComplete [66], .readyForQuery 73]).1

end

end OpenGauss.Driver.Query
