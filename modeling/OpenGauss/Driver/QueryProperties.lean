import OpenGauss.Driver.Query

/-! Reading the answers to a query: however a server batches them, and which answers a query
succeeds with. -/

set_option autoImplicit false

namespace OpenGauss.Driver.Query

open Lib Lib.Source Lib.Routine Protocol Protocol.Backend

variable {mode : AuthMode}

/-! ### Batches -/

theorem pollNext_errorResponse {responses : Responses} {body : Bytes} {rest : List Message}
    (ahead : responses.Ahead mode (.errorResponse body :: rest)) :
    ∃ after, responses.pollNext = (.error (.ofBody body), after) ∧ after.Ahead mode rest := by
  obtain ⟨batch, later, ⟨cur, receiver⟩, whole⟩ := ahead
  rw [Responses.pollNext, cur, receiver]
  clear cur receiver
  have step (frame : Frame mode) (frames : List (Frame mode)) (batches : List BackendMessages)
      (message : frame.message = .errorResponse body) :
      Responses.next ⟨Framing.encodeAll Frame.bytes (frame :: frames), mode⟩ batches =
        (.error (.ofBody body), ⟨⟨Framing.encodeAll Frame.bytes frames, mode⟩, batches⟩) := by
    rw [Responses.next.eq_def, BackendMessages.next_frames, message]
  induction later generalizing batch with
  | nil =>
      cases batch with
      | nil => cases whole
      | cons frame batch =>
          obtain ⟨message, rfl⟩ := List.cons.inj whole
          exact ⟨_, step frame batch _ message.symm, batch, [], ⟨rfl, rfl⟩, rfl⟩
  | cons following later ih =>
      cases batch with
      | nil => exact ih following whole
      | cons frame batch =>
          obtain ⟨message, rfl⟩ := List.cons.inj whole
          exact ⟨_, step frame batch _ message.symm, batch, following :: later, ⟨rfl, rfl⟩, rfl⟩

/-- The batches hand out their messages, one after the other. -/
theorem follows_messages : answers.Follows messages (Responses.Ahead mode) := by
  intro responses list ahead
  cases list with
  | nil =>
      obtain ⟨rest, read, ahead⟩ := Responses.pollNext_nil ahead
      simp only [answers, read]
      exact ⟨rfl, ahead⟩
  | cons message list =>
      by_cases error : ∃ body, message = .errorResponse body
      · obtain ⟨body, rfl⟩ := error
        obtain ⟨rest, read, ahead⟩ := pollNext_errorResponse ahead
        simp only [answers, read]
        exact ⟨rfl, ahead⟩
      · have harmless : ∀ body, message ≠ .errorResponse body := fun body same => error ⟨body, same⟩
        obtain ⟨rest, read, ahead⟩ := Responses.pollNext_cons ahead harmless
        have fine : errorOf message = none := by
          cases message <;> first | rfl | exact absurd rfl (harmless _)
        simp only [answers, read, messages, poll_ofList fine]
        exact ⟨rfl, ahead⟩

/-! ### The same on another source -/

section

variable {State Other : Type} {source : Source State Message ClientError}
  {other : Source Other Message ClientError} {same : State → Other → Prop}

theorem loop_agrees {Local Value : Type} (follows : source.Follows other same)
    (body : Body Local Message ClientError Value) (locals : Local) :
    Agrees same (loop source body locals) (loop other body locals) := by
  intro state twin start
  obtain ⟨result, -, later⟩ := follows.run body locals start
  exact ⟨result, later⟩

theorem fold_agrees {Local Out Acc : Type} (follows : source.Follows other same)
    (body : Body Local Message ClientError (Option Out)) (push : Acc → Out → Except ClientError Acc)
    (acc : Acc) (locals : Local) :
    Agrees same (fold source body push acc locals) (fold other body push acc locals) := by
  intro state twin start
  obtain ⟨result, -, later⟩ := follows.run (fused body push) (acc, locals) start
  simp only [fold, Routine.execute]
  simp only [ExceptT.run_mk, StateT.run, fold_fused]
  exact ⟨result, later⟩

theorem start_agrees (follows : source.Follows other same) :
    Agrees same (start source) (start other) := loop_agrees follows _ _

theorem execute_agrees (follows : source.Follows other same) :
    Agrees same (execute source) (execute other) :=
  (start_agrees follows).bind fun _ => loop_agrees follows _ _

theorem executeTyped_agrees (follows : source.Follows other same) :
    Agrees same (executeTyped source) (executeTyped other) := loop_agrees follows _ _

variable {Ty : Type} (columns : List (Column Ty))

theorem query_agrees (follows : source.Follows other same) :
    Agrees same (query source columns) (query other columns) :=
  (start_agrees follows).bind fun _ => fold_agrees follows _ _ _ _

theorem queryOpt_agrees (follows : source.Follows other same) :
    Agrees same (queryOpt source columns) (queryOpt other columns) :=
  (start_agrees follows).bind fun _ => fold_agrees follows _ _ _ _

theorem queryOne_agrees (follows : source.Follows other same) :
    Agrees same (queryOne source columns) (queryOne other columns) := by
  refine (queryOpt_agrees columns follows).bind fun first => ?_
  cases first with
  | none => exact agrees_throw _
  | some row => exact agrees_pure row

end

/-! ### The answers that succeed -/

theorem loop_ok {Local Value : Type} {body : Body Local Message ClientError Value} {locals : Local}
    {value : Value} {list rest : List Message} :
    (loop messages body locals).execute list = (.ok value, rest) ↔
      ∃ before last between after, list = before ++ last :: rest ∧
        (∀ message ∈ before ++ [last], errorOf message = none) ∧ Goes body locals before between ∧
        body between last = (.ok (some value), after) := by
  have ended : (loop messages body locals).execute list =
      ((messages.run body locals list).result, (messages.run body locals list).source) := rfl
  rw [ended]
  constructor
  · intro same
    obtain ⟨result, source⟩ := Prod.mk.inj same
    have run : messages.run body locals list =
        ⟨.ok value, (messages.run body locals list).locals, rest⟩ := by rw [← result, ← source]
    obtain ⟨before, last, between, split, fine, goes, done⟩ := run_ofList_ok.mp run
    exact ⟨before, last, between, _, split, fine, goes, done⟩
  · rintro ⟨before, last, between, after, split, fine, goes, done⟩
    have run : messages.run body locals list = ⟨.ok value, after, rest⟩ :=
      run_ofList_ok.mpr ⟨before, last, between, split, fine, goes, done⟩
    exact congrArg (fun ended => (ended.result, ended.source)) run

theorem expect_ok {Value : Type} {accept : Message → Option Value} {value : Value}
    {list rest : List Message} (harmless : ∀ body, accept (.errorResponse body) = none) :
    (expect messages accept).execute list = (.ok value, rest) ↔
      ∃ message, list = message :: rest ∧ accept message = some value := by
  unfold expect
  rw [loop_ok]
  constructor
  · rintro ⟨before, last, between, after, rfl, fine, goes, done⟩
    cases goes with
    | nil =>
        cases found : accept last with
        | none => simp [found] at done
        | some other => exact ⟨last, rfl, by simpa [found] using done⟩
    | @cons _ between _ item items again rest => cases found : accept item <;> simp [found] at again
  · rintro ⟨message, rfl, found⟩
    refine ⟨[], message, (), (), rfl, ?_, .nil, by simp [found]⟩
    have fine : errorOf message = none := by
      cases message <;> first | rfl | (rw [harmless] at found; cases found)
    simpa using fine

theorem start_ok {list rest : List Message} :
    (start messages).execute list = (.ok (), rest) ↔ list = .bindComplete :: rest := by
  unfold start
  rw [expect_ok fun _ => rfl]
  constructor
  · rintro ⟨message, rfl, found⟩
    cases message <;> first | rfl | cases found
  · rintro rfl
    exact ⟨.bindComplete, rfl, rfl⟩

/-- The messages between the beginning and the end of an answer, with the count of rows that the
last one leaves. -/
inductive Counts : List Message → Nat → Nat → Prop where
  | nil {rows : Nat} : Counts [] rows rows
  | dataRow {body : CountedBody} {part : List Message} {rows after : Nat}
      (rest : Counts part rows after) : Counts (.dataRow body :: part) rows after
  | commandComplete {tag : Bytes} {part : List Message} {rows affected after : Nat}
      (parsed : extractRowAffected tag = .ok affected) (rest : Counts part affected after) :
      Counts (.commandComplete tag :: part) rows after
  | emptyQuery {part : List Message} {rows after : Nat} (rest : Counts part 0 after) :
      Counts (.emptyQueryResponse :: part) rows after

theorem goes_executeBody {part : List Message} {rows after : Nat} :
    Goes executeBody rows part after ↔ Counts part rows after := by
  constructor
  · intro goes
    induction goes with
    | nil => exact .nil
    | @cons rows between after message part again rest ih =>
        cases message with
        | dataRow body =>
            cases again
            exact .dataRow ih
        | commandComplete tag =>
            simp only [executeBody, affectedBy] at again
            split at again
            · cases again
            · next parsed =>
              cases again
              exact .commandComplete parsed ih
        | emptyQueryResponse =>
            cases again
            exact .emptyQuery ih
        | _ => cases again
  · intro counts
    induction counts with
    | nil => exact .nil
    | dataRow rest ih => exact .cons rfl ih
    | commandComplete parsed rest ih => exact .cons (by simp [executeBody, affectedBy, parsed]) ih
    | emptyQuery rest ih => exact .cons rfl ih

theorem Counts.fine {part : List Message} {rows after : Nat} (counts : Counts part rows after) :
    ∀ message ∈ part, errorOf message = none := by
  induction counts with
  | nil => simp
  | dataRow rest ih | commandComplete parsed rest ih | emptyQuery rest ih =>
      intro message member
      rcases List.mem_cons.mp member with rfl | member
      · rfl
      · exact ih message member

/-- Which answers `execute` succeeds with, and what it returns for them. -/
theorem execute_ok {count : Nat} {list rest : List Message} :
    (execute messages).execute list = (.ok count, rest) ↔
      ∃ part status, list = .bindComplete :: (part ++ .readyForQuery status :: rest) ∧
        Counts part 0 count := by
  unfold execute
  rw [execute_bind_iff]
  constructor
  · rintro ⟨_, later, started, ended⟩
    obtain ⟨part, last, rows, after, rfl, fine, goes, done⟩ := loop_ok.mp ended
    rw [start_ok.mp started]
    cases last with
    | readyForQuery status =>
        cases done
        exact ⟨part, status, rfl, goes_executeBody.mp goes⟩
    | commandComplete tag =>
        simp only [executeBody, affectedBy] at done
        split at done <;> cases done
    | _ => cases done
  · rintro ⟨part, status, rfl, counts⟩
    refine ⟨(), _, start_ok.mpr rfl, loop_ok.mpr ⟨part, _, count, count, rfl, ?_,
      goes_executeBody.mpr counts, rfl⟩⟩
    intro message member
    rcases List.mem_append.mp member with member | member
    · exact counts.fine message member
    · cases List.mem_singleton.mp member
      rfl

section

variable {Ty : Type} {columns : List (Column Ty)}

/-- The messages of an answer with its rows, and `rows_affected` before and after them. -/
inductive Serves (columns : List (Column Ty)) :
    List Message → List (Row Ty) → Option Nat → Option Nat → Prop where
  | nil {affected : Option Nat} : Serves columns [] [] affected affected
  | dataRow {body : CountedBody} {row : Row Ty} {part : List Message} {rows : List (Row Ty)}
      {affected after : Option Nat} (read : newRow columns body = .ok row)
      (rest : Serves columns part rows affected after) :
      Serves columns (.dataRow body :: part) (row :: rows) affected after
  | commandComplete {tag : Bytes} {part : List Message} {rows : List (Row Ty)} {count : Nat}
      {affected after : Option Nat} (parsed : extractRowAffected tag = .ok count)
      (rest : Serves columns part rows (some count) after) :
      Serves columns (.commandComplete tag :: part) rows affected after
  | emptyQuery {part : List Message} {rows : List (Row Ty)} {affected after : Option Nat}
      (rest : Serves columns part rows affected after) :
      Serves columns (.emptyQueryResponse :: part) rows affected after
  | suspended {part : List Message} {rows : List (Row Ty)} {affected after : Option Nat}
      (rest : Serves columns part rows affected after) :
      Serves columns (.portalSuspended :: part) rows affected after

theorem Serves.fine {part : List Message} {rows : List (Row Ty)} {affected after : Option Nat}
    (serves : Serves columns part rows affected after) :
    ∀ message ∈ part, errorOf message = none := by
  induction serves with
  | nil => simp
  | dataRow read rest ih | commandComplete read rest ih | emptyQuery rest ih | suspended rest ih =>
      intro message member
      rcases List.mem_cons.mp member with rfl | member
      · rfl
      · exact ih message member

theorem emits_rowBody {part : List Message} {rows : List (Row Ty)} {affected after : Option Nat} :
    Emits (rowBody columns) affected part rows after ↔ Serves columns part rows affected after := by
  constructor
  · intro emits
    induction emits with
    | nil => exact .nil
    | @skip affected between after message part rows again rest ih =>
        cases message with
        | dataRow body => cases read : newRow columns body <;> simp [rowBody, read] at again
        | commandComplete tag =>
            cases parsed : extractRowAffected tag with
            | error error => simp [rowBody, parsed] at again
            | ok count =>
                simp only [rowBody, parsed] at again
                cases again
                exact .commandComplete parsed ih
        | emptyQueryResponse =>
            cases again
            exact .emptyQuery ih
        | portalSuspended =>
            cases again
            exact .suspended ih
        | _ => cases again
    | @emit affected between after message row part rows found rest ih =>
        cases message with
        | dataRow body =>
            cases read : newRow columns body with
            | error error => simp [rowBody, read] at found
            | ok row =>
                simp only [rowBody, read] at found
                cases found
                exact .dataRow read ih
        | commandComplete tag =>
            cases parsed : extractRowAffected tag <;> simp [rowBody, parsed] at found
        | _ => cases found
  · intro serves
    induction serves with
    | nil => exact .nil
    | dataRow read rest ih => exact .emit (by simp [rowBody, read]) ih
    | commandComplete parsed rest ih => exact .skip (by simp [rowBody, parsed]) ih
    | emptyQuery rest ih => exact .skip rfl ih
    | suspended rest ih => exact .skip rfl ih

/-- Which messages a `RowStream` ends with, what it has handed out by then, and what
`rows_affected` returns. -/
theorem stream_ok {rows : List (Row Ty)} {affected : Option Nat} {list rest : List Message} :
    messages.fold (rowBody columns) pushOut [] none list = ⟨.ok rows, affected, rest⟩ ↔
      ∃ part status, list = part ++ .readyForQuery status :: rest ∧
        Serves columns part rows none affected := by
  unfold messages
  rw [fold_ofList_ok]
  constructor
  · rintro ⟨part, last, between, rfl, fine, emits, done⟩
    cases last with
    | readyForQuery status =>
        cases done
        exact ⟨part, status, rfl, emits_rowBody.mp emits⟩
    | dataRow body => cases read : newRow columns body <;> simp [rowBody, read] at done
    | commandComplete tag =>
        cases parsed : extractRowAffected tag <;> simp [rowBody, parsed] at done
    | _ => cases done
  · rintro ⟨part, status, rfl, serves⟩
    refine ⟨part, .readyForQuery status, affected, rfl, ?_, emits_rowBody.mpr serves, rfl⟩
    intro message member
    rcases List.mem_append.mp member with member | member
    · exact serves.fine message member
    · cases List.mem_singleton.mp member
      rfl

/-- Which answers `query` succeeds with, and the rows it returns for them. -/
theorem query_ok {rows : List (Row Ty)} {list rest : List Message} :
    (query messages columns).execute list = (.ok rows, rest) ↔
      ∃ part status affected, list = .bindComplete :: (part ++ .readyForQuery status :: rest) ∧
        Serves columns part rows none affected := by
  unfold query
  rw [execute_bind_iff]
  have collected (later : List Message) : (tryCollect messages columns).execute later =
      ((messages.fold (rowBody columns) pushOut [] none later).result,
        (messages.fold (rowBody columns) pushOut [] none later).source) := rfl
  constructor
  · rintro ⟨_, later, started, ended⟩
    rw [collected] at ended
    obtain ⟨result, source⟩ := Prod.mk.inj ended
    obtain ⟨part, status, rfl, serves⟩ := stream_ok.mp
      (show messages.fold (rowBody columns) pushOut [] none later =
        ⟨.ok rows, (messages.fold (rowBody columns) pushOut [] none later).locals, rest⟩ by
          rw [← result, ← source])
    exact ⟨part, status, _, start_ok.mp started, serves⟩
  · rintro ⟨part, status, affected, rfl, serves⟩
    have folded : messages.fold (rowBody columns) pushOut [] none
        (part ++ .readyForQuery status :: rest) = ⟨.ok rows, affected, rest⟩ :=
      stream_ok.mpr ⟨part, status, rfl, serves⟩
    refine ⟨(), _, start_ok.mpr rfl, ?_⟩
    rw [collected, folded]

end

end OpenGauss.Driver.Query
