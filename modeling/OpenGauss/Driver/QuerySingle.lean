import OpenGauss.Driver.QueryProperties

/-! `query_opt` and `query_one` against `query`, on whatever a server answers. -/

set_option autoImplicit false

namespace OpenGauss.Driver.Query

open Lib Lib.Source Lib.Routine Protocol Protocol.Backend

variable {State Ty : Type} {source : Source State Message ClientError} {columns : List (Column Ty)}

/-- How the stream of rows ends when all rows are kept, and when a second row is an error. -/
structure Compared (whole : Ended (Option Nat) State ClientError (List (Row Ty)))
    (single : Ended (Option Nat) State ClientError (Option (Row Ty))) : Prop where
  ok : ∀ rows, whole.result = .ok rows →
    (∃ first : Option (Row Ty), rows = first.toList ∧
        single = ⟨.ok first, whole.locals, whole.source⟩) ∨
      2 ≤ rows.length ∧ single.result = .error .rowCount
  error : ∀ error, whole.result = .error error →
    single = ⟨.error error, whole.locals, whole.source⟩ ∨ single.result = .error .rowCount

/-- The rows that have been collected stay. -/
theorem fold_pushOut_prefix {stream : Body (Option Nat) Message ClientError (Option (Row Ty))}
    (before rows : List (Row Ty)) (locals : Option Nat) (state : State)
    (folded : (source.fold stream pushOut before locals state).result = .ok rows) :
    before <+: rows := by
  induction size : source.size state using Nat.strongRecOn generalizing before locals state with
  | _ bound ih =>
      cases ended : source.run stream locals state with
      | mk result after rest =>
          match result with
          | .error error => simp [fold_error ended] at folded
          | .ok none =>
              rw [fold_end ended] at folded
              cases folded
              exact List.prefix_rfl
          | .ok (some row) =>
              have shorter : source.size rest < bound := by
                simpa [ended, size] using run_shorter (congrArg Ended.result ended)
              rw [fold_some ended] at folded
              exact (List.prefix_append ..).trans (ih _ shorter _ _ _ folded rfl)

theorem compared_stream (stream : Body (Option Nat) Message ClientError (Option (Row Ty)))
    (first : Option (Row Ty)) (locals : Option Nat) (state : State) :
    Compared (source.fold stream pushOut first.toList locals state)
      (source.fold stream keepFirst first locals state) := by
  induction size : source.size state using Nat.strongRecOn generalizing first locals state with
  | _ bound ih =>
      cases ended : source.run stream locals state with
      | mk result after rest =>
          match result with
          | .error error =>
              rw [fold_error ended, fold_error ended]
              constructor
              · intro rows impossible
                cases impossible
              · intro other same
                cases same
                exact .inl rfl
          | .ok none =>
              rw [fold_end ended, fold_end ended]
              constructor
              · intro rows same
                cases same
                exact .inl ⟨first, rfl, rfl⟩
              · intro error impossible
                cases impossible
          | .ok (some row) =>
              have shorter : source.size rest < bound := by
                simpa [ended, size] using run_shorter (congrArg Ended.result ended)
              rw [fold_some ended, fold_some ended]
              cases first with
              | none => exact ih _ shorter (some row) after rest rfl
              | some kept =>
                  -- the second row ends the one loop, and the other goes on
                  constructor
                  · intro rows folded
                    have more := fold_pushOut_prefix _ _ _ _ folded
                    exact .inr ⟨by simpa using more.length_le, rfl⟩
                  · intro error failed
                    exact .inr rfl

/-- The two functions against each other, with `start` before both. -/
structure Agreed (whole : Except ClientError (List (Row Ty)) × State)
    (single : Except ClientError (Option (Row Ty)) × State) : Prop where
  ok : ∀ rows rest, whole = (.ok rows, rest) →
    (∃ first : Option (Row Ty), rows = first.toList ∧ single = (.ok first, rest)) ∨
      2 ≤ rows.length ∧ single.1 = .error .rowCount
  error : ∀ error rest, whole = (.error error, rest) →
    single = (.error error, rest) ∨ single.1 = .error .rowCount

theorem agreed_query (source : Source State Message ClientError) (columns : List (Column Ty))
    (state : State) :
    Agreed ((query source columns).execute state) ((queryOpt source columns).execute state) := by
  unfold query queryOpt
  cases started : (start source).execute state with
  | mk outcome rest =>
      cases outcome with
      | error error =>
          rw [execute_bind_error started, execute_bind_error started]
          constructor
          · intro rows final impossible
            cases impossible
          · intro other final same
            cases same
            exact .inl rfl
      | ok value =>
          rw [execute_bind_ok started, execute_bind_ok started]
          have compared : Compared (source.fold (rowBody columns) pushOut [] none rest)
              (source.fold (rowBody columns) keepFirst none none rest) :=
            compared_stream (rowBody columns) none none rest
          have whole : (tryCollect source columns).execute rest =
              ((source.fold (rowBody columns) pushOut [] none rest).result,
                (source.fold (rowBody columns) pushOut [] none rest).source) := rfl
          have single : (fold source (rowBody columns) keepFirst none none).execute rest =
              ((source.fold (rowBody columns) keepFirst none none rest).result,
                (source.fold (rowBody columns) keepFirst none none rest).source) := rfl
          rw [whole, single]
          constructor
          · intro rows final same
            obtain ⟨result, left⟩ := Prod.mk.inj same
            rcases compared.ok rows result with ⟨first, kept, same⟩ | ⟨many, failed⟩
            · exact .inl ⟨first, kept, by rw [same]; exact congrArg (Prod.mk _) left⟩
            · exact .inr ⟨many, failed⟩
          · intro error final same
            obtain ⟨result, left⟩ := Prod.mk.inj same
            rcases compared.error error result with same | failed
            · exact .inl (by rw [same]; exact congrArg (Prod.mk _) left)
            · exact .inr failed

theorem queryOpt_cases (source : Source State Message ClientError) (columns : List (Column Ty))
    (state : State) :
    (∀ first rest, (queryOpt source columns).execute state = (.ok first, rest) ↔
        (query source columns).execute state = (.ok first.toList, rest)) ∧
      (∀ rows, ((query source columns).execute state).1 = .ok rows → 2 ≤ rows.length →
        ((queryOpt source columns).execute state).1 = .error .rowCount) ∧
      ∀ error, ((query source columns).execute state).1 = .error error →
        ((queryOpt source columns).execute state).1 = .error error ∨
          ((queryOpt source columns).execute state).1 = .error .rowCount := by
  have agreed := agreed_query source columns state
  generalize (query source columns).execute state = whole at agreed
  generalize (queryOpt source columns).execute state = single at agreed
  obtain ⟨result, final⟩ := whole
  refine ⟨fun first rest => ⟨?_, ?_⟩, ?_, ?_⟩
  · rintro rfl
    cases result with
    | error error => rcases agreed.error error final rfl with impossible | impossible <;> cases impossible
    | ok rows =>
        rcases agreed.ok rows final rfl with ⟨other, rfl, same⟩ | ⟨_, impossible⟩
        · cases same
          rfl
        · cases impossible
  · intro same
    rcases agreed.ok _ rest same with ⟨other, kept, rfl⟩ | ⟨many, _⟩
    · cases first <;> cases other <;> cases kept <;> rfl
    · cases first <;> simp at many
  · rintro rows rfl many
    rcases agreed.ok rows final rfl with ⟨other, rfl, _⟩ | ⟨_, failed⟩
    · cases other <;> simp at many
    · exact failed
  · rintro error rfl
    rcases agreed.error error final rfl with rfl | failed
    · exact .inl rfl
    · exact .inr failed

theorem queryOne_cases (source : Source State Message ClientError) (columns : List (Column Ty))
    (state : State) :
    (∀ row rest, (queryOne source columns).execute state = (.ok row, rest) ↔
        (queryOpt source columns).execute state = (.ok (some row), rest)) ∧
      (∀ rest, (queryOpt source columns).execute state = (.ok none, rest) →
        ((queryOne source columns).execute state).1 = .error .rowCount) ∧
      ∀ error, ((queryOpt source columns).execute state).1 = .error error →
        ((queryOne source columns).execute state).1 = .error error := by
  unfold queryOne
  refine ⟨fun row rest => ?_, fun rest none => ?_, fun error failed => ?_⟩
  · rw [execute_bind_iff]
    constructor
    · rintro ⟨first, middle, found, returned⟩
      cases first with
      | none => cases returned
      | some other =>
          cases returned
          exact found
    · exact fun found => ⟨some row, rest, found, rfl⟩
  · rw [execute_bind_ok none]
    rfl
  · cases ran : (queryOpt source columns).execute state with
    | mk outcome rest =>
        rw [ran] at failed
        obtain rfl : outcome = .error error := failed
        rw [execute_bind_error ran]

/-- Whatever the server answers, `query_opt` returns what `query` returns, when that is at most one
row, and `query_one` when it is one row. Any other number of rows is an error, and so is what
`query` fails with, unless a second row comes before that. -/
theorem query_single (source : Source State Message ClientError) (columns : List (Column Ty))
    (state : State) :
    (∀ first rest, (queryOpt source columns).execute state = (.ok first, rest) ↔
        (query source columns).execute state = (.ok first.toList, rest)) ∧
      (∀ row rest, (queryOne source columns).execute state = (.ok row, rest) ↔
        (query source columns).execute state = (.ok [row], rest)) ∧
      (∀ rows, ((query source columns).execute state).1 = .ok rows → rows.length ≠ 1 →
        ((queryOne source columns).execute state).1 = .error .rowCount ∧
          (rows ≠ [] → ((queryOpt source columns).execute state).1 = .error .rowCount)) ∧
      ∀ error, ((query source columns).execute state).1 = .error error →
        ∃ found, (found = error ∨ found = .rowCount) ∧
          ((queryOpt source columns).execute state).1 = .error found ∧
          ((queryOne source columns).execute state).1 = .error found := by
  obtain ⟨same, many, failing⟩ := queryOpt_cases source columns state
  obtain ⟨one, nothing, passed⟩ := queryOne_cases source columns state
  refine ⟨same, fun row rest => (one row rest).trans (same (some row) rest), ?_, ?_⟩
  · intro rows found other
    cases rows with
    | nil =>
        have none := (same none ((query source columns).execute state).2).mpr (Prod.ext found rfl)
        exact ⟨nothing _ none, fun some => absurd rfl some⟩
    | cons row rows =>
        have more : 2 ≤ (row :: rows).length := by
          cases rows with
          | nil => exact absurd rfl other
          | cons second rows => simp
        have failed := many _ found more
        exact ⟨passed _ failed, fun _ => failed⟩
  · intro error failed
    rcases failing error failed with found | found
    · exact ⟨error, .inl rfl, found, passed _ found⟩
    · exact ⟨.rowCount, .inr rfl, found, passed _ found⟩

/-- An answer without rows. -/
theorem query_single_none :
    ((queryOne messages ([] : List (Column Unit))).execute [.bindComplete, .readyForQuery 73]).1 =
      .error .rowCount := by
  have none : ((query messages ([] : List (Column Unit))).execute
      [.bindComplete, .readyForQuery 73]).1 = .ok [] :=
    congrArg Prod.fst (query_ok.mpr ⟨[], 73, none, rfl, .nil⟩)
  exact ((query_single messages [] _).2.2.1 [] none (by simp)).1

end OpenGauss.Driver.Query
