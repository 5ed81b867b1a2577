/-! Routines that share a state and may fail, and rules for what holds of the state before and
after them. A routine that fails leaves the state as it is by then. -/

set_option autoImplicit false

namespace OpenGauss.Lib

abbrev Routine (State Error Value : Type) := ExceptT Error (StateM State) Value

namespace Routine

variable {State Error Value Next : Type}

def execute (routine : Routine State Error Value) (state : State) : Except Error Value × State :=
  Id.run (routine.run.run state)

/-- The end of a routine: `holds` of the state, and the value meets `returns` or the error
`fails`. -/
structure Ends (holds : State → Prop) (returns : Value → Prop) (fails : Error → Prop)
    (result : Except Error Value × State) : Prop where
  keeps : holds result.2
  value : ∀ value, result.1 = .ok value → returns value
  error : ∀ error, result.1 = .error error → fails error

/-- From a state where `holds`, the routine comes to such an end. -/
def Triple (holds : State → Prop) (routine : Routine State Error Value)
    (returns : Value → Prop) (fails : Error → Prop) : Prop :=
  ∀ state, holds state → Ends holds returns fails (routine.execute state)

variable {holds : State → Prop} {routine : Routine State Error Value}
  {next : Value → Routine State Error Next} {returns between : Value → Prop}
  {fails failing : Error → Prop} {after : Next → Prop}

theorem ends_ok {state : State} {value : Value} (held : holds state) (returned : returns value) :
    Ends holds returns fails (.ok value, state) where
  keeps := held
  value _ same := Except.ok.inj same ▸ returned
  error _ same := nomatch same

theorem ends_error {state : State} {error : Error} (held : holds state) (failed : fails error) :
    Ends holds returns fails (.error error, state) where
  keeps := held
  value _ same := nomatch same
  error _ same := Except.error.inj same ▸ failed

theorem execute_bind_ok {state middle : State} {value : Value}
    (ran : routine.execute state = (.ok value, middle)) :
    (routine >>= next).execute state = (next value).execute middle := by
  have steps : routine.run.run state = (.ok value, middle) := ran
  simp only [execute, ExceptT.run_bind, StateT.run_bind, steps, Id.run_bind]
  rfl

theorem execute_bind_error {state middle : State} {error : Error}
    (ran : routine.execute state = (.error error, middle)) :
    (routine >>= next).execute state = (.error error, middle) := by
  have steps : routine.run.run state = (.error error, middle) := ran
  simp only [execute, ExceptT.run_bind, StateT.run_bind, steps, Id.run_bind]
  rfl

theorem execute_bind_iff {state final : State} {result : Next} :
    (routine >>= next).execute state = (.ok result, final) ↔
      ∃ value middle, routine.execute state = (.ok value, middle) ∧
        (next value).execute middle = (.ok result, final) := by
  cases ran : routine.execute state with
  | mk outcome middle =>
    cases outcome with
    | error error =>
        rw [execute_bind_error ran]
        simp
    | ok value =>
        rw [execute_bind_ok ran]
        constructor
        · exact fun later => ⟨value, middle, rfl, later⟩
        · rintro ⟨_, _, same, later⟩
          cases same
          exact later

theorem triple_pure {value : Value} (returned : returns value) :
    Triple holds (pure value : Routine State Error Value) returns fails :=
  fun _ held => ends_ok held returned

theorem triple_throw {error : Error} (failed : fails error) :
    Triple holds (throw error : Routine State Error Value) returns fails :=
  fun _ held => ends_error held failed

theorem triple_lift {result : Except Error Value} (returned : ∀ value, result = .ok value → returns value)
    (failed : ∀ error, result = .error error → fails error) :
    Triple holds (liftM result : Routine State Error Value) returns fails :=
  fun _ held => ⟨held, returned, failed⟩

theorem triple_get {returns : State → Prop} (known : ∀ state, holds state → returns state) :
    Triple holds (get : Routine State Error State) returns fails :=
  fun state held => ends_ok held (known state held)

theorem triple_modify {update : State → State} {returns : Unit → Prop} (returned : returns ())
    (kept : ∀ state, holds state → holds (update state)) :
    Triple holds (modify update : Routine State Error Unit) returns fails :=
  fun state held => ends_ok (kept state held) returned

theorem triple_bind (first : Triple holds routine between fails)
    (second : ∀ value, between value → Triple holds (next value) after fails) :
    Triple holds (routine >>= next) after fails := by
  intro state held
  have ended := first state held
  cases ran : routine.execute state with
  | mk outcome middle =>
    rw [ran] at ended
    cases outcome with
    | error error =>
        rw [execute_bind_error ran]
        exact ends_error ended.keeps (ended.error error rfl)
    | ok value =>
        rw [execute_bind_ok ran]
        exact second value (ended.value value rfl) middle ended.keeps

section

variable {handler : Error → Routine State Error Value}

theorem execute_tryCatch_ok {state middle : State} {value : Value}
    (ran : routine.execute state = (.ok value, middle)) :
    (tryCatch routine handler).execute state = (.ok value, middle) := by
  have steps : Id.run (StateT.run routine state) = (.ok value, middle) := ran
  simp only [execute, tryCatch, tryCatchThe, MonadExceptOf.tryCatch, ExceptT.tryCatch, ExceptT.run_mk,
    StateT.run_bind, Id.run_bind]
  rw [steps]
  rfl

theorem execute_tryCatch_error {state middle : State} {error : Error}
    (ran : routine.execute state = (.error error, middle)) :
    (tryCatch routine handler).execute state = (handler error).execute middle := by
  have steps : Id.run (StateT.run routine state) = (.error error, middle) := ran
  simp only [execute, tryCatch, tryCatchThe, MonadExceptOf.tryCatch, ExceptT.tryCatch, ExceptT.run_mk,
    StateT.run_bind, Id.run_bind]
  rw [steps]
  rfl

theorem triple_tryCatch (first : Triple holds routine returns failing)
    (second : ∀ error, failing error → Triple holds (handler error) returns fails) :
    Triple holds (tryCatch routine handler) returns fails := by
  intro state held
  have ended := first state held
  cases ran : routine.execute state with
  | mk outcome middle =>
    rw [ran] at ended
    cases outcome with
    | ok value =>
        rw [execute_tryCatch_ok ran]
        exact ends_ok ended.keeps (ended.value value rfl)
    | error error =>
        rw [execute_tryCatch_error ran]
        exact second error (ended.error error rfl) middle ended.keeps

end

theorem Triple.imp {weaker : Value → Prop} {worse : Error → Prop}
    (triple : Triple holds routine returns fails) (value : ∀ value, returns value → weaker value)
    (error : ∀ error, fails error → worse error) : Triple holds routine weaker worse := by
  intro state held
  have ended := triple state held
  exact ⟨ended.keeps, fun result same => value result (ended.value result same),
    fun failure same => error failure (ended.error failure same)⟩

theorem Triple.runs {state : State} (triple : Triple holds routine returns fun _ => False)
    (held : holds state) :
    ∃ value after, routine.execute state = (.ok value, after) ∧ returns value ∧ holds after := by
  have ended := triple state held
  cases ran : routine.execute state with
  | mk outcome after =>
    rw [ran] at ended
    cases outcome with
    | error error => exact (ended.error error rfl).elim
    | ok value => exact ⟨value, after, rfl, ended.value value rfl, ended.keeps⟩

/-! ### Routines on different states -/

section

variable {Other : Type} {same : State → Other → Prop}

/-- From states that are the same, both routines come to the same, in states that are the same. -/
def Agrees (same : State → Other → Prop) (routine : Routine State Error Value)
    (other : Routine Other Error Value) : Prop :=
  ∀ state twin, same state twin →
    (routine.execute state).1 = (other.execute twin).1 ∧
      same (routine.execute state).2 (other.execute twin).2

theorem agrees_pure (value : Value) :
    Agrees same (pure value : Routine State Error Value) (pure value) :=
  fun _ _ start => ⟨rfl, start⟩

theorem agrees_throw (error : Error) :
    Agrees same (throw error : Routine State Error Value) (throw error) :=
  fun _ _ start => ⟨rfl, start⟩

theorem Agrees.bind {other : Routine Other Error Value} {following : Value → Routine Other Error Next}
    (first : Agrees same routine other) (second : ∀ value, Agrees same (next value) (following value)) :
    Agrees same (routine >>= next) (other >>= following) := by
  intro state twin start
  obtain ⟨equal, later⟩ := first state twin start
  cases ran : routine.execute state with
  | mk outcome middle =>
    cases ran' : other.execute twin with
    | mk outcome' middle' =>
      simp only [ran, ran'] at equal later
      subst equal
      cases outcome with
      | error error =>
          rw [execute_bind_error ran, execute_bind_error ran']
          exact ⟨rfl, later⟩
      | ok value =>
          rw [execute_bind_ok ran, execute_bind_ok ran']
          exact second value middle middle' later

end

end Routine

end OpenGauss.Lib
