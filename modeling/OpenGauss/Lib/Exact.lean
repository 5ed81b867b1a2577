import Mathlib.Data.List.Forall2

/-! Readers that succeed exactly on the forms of their values, with any rest behind them. -/

set_option autoImplicit false

namespace OpenGauss.Lib

/-- Reading from the front of a list. -/
abbrev Scan (Symbol Error Value : Type) := StateT (List Symbol) (Except Error) Value

namespace Scan

variable {Symbol Error Value Next : Type}

/-- The reader answers a value exactly where a form of it is in front. -/
def Exact (reader : Scan Symbol Error Value) (form : Value → List Symbol → Prop) : Prop :=
  ∀ input value rest,
    reader input = .ok (value, rest) ↔ ∃ wire, form value wire ∧ input = wire ++ rest

variable {reader : Scan Symbol Error Value} {form : Value → List Symbol → Prop}

theorem bind_ok {next : Value → Scan Symbol Error Next} {input rest : List Symbol} {result : Next} :
    (reader >>= next) input = .ok (result, rest) ↔
      ∃ value between, reader input = .ok (value, between) ∧ next value between = .ok (result, rest) := by
  have steps : (reader >>= next) input = Except.bind (reader input) fun done => next done.1 done.2 := rfl
  rw [steps]
  cases reader input with
  | error error => simp [Except.bind]
  | ok done =>
      obtain ⟨value, between⟩ := done
      constructor
      · exact fun later => ⟨value, between, rfl, later⟩
      · rintro ⟨_, _, same, later⟩
        cases same
        exact later

theorem Exact.imp {other : Value → List Symbol → Prop} (exact : Exact reader form)
    (same : ∀ value wire, form value wire ↔ other value wire) : Exact reader other := by
  intro input value rest
  rw [exact input value rest]
  simp [same]

theorem exact_pure (value : Value) :
    Exact (pure value : Scan Symbol Error Value) (fun found wire => found = value ∧ wire = []) := by
  intro input found rest
  have answer : (pure value : Scan Symbol Error Value) input = .ok (value, input) := rfl
  rw [answer]
  constructor
  · intro same
    cases same
    exact ⟨[], ⟨rfl, rfl⟩, rfl⟩
  · rintro ⟨wire, ⟨rfl, rfl⟩, rfl⟩
    rfl

theorem Exact.bind {next : Value → Scan Symbol Error Next}
    {forms : Value → Next → List Symbol → Prop} (first : Exact reader form)
    (second : ∀ value, Exact (next value) (forms value)) :
    Exact (reader >>= next) fun result wire =>
      ∃ value front back, form value front ∧ forms value result back ∧ wire = front ++ back := by
  intro input result rest
  rw [bind_ok]
  constructor
  · rintro ⟨value, between, read, later⟩
    obtain ⟨front, formed, rfl⟩ := (first _ _ _).mp read
    obtain ⟨back, formedBack, rfl⟩ := (second value _ _ _).mp later
    exact ⟨front ++ back, ⟨value, front, back, formed, formedBack, rfl⟩, by simp⟩
  · rintro ⟨_, ⟨value, front, back, formed, formedBack, rfl⟩, rfl⟩
    refine ⟨value, back ++ rest, (first _ _ _).mpr ⟨front, formed, by simp⟩, ?_⟩
    exact (second value _ _ _).mpr ⟨back, formedBack, rfl⟩

/-- The last step of a reader makes a result of the value. -/
theorem Exact.answer (first : Exact reader form) (make : Value → Next) :
    Exact (do let value ← reader; pure (make value) : Scan Symbol Error Next) fun result wire =>
      ∃ value, form value wire ∧ result = make value := by
  refine (first.bind fun value => exact_pure (make value)).imp fun result wire => ?_
  constructor
  · rintro ⟨value, front, _, formed, ⟨rfl, rfl⟩, rfl⟩
    exact ⟨value, by simpa using formed, rfl⟩
  · rintro ⟨value, formed, rfl⟩
    exact ⟨value, wire, [], formed, ⟨rfl, rfl⟩, by simp⟩

/-- A result that has been computed. -/
theorem exact_lift (result : Except Error Value) :
    Exact (liftM result : Scan Symbol Error Value) (fun value wire => result = .ok value ∧ wire = []) := by
  intro input value rest
  have answer : (liftM result : Scan Symbol Error Value) input =
      result.map fun value => (value, input) := by
    cases result <;> rfl
  rw [answer]
  cases result with
  | error error => simp [Except.map]
  | ok found => simp [Except.map, eq_comm]

end Scan

end OpenGauss.Lib
