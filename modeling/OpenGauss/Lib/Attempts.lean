import Mathlib.Data.List.Basic

/-! Attempts that are made in turn until one succeeds. An attempt works on a state, and may
panic. -/

set_option autoImplicit false

namespace OpenGauss.Lib.Attempts

section

variable {World Value Result : Type}

/-- A program that does not panic. -/
def Returns (program : StateT World Option Value) : Prop := ∀ world, program.run world ≠ none

theorem returns_pure (value : Value) : Returns (pure value : StateT World Option Value) :=
  fun _ => Option.some_ne_none _

theorem Returns.bind {first : StateT World Option Value}
    {next : Value → StateT World Option Result} (returns : Returns first)
    (rest : ∀ value, Returns (next value)) : Returns (first >>= next) := by
  intro world
  obtain ⟨⟨value, after⟩, ran⟩ := Option.ne_none_iff_exists'.mp (returns world)
  have continued : (first >>= next).run world = (next value).run after := by
    rw [StateT.run_bind, ran]
    rfl
  rw [continued]
  exact rest value after

end

variable {World Item Value Error : Type} (attempt : Item → StateT World Option (Except Error Value))

/-- The loop: the first success, or else the last error, if there is one. -/
def tryEach : Option Error → List Item → StateT World Option (Except (Option Error) Value)
  | last, [] => return .error last
  | _, item :: items => do
      match ← attempt item with
      | .ok value => return .ok value
      | .error error => tryEach (some error) items

/-- The attempts of a loop with their outcomes, each made in the state that the one before it
has left. -/
inductive InTurn : World → List Item → List (Item × Except Error Value) → World → Prop
  | done {world : World} : InTurn world [] [] world
  | success {world after : World} {item : Item} {items : List Item} {value : Value}
      (succeeds : (attempt item).run world = some (.ok value, after)) :
      InTurn world (item :: items) [(item, .ok value)] after
  | failure {world next after : World} {item : Item} {items : List Item} {error : Error}
      {calls : List (Item × Except Error Value)}
      (fails : (attempt item).run world = some (.error error, next))
      (rest : InTurn next items calls after) :
      InTurn world (item :: items) ((item, .error error) :: calls) after

/-- What the loop answers after its attempts. -/
def outcome (last : Option Error) :
    List (Item × Except Error Value) → Except (Option Error) Value
  | [] => .error last
  | (_, .ok value) :: _ => .ok value
  | (_, .error error) :: calls => outcome (some error) calls

def Failed (call : Item × Except Error Value) : Prop := ∃ error, call.2 = .error error

variable {attempt} {world after : World} {items : List Item}
  {calls : List (Item × Except Error Value)} {last : Option Error}

theorem tryEach_run_cons {item : Item} :
    (tryEach attempt last (item :: items)).run world =
      ((attempt item).run world).bind fun answer =>
        (match answer.1 with
          | .ok value => (return .ok value : StateT World Option (Except (Option Error) Value))
          | .error error => tryEach attempt (some error) items).run answer.2 := rfl

/-- A loop makes its attempts in turn, and answers what comes of them. -/
theorem tryEach_run_iff {result : Except (Option Error) Value} :
    (tryEach attempt last items).run world = some (result, after) ↔
      ∃ calls, InTurn attempt world items calls after ∧ result = outcome last calls := by
  induction items generalizing world last with
  | nil =>
      constructor
      · intro ran
        obtain ⟨rfl, rfl⟩ := Prod.mk.inj (Option.some.inj ran)
        exact ⟨[], .done, rfl⟩
      · rintro ⟨calls, made, rfl⟩
        cases made
        rfl
  | cons item items ih =>
      rw [tryEach_run_cons, Option.bind_eq_some_iff]
      constructor
      · rintro ⟨⟨answer, next⟩, ran, ends⟩
        cases answer with
        | ok value =>
            obtain ⟨rfl, rfl⟩ := Prod.mk.inj (Option.some.inj ends)
            exact ⟨_, .success ran, rfl⟩
        | error error =>
            obtain ⟨calls, made, same⟩ := ih.mp ends
            exact ⟨_, .failure ran made, same⟩
      · rintro ⟨calls, made, rfl⟩
        cases made with
        | success succeeds => exact ⟨_, succeeds, rfl⟩
        | failure fails rest => exact ⟨_, fails, ih.mpr ⟨_, rest, rfl⟩⟩

/-- The loop panics in none of its own steps. -/
theorem tryEach_returns (last : Option Error)
    (returns : ∀ item ∈ items, Returns (attempt item)) :
    Returns (tryEach attempt last items) := by
  induction items generalizing last with
  | nil => exact returns_pure _
  | cons item items ih =>
      have first := returns item List.mem_cons_self
      have rest := fun last => ih last fun item member =>
        returns item (List.mem_cons_of_mem _ member)
      refine first.bind fun answer => ?_
      cases answer with
      | ok value => exact returns_pure _
      | error error => exact rest (some error)

namespace InTurn

theorem isPrefix (made : InTurn attempt world items calls after) :
    calls.map Prod.fst <+: items := by
  induction made with
  | done => exact List.prefix_rfl
  | success _ => exact ⟨_, rfl⟩
  | failure _ _ ih => exact List.cons_prefix_cons.mpr ⟨rfl, ih⟩

/-- A loop that answers a value stops at the attempt that returns it. -/
theorem of_ok {value : Value} (made : InTurn attempt world items calls after)
    (ends : outcome last calls = .ok value) :
    ∃ front item, calls = front ++ [(item, .ok value)] ∧ ∀ call ∈ front, Failed call := by
  induction made generalizing last with
  | done => cases ends
  | success _ =>
      obtain rfl := Except.ok.inj ends
      exact ⟨[], _, rfl, List.forall_mem_nil _⟩
  | failure _ _ ih =>
      obtain ⟨front, item, rfl, failed⟩ := ih ends
      exact ⟨_ :: front, item, rfl, List.forall_mem_cons.mpr ⟨⟨_, rfl⟩, failed⟩⟩

/-- A loop that answers an error has tried every item in vain, and the error is the last one. -/
theorem of_error {error : Option Error} (made : InTurn attempt world items calls after)
    (ends : outcome last calls = .error error) :
    calls.map Prod.fst = items ∧ (∀ call ∈ calls, Failed call) ∧
      (calls = [] ∧ error = last ∨
        ∃ front item cause, calls = front ++ [(item, .error cause)] ∧ error = some cause) := by
  induction made generalizing last with
  | done => exact ⟨rfl, List.forall_mem_nil _, .inl ⟨rfl, (Except.error.inj ends).symm⟩⟩
  | success _ => cases ends
  | failure _ _ ih =>
      obtain ⟨tried, failed, cause⟩ := ih ends
      refine ⟨congrArg _ tried, List.forall_mem_cons.mpr ⟨⟨_, rfl⟩, failed⟩, .inr ?_⟩
      rcases cause with ⟨rfl, rfl⟩ | ⟨front, item, cause, rfl, rfl⟩
      · exact ⟨[], _, _, rfl, rfl⟩
      · exact ⟨_ :: front, item, cause, rfl, rfl⟩

end InTurn

end OpenGauss.Lib.Attempts
