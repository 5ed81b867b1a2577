import Mathlib.Data.List.Basic

/-! Runs of a deterministic step function driven by a list of events. A step
that is not possible in a state answers `none`. -/

set_option autoImplicit false

namespace OpenGauss.Lib.Execution

variable {State Event : Type} (step : State → Event → Option State)

/-- The state after a list of events, when every one of them was possible. -/
def execute : State → List Event → Option State
  | state, [] => some state
  | state, event :: events =>
      match step state event with
      | none => none
      | some next => execute next events

@[simp] theorem execute_nil (state : State) : execute step state [] = some state := rfl

theorem execute_cons {state final : State} {event : Event} {events : List Event} :
    execute step state (event :: events) = some final ↔
      ∃ next, step state event = some next ∧ execute step next events = some final := by
  rw [execute]
  cases stepped : step state event with
  | none => simp
  | some next => simp

/-- Every step of the run meets `guard` in the state it is taken from. -/
def Along (guard : State → Event → Prop) : State → List Event → Prop
  | _, [] => True
  | state, event :: events =>
      guard state event ∧ ∀ next, step state event = some next → Along guard next events

instance decidableAlong (guard : State → Event → Prop)
    [∀ state event, Decidable (guard state event)] :
    (state : State) → (events : List Event) → Decidable (Along step guard state events)
  | _, [] => .isTrue trivial
  | state, event :: events =>
      match stepped : step state event with
      | none => decidable_of_iff (guard state event) (by simp [Along, stepped])
      | some next =>
          have := decidableAlong guard next events
          decidable_of_iff (guard state event ∧ Along step guard next events)
            (by simp [Along, stepped])

theorem Along.imp {guard other : State → Event → Prop}
    (implies : ∀ state event, guard state event → other state event) {state : State}
    {events : List Event} (guarded : Along step guard state events) :
    Along step other state events := by
  induction events generalizing state with
  | nil => trivial
  | cons event events ih =>
      exact ⟨implies state event guarded.1, fun next stepped => ih (guarded.2 next stepped)⟩

/-- An invariant that every guarded step keeps holds at the end of a guarded run. -/
theorem invariant_along {guard : State → Event → Prop} {holds : State → Prop}
    (keeps : ∀ state event next, holds state → guard state event →
      step state event = some next → holds next)
    {state final : State} {events : List Event}
    (run : execute step state events = some final) (guarded : Along step guard state events)
    (start : holds state) : holds final := by
  induction events generalizing state with
  | nil =>
      rw [execute_nil, Option.some.injEq] at run
      exact run ▸ start
  | cons event events ih =>
      obtain ⟨next, stepped, later⟩ := (execute_cons step).mp run
      exact ih later (guarded.2 next stepped) (keeps state event next start guarded.1 stepped)

/-- An invariant that every step keeps holds at the end of every run. -/
theorem invariant {holds : State → Prop}
    (keeps : ∀ state event next, holds state → step state event = some next → holds next)
    {state final : State} {events : List Event}
    (run : execute step state events = some final) (start : holds state) : holds final := by
  induction events generalizing state with
  | nil =>
      rw [execute_nil, Option.some.injEq] at run
      exact run ▸ start
  | cons event events ih =>
      obtain ⟨next, stepped, later⟩ := (execute_cons step).mp run
      exact ih later (keeps state event next start stepped)

/-- Where the steps that are possible are those that meet `guard`, the runs that
come to an end are those whose steps all meet it. -/
theorem execute_iff_along {guard : State → Event → Prop} {holds : State → Prop}
    (possible : ∀ state event, holds state →
      ((∃ next, step state event = some next) ↔ guard state event))
    (keeps : ∀ state event next, holds state → step state event = some next → holds next)
    {state : State} {events : List Event} (start : holds state) :
    (∃ final, execute step state events = some final) ↔ Along step guard state events := by
  induction events generalizing state with
  | nil => exact ⟨fun _ => trivial, fun _ => ⟨state, rfl⟩⟩
  | cons event events ih =>
      constructor
      · intro ⟨final, run⟩
        obtain ⟨next, stepped, later⟩ := (execute_cons step).mp run
        refine ⟨(possible state event start).mp ⟨next, stepped⟩, fun other again => ?_⟩
        rw [stepped] at again
        cases again
        exact (ih (keeps state event next start stepped)).mp ⟨final, later⟩
      · intro ⟨met, along⟩
        obtain ⟨next, stepped⟩ := (possible state event start).mpr met
        obtain ⟨final, later⟩ := (ih (keeps state event next start stepped)).mpr (along next stepped)
        exact ⟨final, (execute_cons step).mpr ⟨next, stepped, later⟩⟩

/-- The states that a run has gone through before its last one, the latest
first. -/
inductive Trail (start : State) : List State → State → Prop where
  | start : Trail start [] start
  | step {past : List State} {state next : State} {event : Event} (before : Trail start past state)
      (stepped : step state event = some next) : Trail start (state :: past) next

variable {step}

theorem Trail.extend {start state final : State} {past : List State} {events : List Event}
    (trail : Trail step start past state) (run : execute step state events = some final) :
    ∃ more, Trail step start more final := by
  induction events generalizing past state with
  | nil =>
      rw [execute_nil, Option.some.injEq] at run
      exact ⟨past, run ▸ trail⟩
  | cons event events ih =>
      obtain ⟨next, stepped, later⟩ := (execute_cons step).mp run
      exact ih (trail.step stepped) later

theorem Trail.invariant {start state : State} {past : List State} {holds : State → Prop}
    (keeps : ∀ state event next, holds state → step state event = some next → holds next)
    (trail : Trail step start past state) (fresh : holds start) : holds state := by
  induction trail with
  | start => exact fresh
  | step before stepped ih => exact keeps _ _ _ ih stepped

/-- What comes about only in steps that leave a mark comes after the mark: a
fact that holds now and did not hold at the start has marked an earlier state. -/
theorem Trail.marked {start state : State} {past : List State} {holds mark : State → Prop}
    (comes : ∀ state event next, step state event = some next → holds next →
      holds state ∨ mark next)
    (trail : Trail step start past state) (fresh : ¬holds start) (now : holds state) :
    ∃ earlier ∈ state :: past, mark earlier := by
  induction trail with
  | start => exact absurd now fresh
  | @step past state next event before stepped ih =>
      obtain already | marked := comes state event next stepped now
      · obtain ⟨earlier, member, marked⟩ := ih already
        exact ⟨earlier, List.mem_cons_of_mem next member, marked⟩
      · exact ⟨next, List.mem_cons_self, marked⟩

/-- A run with the states it has gone through and the event taken in each, the
latest first. -/
inductive Run (step : State → Event → Option State) (start : State) :
    List (State × Event) → State → Prop where
  | start : Run step start [] start
  | step {past : List (State × Event)} {state next : State} {event : Event}
      (before : Run step start past state) (stepped : step state event = some next) :
      Run step start ((state, event) :: past) next

theorem Run.extend {start state final : State} {past : List (State × Event)} {events : List Event}
    (before : Run step start past state) (run : execute step state events = some final) :
    ∃ more, Run step start more final := by
  induction events generalizing past state with
  | nil =>
      rw [execute_nil, Option.some.injEq] at run
      exact ⟨past, run ▸ before⟩
  | cons event events ih =>
      obtain ⟨next, stepped, later⟩ := (execute_cons step).mp run
      exact ih (before.step stepped) later

/-- The run up to one of its states. -/
theorem Run.upTo {start state final : State} {event : Event} {later earlier : List (State × Event)}
    (run : Run step start (later ++ (state, event) :: earlier) final) :
    Run step start earlier state := by
  induction later generalizing final with
  | nil =>
      cases run with
      | step before stepped => exact before
  | cons moment later ih =>
      cases run with
      | step before stepped => exact ih before

end OpenGauss.Lib.Execution
