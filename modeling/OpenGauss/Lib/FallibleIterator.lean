/-! Iterators whose steps can fail. Each item makes the state of the iterator smaller,
so collecting its items ends: with all of them, with an error or with a panic. -/

set_option autoImplicit false

namespace OpenGauss.Lib

/-- An iterator; a `next` of `none` is a panic. -/
structure FallibleIterator (State Item Error : Type) where
  next : State → Option (Except Error (Option (Item × State)))
  size : State → Nat
  shorter : ∀ {state rest : State} {item : Item},
    next state = some (.ok (some (item, rest))) → size rest < size state

namespace FallibleIterator

variable {State Item Error : Type} (iterator : FallibleIterator State Item Error)

/-- `collect` into a list. -/
def collect (state : State) : Option (Except Error (List Item)) :=
  match _ : iterator.next state with
  | none => none
  | some (.error error) => some (.error error)
  | some (.ok none) => some (.ok [])
  | some (.ok (some (item, rest))) =>
      (collect rest).map fun result => result.map fun items => item :: items
termination_by iterator.size state
decreasing_by
  rename_i step
  exact iterator.shorter step

/-- The iterator hands out these items and comes to another state. -/
inductive Yields : State → List Item → State → Prop where
  | nil {state : State} : Yields state [] state
  | cons {state between last : State} {item : Item} {items : List Item}
      (step : iterator.next state = some (.ok (some (item, between))))
      (rest : Yields between items last) : Yields state (item :: items) last

variable {iterator} {state last : State} {items : List Item}

theorem collect_panic (step : iterator.next state = none) : iterator.collect state = none := by
  rw [collect]
  split
  · rfl
  · next other => rw [step] at other; cases other
  · next other => rw [step] at other; cases other
  · next other => rw [step] at other; cases other

theorem collect_error {error : Error} (step : iterator.next state = some (.error error)) :
    iterator.collect state = some (.error error) := by
  rw [collect]
  split
  · next other => rw [step] at other; cases other
  · next other => rw [step] at other; cases other; rfl
  · next other => rw [step] at other; cases other
  · next other => rw [step] at other; cases other

theorem collect_end (step : iterator.next state = some (.ok none)) :
    iterator.collect state = some (.ok []) := by
  rw [collect]
  split
  · next other => rw [step] at other; cases other
  · next other => rw [step] at other; cases other
  · rfl
  · next other => rw [step] at other; cases other

theorem collect_item {rest : State} {item : Item}
    (step : iterator.next state = some (.ok (some (item, rest)))) :
    iterator.collect state =
      (iterator.collect rest).map fun result => result.map fun items => item :: items := by
  rw [collect]
  split
  · next other => rw [step] at other; cases other
  · next other => rw [step] at other; cases other
  · next other => rw [step] at other; cases other
  · next other => rw [step] at other; cases other; rfl

theorem Yields.collect (yields : iterator.Yields state items last) :
    iterator.collect state =
      (iterator.collect last).map fun result => result.map fun more => items ++ more := by
  induction yields with
  | nil =>
      cases iterator.collect _ with
      | none => rfl
      | some result => cases result <;> rfl
  | @cons state between last item items step rest ih =>
      rw [collect_item step, ih]
      cases iterator.collect last with
      | none => rfl
      | some result => cases result <;> rfl

theorem Yields.collect_all (yields : iterator.Yields state items last)
    (step : iterator.next last = some (.ok none)) : iterator.collect state = some (.ok items) := by
  rw [yields.collect, collect_end step]
  change some (Except.ok (items ++ [])) = _
  rw [List.append_nil]

variable (iterator) in
/-- Every run comes to a state that hands out nothing. -/
theorem exists_yields (state : State) : ∃ items last, iterator.Yields state items last ∧
    ∀ item rest, iterator.next last ≠ some (.ok (some (item, rest))) := by
  induction size : iterator.size state using Nat.strongRecOn generalizing state with
  | _ bound ih =>
      by_cases more : ∃ item rest, iterator.next state = some (.ok (some (item, rest)))
      · obtain ⟨item, rest, step⟩ := more
        obtain ⟨items, last, yields, stops⟩ := ih _ (size ▸ iterator.shorter step) rest rfl
        exact ⟨item :: items, last, .cons step yields, stops⟩
      · exact ⟨[], state, .nil, fun item rest step => more ⟨item, rest, step⟩⟩

variable (iterator) in
/-- What collecting ends with is decided in the state that hands out nothing. -/
theorem collect_cases (state : State) : ∃ items last, iterator.Yields state items last ∧
    (iterator.next last = none ∧ iterator.collect state = none ∨
      (∃ error, iterator.next last = some (.error error) ∧
        iterator.collect state = some (.error error)) ∨
      iterator.next last = some (.ok none) ∧ iterator.collect state = some (.ok items)) := by
  obtain ⟨items, last, yields, stops⟩ := exists_yields iterator state
  refine ⟨items, last, yields, ?_⟩
  cases step : iterator.next last with
  | none =>
      rw [yields.collect, collect_panic step]
      exact .inl ⟨rfl, rfl⟩
  | some result =>
      cases result with
      | error error =>
          rw [yields.collect, collect_error step]
          exact .inr (.inl ⟨error, rfl, rfl⟩)
      | ok answer =>
          cases answer with
          | none => exact .inr (.inr ⟨rfl, yields.collect_all step⟩)
          | some found => exact absurd step (stops found.1 found.2)

theorem collect_none_iff :
    iterator.collect state = none ↔
      ∃ items last, iterator.Yields state items last ∧ iterator.next last = none := by
  constructor
  · intro panics
    obtain ⟨items, last, yields, ⟨step, _⟩ | ⟨error, _, collected⟩ | ⟨_, collected⟩⟩ :=
      collect_cases iterator state
    · exact ⟨items, last, yields, step⟩
    · rw [panics] at collected
      cases collected
    · rw [panics] at collected
      cases collected
  · intro reaches
    obtain ⟨items, last, yields, step⟩ := reaches
    rw [yields.collect, collect_panic step]
    rfl

theorem collect_ok_iff :
    iterator.collect state = some (.ok items) ↔
      ∃ last, iterator.Yields state items last ∧ iterator.next last = some (.ok none) := by
  constructor
  · intro collected
    obtain ⟨others, last, yields, ⟨_, panics⟩ | ⟨error, _, fails⟩ | ⟨step, same⟩⟩ :=
      collect_cases iterator state
    · rw [panics] at collected
      cases collected
    · rw [fails] at collected
      cases collected
    · rw [same] at collected
      cases collected
      exact ⟨last, yields, step⟩
  · intro reaches
    obtain ⟨last, yields, step⟩ := reaches
    exact yields.collect_all step

end FallibleIterator

end OpenGauss.Lib
