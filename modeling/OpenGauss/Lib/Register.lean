/-! A register that some of the events of a run write. -/

set_option autoImplicit false

namespace OpenGauss.Lib.Register

variable {Event Value : Type} (writes : Event → Option Value)

/-- What is in the register after a run. -/
def after (start : Value) : List Event → Value
  | [] => start
  | event :: events => after ((writes event).getD start) events

/-- The last write of a run, or what was in the register before. -/
def LastWritten (start : Value) (events : List Event) (value : Value) : Prop :=
  (∀ event ∈ events, writes event = none) ∧ start = value ∨
    ∃ earlier event later, events = earlier ++ event :: later ∧ writes event = some value ∧
      ∀ other ∈ later, writes other = none

variable {writes}

theorem after_append (start : Value) (earlier later : List Event) :
    after writes start (earlier ++ later) = after writes (after writes start earlier) later := by
  induction earlier generalizing start with
  | nil => rfl
  | cons event earlier ih => exact ih _

theorem after_quiet {start : Value} {events : List Event}
    (quiet : ∀ event ∈ events, writes event = none) : after writes start events = start := by
  induction events with
  | nil => rfl
  | cons event events ih =>
      rw [after, quiet event List.mem_cons_self]
      exact ih fun other member => quiet other (List.mem_cons_of_mem _ member)

theorem after_written {start value : Value} {event : Event} {events : List Event}
    (written : writes event = some value) :
    after writes start (event :: events) = after writes value events := by
  rw [after, written, Option.getD_some]

/-- A run either writes nothing or has a last write. -/
theorem last_write (events : List Event) :
    (∀ event ∈ events, writes event = none) ∨
      ∃ earlier event later value, events = earlier ++ event :: later ∧
        writes event = some value ∧ ∀ other ∈ later, writes other = none := by
  induction events with
  | nil => exact .inl fun _ member => absurd member List.not_mem_nil
  | cons event events ih =>
      rcases ih with quiet | ⟨earlier, last, later, value, rfl, written, quiet⟩
      · cases written : writes event with
        | none => exact .inl (List.forall_mem_cons.mpr ⟨written, quiet⟩)
        | some value => exact .inr ⟨[], event, events, value, rfl, written, quiet⟩
      · exact .inr ⟨event :: earlier, last, later, value, rfl, written, quiet⟩

theorem after_eq_iff {start value : Value} {events : List Event} :
    after writes start events = value ↔ LastWritten writes start events value := by
  constructor
  · intro same
    rcases @last_write _ _ writes events with
      quiet | ⟨earlier, event, later, last, rfl, written, quiet⟩
    · rw [after_quiet quiet] at same
      exact .inl ⟨quiet, same⟩
    · rw [after_append, after_written written, after_quiet quiet] at same
      subst same
      exact .inr ⟨earlier, event, later, rfl, written, quiet⟩
  · intro last
    rcases last with ⟨quiet, rfl⟩ | ⟨earlier, event, later, rfl, written, quiet⟩
    · exact after_quiet quiet
    · rw [after_append, after_written written, after_quiet quiet]

end OpenGauss.Lib.Register
