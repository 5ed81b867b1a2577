import Mathlib.Data.List.TakeWhile

/-! Readers of a wire format, and what it is for a reader to give back the
value whose wire form stands at the front of the input. -/

set_option autoImplicit false

namespace OpenGauss.Lib

/-- A reader of the front of an input. -/
abbrev Reader (Symbol Value : Type) := StateT (List Symbol) Option Value

namespace Reader

variable {Symbol Value Next Item : Type}

def take (count : Nat) : Reader Symbol (List Symbol) := fun input =>
  if count ≤ input.length then some (input.take count, input.drop count) else none

/-- The text before the first `stop`, which is read with it. -/
def through [DecidableEq Symbol] (stop : Symbol) : Reader Symbol (List Symbol) := fun input =>
  if stop ∈ input then
    some (input.takeWhile (· ≠ stop), (input.dropWhile (· ≠ stop)).drop 1)
  else none

def times (reader : Reader Symbol Value) : Nat → Reader Symbol (List Value)
  | 0 => return []
  | count + 1 => return (← reader) :: (← times reader count)

def lift (answer : Option Value) : Reader Symbol Value := fun input => answer.map fun value => (value, input)

/-- The whole input, and nothing behind it. -/
def whole (reader : Reader Symbol Value) (input : List Symbol) : Option Value :=
  match reader input with
  | some (value, []) => some value
  | _ => none

/-- The reader takes `wire` off the front and answers `value`. -/
def Reads (reader : Reader Symbol Value) (wire : List Symbol) (value : Value) : Prop :=
  ∀ rest, reader (wire ++ rest) = some (value, rest)

variable {reader : Reader Symbol Value} {wire : List Symbol} {value : Value}

theorem Reads.whole_eq (reads : Reads reader wire value) : whole reader wire = some value := by
  have all := reads []
  rw [List.append_nil] at all
  rw [whole, all]

theorem reads_pure (value : Value) : Reads (pure value : Reader Symbol Value) [] value :=
  fun _ => rfl

theorem Reads.bind {next : Value → Reader Symbol Next} {wireNext : List Symbol} {result : Next}
    (first : Reads reader wire value) (second : Reads (next value) wireNext result) :
    Reads (reader >>= next) (wire ++ wireNext) result := by
  intro rest
  have step := first (wireNext ++ rest)
  rw [← List.append_assoc] at step
  change (reader (wire ++ wireNext ++ rest)).bind _ = _
  rw [step]
  exact second rest

/-- The last reader, followed by an answer. -/
theorem Reads.answer (first : Reads reader wire value) (next : Value → Next) :
    Reads (do return next (← reader)) wire (next value) := by
  have both : Reads (reader >>= fun read => pure (next read)) (wire ++ []) (next value) :=
    first.bind (reads_pure (next value))
  rwa [List.append_nil] at both

theorem reads_take (wire : List Symbol) : Reads (take wire.length) wire wire := by
  intro rest
  rw [take, if_pos (by rw [List.length_append]; omega), List.take_left, List.drop_left]

theorem reads_through [DecidableEq Symbol] {stop : Symbol} (outside : stop ∉ wire) :
    Reads (through stop) (wire ++ [stop]) wire := by
  intro rest
  have plain : ∀ symbol ∈ wire, decide (symbol ≠ stop) = true := by
    intro symbol member
    simp only [decide_eq_true_eq]
    rintro rfl
    exact outside member
  have ends : decide (stop ≠ stop) = false := by simp
  rw [through, if_pos (by simp), List.append_assoc, List.takeWhile_append_of_pos plain,
    List.dropWhile_append_of_pos plain]
  simp

theorem reads_lift {answer : Option Value} (found : answer = some value) :
    Reads (lift answer : Reader Symbol Value) [] value := by
  intro rest
  rw [lift, found]
  rfl

/-- Items one after another, each read from its own wire form. -/
theorem reads_times {wireOf : Item → List Symbol} {valueOf : Item → Value} {items : List Item}
    (reads : ∀ item ∈ items, Reads reader (wireOf item) (valueOf item)) :
    Reads (times reader items.length) (items.flatMap wireOf) (items.map valueOf) := by
  induction items with
  | nil => exact reads_pure []
  | cons item items ih =>
    obtain ⟨first, rest⟩ := List.forall_mem_cons.mp reads
    exact first.bind ((ih rest).answer _)

/-- Reads the input to its end, at most so many times. -/
def upTo (reader : Reader Symbol Value) : Nat → List Symbol → Option (List Value)
  | _, [] => some []
  | 0, _ :: _ => none
  | count + 1, symbol :: input =>
      match reader (symbol :: input) with
      | none => none
      | some (value, rest) => (upTo reader count rest).map (value :: ·)

/-- Reads the input to its end; every value takes a symbol at least. -/
def all (reader : Reader Symbol Value) (input : List Symbol) : Option (List Value) :=
  upTo reader input.length input

theorem length_le_flatMap {wireOf : Item → List Symbol} {items : List Item}
    (nonempty : ∀ item ∈ items, wireOf item ≠ []) :
    items.length ≤ (items.flatMap wireOf).length := by
  induction items with
  | nil => exact Nat.le_refl _
  | cons item items ih =>
      obtain ⟨first, later⟩ := List.forall_mem_cons.mp nonempty
      have long := List.length_pos_iff.mpr first
      have rest := ih later
      rw [List.flatMap_cons, List.length_append, List.length_cons]
      omega

theorem upTo_step {first : List Symbol} {value : Value} (reads : Reads reader first value)
    (nonempty : first ≠ []) (count : Nat) (rest : List Symbol) :
    upTo reader (count + 1) (first ++ rest) = (upTo reader count rest).map (value :: ·) := by
  have read := reads rest
  cases first with
  | nil => exact absurd rfl nonempty
  | cons symbol symbols =>
      rw [List.cons_append] at read ⊢
      rw [upTo, read]

/-- A sequence of wire forms is read as the sequence of its values. -/
theorem reads_all {wireOf : Item → List Symbol} {valueOf : Item → Value} {items : List Item}
    (reads : ∀ item ∈ items, Reads reader (wireOf item) (valueOf item))
    (nonempty : ∀ item ∈ items, wireOf item ≠ []) :
    all reader (items.flatMap wireOf) = some (items.map valueOf) := by
  have counted (count : Nat) (enough : items.length ≤ count) :
      upTo reader count (items.flatMap wireOf) = some (items.map valueOf) := by
    induction items generalizing count with
    | nil => cases count <;> rfl
    | cons item items ih =>
        cases count with
        | zero => exact absurd enough (Nat.not_succ_le_zero _)
        | succ count =>
            obtain ⟨own, others⟩ := List.forall_mem_cons.mp reads
            obtain ⟨first, later⟩ := List.forall_mem_cons.mp nonempty
            rw [List.flatMap_cons, upTo_step own first,
              ih others later count (Nat.le_of_succ_le_succ enough)]
            rfl
  exact counted _ (length_le_flatMap nonempty)

end Reader

end OpenGauss.Lib
