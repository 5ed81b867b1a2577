/-! Writers of a growing buffer. A writer may fail and leaves what it has
written so far; a place kept free is filled in when its content is known. -/

set_option autoImplicit false

namespace OpenGauss.Lib

/-- A writer of a buffer of symbols, which an error leaves as it is by then. -/
abbrev Builder (Symbol Error Value : Type) := ExceptT Error (StateM (List Symbol)) Value

namespace Builder

variable {Symbol Error Value Next : Type}

/-- `&mut buf[base..]`, overwritten from its front. -/
def overwrite (buf : List Symbol) (base : Nat) (patch : List Symbol) : List Symbol :=
  buf.take base ++ patch ++ buf.drop (base + patch.length)

theorem overwrite_append (front hole patch tail : List Symbol) (same : hole.length = patch.length) :
    overwrite (front ++ hole ++ tail) front.length patch = front ++ patch ++ tail := by
  rw [overwrite, List.append_assoc front hole tail, List.take_left, ← same, List.drop_append,
    List.drop_eq_nil_of_le (by omega)]
  simp

def append (symbols : List Symbol) : Builder Symbol Error Unit :=
  modify (· ++ symbols)

/-- `buf.len()`. -/
def length : Builder Symbol Error Nat := return (← get).length

/-- Writes over what stands from `base` on. -/
def patch (base : Nat) (symbols : List Symbol) : Builder Symbol Error Unit :=
  modify fun buf => overwrite buf base symbols

/-- A builder of another error type, with its errors converted. -/
def mapError {Other : Type} (convert : Other → Error) (build : Builder Symbol Other Value) :
    Builder Symbol Error Value :=
  ExceptT.mk ((fun result => result.mapError convert) <$> build.run)

def execute (build : Builder Symbol Error Value) (buf : List Symbol) : Except Error Value × List Symbol :=
  Id.run (build.run.run buf)

/-- The builder succeeds with `value` and leaves the buffer `after`. -/
def Ok (build : Builder Symbol Error Value) (buf : List Symbol) (value : Value) (after : List Symbol) :
    Prop :=
  build.execute buf = (.ok value, after)

/-- The builder leaves the bytes before it as they are, whether it fails or not. -/
def Extends (build : Builder Symbol Error Value) : Prop :=
  ∀ buf, buf <+: (build.execute buf).2

variable {build : Builder Symbol Error Value} {next : Value → Builder Symbol Error Next}
  {buf after between : List Symbol} {value : Value}

theorem execute_bind_ok (ran : Ok build buf value between) :
    (build >>= next).execute buf = (next value).execute between := by
  have steps : build.run.run buf = (.ok value, between) := ran
  simp only [execute, ExceptT.run_bind, StateT.run_bind, steps, Id.run_bind]
  rfl

theorem execute_bind_error {error : Error} (ran : build.execute buf = (.error error, between)) :
    (build >>= next).execute buf = (.error error, between) := by
  have steps : build.run.run buf = (.error error, between) := ran
  simp only [execute, ExceptT.run_bind, StateT.run_bind, steps, Id.run_bind]
  rfl

theorem ok_bind {result : Next} :
    Ok (build >>= next) buf result after ↔
      ∃ value between, Ok build buf value between ∧ Ok (next value) between result after := by
  cases ran : build.execute buf with
  | mk outcome between =>
    cases outcome with
    | error error => simp [Ok, execute_bind_error ran, ran]
    | ok value => simp [Ok, execute_bind_ok ran, ran, and_assoc]

theorem ok_pure {result : Value} :
    Ok (pure value : Builder Symbol Error Value) buf result after ↔ result = value ∧ after = buf := by
  change ((Except.ok value, buf) = (Except.ok result, after)) ↔ _
  simp [eq_comm]

theorem ok_append {symbols : List Symbol} {result : Unit} :
    Ok (append symbols : Builder Symbol Error Unit) buf result after ↔ after = buf ++ symbols := by
  change ((Except.ok (), buf ++ symbols) = (Except.ok result, after)) ↔ _
  simp [eq_comm]

theorem ok_get {result : List Symbol} :
    Ok (get : Builder Symbol Error (List Symbol)) buf result after ↔ result = buf ∧ after = buf := by
  change ((Except.ok buf, buf) = (Except.ok result, after)) ↔ _
  simp [eq_comm]

theorem ok_length {count : Nat} :
    Ok (length : Builder Symbol Error Nat) buf count after ↔ count = buf.length ∧ after = buf := by
  rw [length, ok_bind]
  simp only [ok_get, ok_pure]
  constructor
  · rintro ⟨_, _, ⟨rfl, rfl⟩, same⟩
    exact same
  · exact fun same => ⟨buf, buf, ⟨rfl, rfl⟩, same⟩

theorem ok_patch {base : Nat} {symbols : List Symbol} {result : Unit} :
    Ok (patch base symbols : Builder Symbol Error Unit) buf result after ↔
      after = overwrite buf base symbols := by
  change ((Except.ok (), overwrite buf base symbols) = (Except.ok result, after)) ↔ _
  simp [eq_comm]

theorem ok_mapError {Other : Type} {convert : Other → Error} {inner : Builder Symbol Other Value} :
    Ok (mapError convert inner) buf value after ↔ Ok inner buf value after := by
  change (((inner.execute buf).1.mapError convert, (inner.execute buf).2) = (.ok value, after)) ↔
    inner.execute buf = (.ok value, after)
  cases inner.execute buf with
  | mk outcome between =>
      cases outcome with
      | error error => exact ⟨fun same => (by cases same), fun same => (by cases same)⟩
      | ok found =>
          change (Except.ok found, between) = _ ↔ _
          simp only [Prod.mk.injEq, Except.ok.injEq]

theorem Ok.extends (ran : Ok build buf value after) (extending : Extends build) :
    ∃ written, after = buf ++ written := by
  obtain ⟨written, same⟩ := extending buf
  have left : (build.execute buf).2 = after := congrArg Prod.snd ran
  exact ⟨written, by rw [← left, same]⟩

theorem extends_pure (value : Value) : Extends (pure value : Builder Symbol Error Value) :=
  fun buf => List.prefix_refl buf

theorem extends_length_only : Extends (length : Builder Symbol Error Nat) :=
  fun buf => List.prefix_refl buf

theorem extends_append (symbols : List Symbol) :
    Extends (append symbols : Builder Symbol Error Unit) :=
  fun buf => List.prefix_append buf symbols

theorem extends_bind (first : Extends build) (second : ∀ value, Extends (next value)) :
    Extends (build >>= next) := by
  intro buf
  have kept := first buf
  cases ran : build.execute buf with
  | mk outcome between =>
    rw [ran] at kept
    cases outcome with
    | error error => rwa [execute_bind_error ran]
    | ok value =>
      rw [execute_bind_ok ran]
      exact kept.trans (second value between)

theorem extends_mapError {Other : Type} {convert : Other → Error} {inner : Builder Symbol Other Value}
    (kept : Extends inner) : Extends (mapError convert inner) :=
  fun buf => kept buf

/-- A loop that carries a value from one item to the next. -/
theorem extends_foldlM {Item : Type} (step : Value → Item → Builder Symbol Error Value)
    (kept : ∀ value item, Extends (step value item)) (items : List Item) (value : Value) :
    Extends (items.foldlM step value) := by
  induction items generalizing value with
  | nil => exact extends_pure value
  | cons item items ih => exact extends_bind (kept value item) ih

/-- The builder leaves the first `base` symbols as they are. -/
def Keeps (base : Nat) (build : Builder Symbol Error Value) : Prop :=
  ∀ front tail, front.length = base → front <+: (build.execute (front ++ tail)).2

theorem Extends.keeps (extending : Extends build) (base : Nat) : Keeps base build :=
  fun front tail _ => (List.prefix_append front tail).trans (extending _)

theorem keeps_patch (base : Nat) (symbols : List Symbol) :
    Keeps base (patch base symbols : Builder Symbol Error Unit) := by
  rintro front tail rfl
  change front <+: overwrite (front ++ tail) front.length symbols
  rw [overwrite, List.take_left, List.append_assoc]
  exact List.prefix_append _ _

theorem keeps_bind {base : Nat} (first : Keeps base build) (second : ∀ value, Keeps base (next value)) :
    Keeps base (build >>= next) := by
  intro front tail same
  have kept := first front tail same
  cases ran : build.execute (front ++ tail) with
  | mk outcome between =>
    rw [ran] at kept
    cases outcome with
    | error error => rwa [execute_bind_error ran]
    | ok value =>
      rw [execute_bind_ok ran]
      obtain ⟨later, rfl⟩ := kept
      exact second value front later same

/-- A builder that patches only behind the place where it begins. -/
theorem extends_length {rest : Nat → Builder Symbol Error Value} (kept : ∀ base, Keeps base (rest base)) :
    Extends (length >>= rest) := by
  intro buf
  rw [execute_bind_ok (ok_length.mpr ⟨rfl, rfl⟩)]
  simpa using kept buf.length buf [] rfl

/-! ### Errors that do not occur -/

/-- The builder does not fail with this error. -/
def Avoids (error : Error) (build : Builder Symbol Error Value) : Prop :=
  ∀ buf, (build.execute buf).1 ≠ .error error

theorem avoids_pure {error : Error} (value : Value) :
    Avoids error (pure value : Builder Symbol Error Value) :=
  fun _ failed => nomatch failed

theorem avoids_append {error : Error} (symbols : List Symbol) :
    Avoids error (append symbols : Builder Symbol Error Unit) :=
  fun _ failed => nomatch failed

theorem avoids_length {error : Error} : Avoids error (length : Builder Symbol Error Nat) :=
  fun _ failed => nomatch failed

theorem avoids_patch {error : Error} (base : Nat) (symbols : List Symbol) :
    Avoids error (patch base symbols : Builder Symbol Error Unit) :=
  fun _ failed => nomatch failed

theorem avoids_throw {error other : Error} (different : other ≠ error) :
    Avoids error (throw other : Builder Symbol Error Value) :=
  fun _ failed => different (Except.error.inj failed)

theorem avoids_bind {error : Error} (first : Avoids error build)
    (second : ∀ value, Avoids error (next value)) : Avoids error (build >>= next) := by
  intro buf
  have fine := first buf
  cases ran : build.execute buf with
  | mk outcome between =>
    rw [ran] at fine
    cases outcome with
    | error other =>
      rw [execute_bind_error ran]
      exact fun failed => fine (congrArg Except.error (Except.error.inj failed))
    | ok value =>
      rw [execute_bind_ok ran]
      exact second value between

end Builder

end OpenGauss.Lib
