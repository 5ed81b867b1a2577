import OpenGauss.Gaussdb.Timeouts

/-! Which overrides of the timeouts are taken (`gaussdb`, `config.rs`): the built-in statement
timeout is compared with a lifetime that is set without a statement timeout. -/

set_option autoImplicit false

namespace OpenGauss.Gaussdb.TimeoutConfig

/-- A string that is given can be read. -/
def Parses {Value : Type} (read : List Char → Except TimeoutError Value)
    (text : Option (List Char)) : Prop :=
  ∀ given ∈ text, ∃ value, read given = .ok value

/-- What is read of a string that is given. -/
def given {Value : Type} (read : List Char → Except TimeoutError Value)
    (text : Option (List Char)) : Option Value :=
  text.bind fun text => (read text).toOption

/-- The arguments of `from_overrides`. -/
structure Overrides where
  statementTimeout : Option (List Char)
  connectionMaxLifetime : Option (List Char)
  timeoutAction : Option (List Char)
  base : Option TimeoutConfig
  deriving DecidableEq, Repr

namespace Overrides

variable (overrides : Overrides)

def config : Except TimeoutError TimeoutConfig :=
  fromOverrides overrides.statementTimeout overrides.connectionMaxLifetime overrides.timeoutAction
    overrides.base

def Parses : Prop :=
  TimeoutConfig.Parses parseDuration overrides.statementTimeout ∧
    TimeoutConfig.Parses parseDuration overrides.connectionMaxLifetime ∧
    TimeoutConfig.Parses TimeoutAction.fromStr overrides.timeoutAction

/-- The statement timeout that is set, here or in the base. -/
def timeoutSet : Option Duration :=
  (given parseDuration overrides.statementTimeout).or
    (overrides.base.bind TimeoutConfig.statementTimeout)

/-- The lifetime that is set, here or in the base. -/
def lifetimeSet : Option Duration :=
  (given parseDuration overrides.connectionMaxLifetime).or
    (overrides.base.bind TimeoutConfig.connectionMaxLifetime)

def actionSet : Option TimeoutAction :=
  (given TimeoutAction.fromStr overrides.timeoutAction).or
    (overrides.base.map TimeoutConfig.timeoutAction)

/-- Both are set, and the statement timeout is the longer one. -/
def Conflicting : Prop :=
  ∃ timeout lifetime, overrides.timeoutSet = some timeout ∧
    overrides.lifetimeSet = some lifetime ∧ lifetime < timeout

/-- Each field is what is set, or else the default. -/
structure Settles (config : TimeoutConfig) : Prop where
  statementTimeout : config.statementTimeout =
    overrides.timeoutSet.or TimeoutConfig.default.statementTimeout
  connectionMaxLifetime : config.connectionMaxLifetime =
    overrides.lifetimeSet.or TimeoutConfig.default.connectionMaxLifetime
  timeoutAction : config.timeoutAction =
    overrides.actionSet.getD TimeoutConfig.default.timeoutAction

/-- The overrides are taken exactly if they can be read and do not conflict, and then they
are settled. -/
structure Honoured : Prop where
  taken : (∃ config, overrides.config = .ok config) ↔
    overrides.Parses ∧ ¬overrides.Conflicting
  settles : ∀ config, overrides.config = .ok config → overrides.Settles config

/-- A lifetime is set that is shorter than the default statement timeout, and no statement
timeout is. -/
def BelowDefault : Prop :=
  overrides.Parses ∧ overrides.timeoutSet = none ∧
    ∃ lifetime, overrides.lifetimeSet = some lifetime ∧
      lifetime < defaultStatementTimeoutSecs * 10 ^ 9

/-! ### What is read -/

/-- The configuration before it is validated. -/
def settled : TimeoutConfig where
  statementTimeout := overrides.timeoutSet.or TimeoutConfig.default.statementTimeout
  connectionMaxLifetime := overrides.lifetimeSet
  timeoutAction := overrides.actionSet.getD .cancel

end Overrides

theorem override_iff {Value : Type} {text : Option (List Char)}
    {read : List Char → Except TimeoutError Value} {inherited value : Value} :
    override text read inherited = .ok value ↔
      Parses read text ∧ (given read text).getD inherited = value := by
  cases text with
  | none => simp [override, Parses, given]
  | some text =>
      cases found : read text with
      | error error => simp [override, Parses, given, found]
      | ok read => simp [override, Parses, given, found, Except.toOption]

theorem override_some_iff {Value : Type} {text : Option (List Char)}
    {read : List Char → Except TimeoutError Value} {inherited value : Option Value} :
    override text (fun text => some <$> read text) inherited = .ok value ↔
      Parses read text ∧ (given read text).or inherited = value := by
  cases text with
  | none => simp [override, Parses, given]
  | some text =>
      cases found : read text with
      | error error => simp [override, Parses, given, found]
      | ok read => simp [override, Parses, given, found, Except.toOption]

theorem bind_ok_iff {Error First Second : Type} {first : Except Error First}
    {next : First → Except Error Second} {result : Second} :
    first >>= next = .ok result ↔ ∃ value, first = .ok value ∧ next value = .ok result := by
  refine ⟨bind_ok, ?_⟩
  rintro ⟨value, rfl, ran⟩
  exact ran

theorem validate_iff {config : TimeoutConfig} : config.validate = .ok () ↔
    ¬∃ timeout lifetime, config.statementTimeout = some timeout ∧
      config.connectionMaxLifetime = some lifetime ∧ lifetime < timeout := by
  obtain ⟨statementTimeout, connectionMaxLifetime, timeoutAction⟩ := config
  cases statementTimeout with
  | none => simp [validate]
  | some timeout =>
      cases connectionMaxLifetime with
      | none => simp [validate]
      | some lifetime =>
          by_cases longer : lifetime < timeout
          · simp [validate, longer]
          · simp [validate, longer]

namespace Overrides

variable {overrides : Overrides}

theorem config_iff {config : TimeoutConfig} : overrides.config = .ok config ↔
    overrides.Parses ∧ overrides.settled.validate = .ok () ∧ config = overrides.settled := by
  have timeout : overrides.settled.statementTimeout =
      (given parseDuration overrides.statementTimeout).or
        ((overrides.base.bind TimeoutConfig.statementTimeout).or
          (some (defaultStatementTimeoutSecs * 10 ^ 9))) := Option.or_assoc
  have action : overrides.settled.timeoutAction =
      (given TimeoutAction.fromStr overrides.timeoutAction).getD
        ((overrides.base.map TimeoutConfig.timeoutAction).getD .cancel) := Option.getD_or
  rw [Overrides.config, fromOverrides]
  constructor
  · intro read
    obtain ⟨first, readFirst, read⟩ := bind_ok read
    obtain ⟨second, readSecond, read⟩ := bind_ok read
    obtain ⟨third, readThird, read⟩ := bind_ok read
    obtain ⟨done, valid, read⟩ := bind_ok read
    obtain ⟨parsesFirst, rfl⟩ := override_some_iff.mp readFirst
    obtain ⟨parsesSecond, rfl⟩ := override_some_iff.mp readSecond
    obtain ⟨parsesThird, rfl⟩ := override_iff.mp readThird
    rw [← timeout, ← action] at valid read
    exact ⟨⟨parsesFirst, parsesSecond, parsesThird⟩, valid, (Except.ok.inj read).symm⟩
  · rintro ⟨⟨parsesFirst, parsesSecond, parsesThird⟩, valid, rfl⟩
    refine bind_ok_iff.mpr ⟨_, override_some_iff.mpr ⟨parsesFirst, rfl⟩, ?_⟩
    refine bind_ok_iff.mpr ⟨_, override_some_iff.mpr ⟨parsesSecond, rfl⟩, ?_⟩
    refine bind_ok_iff.mpr ⟨_, override_iff.mpr ⟨parsesThird, rfl⟩, ?_⟩
    rw [← timeout, ← action]
    exact bind_ok_iff.mpr ⟨(), valid, rfl⟩

/-- The default timeout is validated like one that is set. -/
theorem validate_settled_iff : overrides.settled.validate = .ok () ↔
    ¬overrides.Conflicting ∧ ¬(overrides.timeoutSet = none ∧ ∃ lifetime,
      overrides.lifetimeSet = some lifetime ∧ lifetime < defaultStatementTimeoutSecs * 10 ^ 9) := by
  rw [validate_iff, ← not_or, not_iff_not, Conflicting]
  change (∃ timeout lifetime, overrides.timeoutSet.or (some (defaultStatementTimeoutSecs * 10 ^ 9)) =
    some timeout ∧ overrides.lifetimeSet = some lifetime ∧ lifetime < timeout) ↔ _
  generalize defaultStatementTimeoutSecs * 10 ^ 9 = default
  cases overrides.timeoutSet with
  | none => simp
  | some timeout => simp

theorem taken_iff : (∃ config, overrides.config = .ok config) ↔
    overrides.Parses ∧ overrides.settled.validate = .ok () := by
  simp only [config_iff]
  exact ⟨fun ⟨_, parses, valid, _⟩ => ⟨parses, valid⟩,
    fun ⟨parses, valid⟩ => ⟨_, parses, valid, rfl⟩⟩

theorem not_honoured_below (below : overrides.BelowDefault) : ¬overrides.Honoured := by
  obtain ⟨parses, unset, shorter⟩ := below
  intro honoured
  have unconflicting : ¬overrides.Conflicting := by
    rintro ⟨timeout, lifetime, isSet, -⟩
    rw [unset] at isSet
    cases isSet
  have valid := (taken_iff.mp (honoured.taken.mpr ⟨parses, unconflicting⟩)).2
  exact (validate_settled_iff.mp valid).2 ⟨unset, shorter⟩

/-- The overrides are honoured exactly if no lifetime is set alone that is shorter than the
default statement timeout. -/
theorem honoured_iff (overrides : Overrides) : overrides.Honoured ↔ ¬overrides.BelowDefault := by
  constructor
  · exact fun honoured below => not_honoured_below below honoured
  · intro above
    constructor
    · rw [taken_iff, validate_settled_iff]
      constructor
      · rintro ⟨parses, unconflicting, -⟩
        exact ⟨parses, unconflicting⟩
      · rintro ⟨parses, unconflicting⟩
        exact ⟨parses, unconflicting, fun below => above ⟨parses, below⟩⟩
    · intro config read
      obtain ⟨-, -, rfl⟩ := config_iff.mp read
      exact ⟨rfl, (Option.or_none ..).symm, rfl⟩

/-- A lifetime alone, of ten seconds. -/
def shortLifetime : Overrides where
  statementTimeout := none
  connectionMaxLifetime := some "10s".toList
  timeoutAction := none
  base := none

/-- It is refused, although no statement timeout is set. -/
theorem not_honoured : ¬shortLifetime.Honoured := by
  have read : parseDuration "10s".toList = .ok (10 * 10 ^ 9) := by decide +kernel
  have lifetime : shortLifetime.lifetimeSet = some (10 * 10 ^ 9) := by
    rw [lifetimeSet, given, shortLifetime, Option.bind_some, read]
    rfl
  refine not_honoured_below ⟨⟨nofun, ?_, nofun⟩, rfl, _, lifetime, by decide⟩
  rintro text same
  obtain rfl := Option.some.inj same
  exact ⟨_, read⟩

end Overrides

end OpenGauss.Gaussdb.TimeoutConfig
