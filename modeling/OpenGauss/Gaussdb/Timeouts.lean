import Mathlib.Algebra.Group.Nat.Defs
import OpenGauss.Lib.Numeral
import OpenGauss.Lib.Text

/-! The timeouts of a connection (`gaussdb`, `config.rs` and `duration_parse.rs`). -/

set_option autoImplicit false

namespace OpenGauss.Gaussdb

open Lib Lib.Text

/-- In nanoseconds. -/
abbrev Duration := Nat

inductive TimeoutAction where
  | cancel
  | disconnect
  deriving DecidableEq, Repr

structure TimeoutConfig where
  statementTimeout : Option Duration
  connectionMaxLifetime : Option Duration
  timeoutAction : TimeoutAction
  deriving DecidableEq, Repr

def defaultStatementTimeoutSecs : Nat := 600

def TimeoutConfig.default : TimeoutConfig where
  statementTimeout := some (defaultStatementTimeoutSecs * 10 ^ 9)
  connectionMaxLifetime := none
  timeoutAction := .cancel

/-- What the error texts are made from. -/
inductive TimeoutError where
  | emptyDuration
  | invalidDuration (text : List Char)
  | invalidNumber (number text : List Char)
  | unknownUnit (unit text : List Char)
  | overflow (number text : List Char)
  | unknownAction (text : List Char)
  | exceedsLifetime (statementTimeout connectionMaxLifetime : Duration)
  deriving DecidableEq, Repr

/-- `to_lowercase`, as far as a word of ASCII letters can come of it: the Kelvin
sign is the only other character with such a lower case. -/
def lowercaseWord (text : List Char) : List Char :=
  text.map fun char => if char = Char.ofNat 0x212A then 'k' else char.toLower

/-- The milliseconds of a unit. -/
def unitMillis : List (String × Nat) :=
  [("", 1000), ("ms", 1), ("s", 1000), ("m", 60000), ("min", 60000), ("minutes", 60000),
    ("h", 3600000), ("hr", 3600000), ("d", 86400000)]

/-- A number and a unit. The product is checked, in 64 bits. -/
def parseDuration (text : List Char) : Except TimeoutError Duration :=
  let text := trim text
  if text = [] then .error .emptyDuration
  else
    let (number, unit) := (splitAtFirst Char.isAlpha text).getD (text, [])
    if number = [] then .error (.invalidDuration text)
    else
      match Numeral.parseUnsigned (2 ^ 64) number with
      | none => .error (.invalidNumber number text)
      | some value =>
          match unitMillis.lookup (String.ofList (lowercaseWord (trim unit))) with
          | none => .error (.unknownUnit unit text)
          | some millis =>
              if value * millis < 2 ^ 64 then .ok (value * millis * 10 ^ 6)
              else .error (.overflow number text)

def timeoutActionWords : List (String × TimeoutAction) :=
  [("cancel", .cancel), ("keep", .cancel), ("disconnect", .disconnect), ("drop", .disconnect),
    ("reconnect", .disconnect)]

def TimeoutAction.fromStr (text : List Char) : Except TimeoutError TimeoutAction :=
  match timeoutActionWords.lookup (String.ofList (lowercaseWord (trim text))) with
  | some action => .ok action
  | none => .error (.unknownAction text)

namespace TimeoutConfig

def validate (config : TimeoutConfig) : Except TimeoutError Unit :=
  match config.statementTimeout, config.connectionMaxLifetime with
  | some timeout, some lifetime =>
      if lifetime < timeout then .error (.exceedsLifetime timeout lifetime) else .ok ()
  | _, _ => .ok ()

/-- An override that is given, or else what is inherited. -/
def override {Value : Type} (text : Option (List Char))
    (read : List Char → Except TimeoutError Value) (inherited : Value) :
    Except TimeoutError Value :=
  match text with
  | some text => read text
  | none => .ok inherited

def fromOverrides (statementTimeout connectionMaxLifetime timeoutAction : Option (List Char))
    (base : Option TimeoutConfig) : Except TimeoutError TimeoutConfig := do
  let statementTimeout ← override statementTimeout (fun text => some <$> parseDuration text)
    ((base.bind TimeoutConfig.statementTimeout).or (some (defaultStatementTimeoutSecs * 10 ^ 9)))
  let connectionMaxLifetime ← override connectionMaxLifetime
    (fun text => some <$> parseDuration text) (base.bind TimeoutConfig.connectionMaxLifetime)
  let timeoutAction ← override timeoutAction TimeoutAction.fromStr
    ((base.map TimeoutConfig.timeoutAction).getD .cancel)
  let config : TimeoutConfig := { statementTimeout, connectionMaxLifetime, timeoutAction }
  config.validate
  return config

theorem bind_ok {Error First Second : Type} {first : Except Error First}
    {next : First → Except Error Second} {result : Second} (ran : first >>= next = .ok result) :
    ∃ value, first = .ok value ∧ next value = .ok result := by
  cases first with
  | error error => cases ran
  | ok value => exact ⟨value, rfl, ran⟩

/-- A configuration that has been read is valid. -/
theorem validate_fromOverrides {statementTimeout connectionMaxLifetime timeoutAction :
      Option (List Char)} {base : Option TimeoutConfig} {config : TimeoutConfig}
    (read : fromOverrides statementTimeout connectionMaxLifetime timeoutAction base = .ok config) :
    config.validate = .ok () := by
  unfold fromOverrides at read
  obtain ⟨timeout, -, read⟩ := bind_ok read
  obtain ⟨lifetime, -, read⟩ := bind_ok read
  obtain ⟨action, -, read⟩ := bind_ok read
  obtain ⟨done, valid, read⟩ := bind_ok read
  cases read
  exact valid

/-- What is not overridden is inherited. -/
theorem fromOverrides_inherits {statementTimeout connectionMaxLifetime timeoutAction :
      Option (List Char)} {base config : TimeoutConfig} (full : base.statementTimeout.isSome = true)
    (read : fromOverrides statementTimeout connectionMaxLifetime timeoutAction (some base) =
      .ok config) :
    (statementTimeout = none → config.statementTimeout = base.statementTimeout) ∧
      (connectionMaxLifetime = none →
        config.connectionMaxLifetime = base.connectionMaxLifetime) ∧
      (timeoutAction = none → config.timeoutAction = base.timeoutAction) := by
  obtain ⟨timeout, given⟩ := Option.isSome_iff_exists.mp full
  unfold fromOverrides at read
  obtain ⟨first, readFirst, read⟩ := bind_ok read
  obtain ⟨second, readSecond, read⟩ := bind_ok read
  obtain ⟨third, readThird, read⟩ := bind_ok read
  obtain ⟨done, -, read⟩ := bind_ok read
  cases read
  refine ⟨?_, ?_, ?_⟩
  · rintro rfl
    obtain rfl := Except.ok.inj readFirst
    rw [Option.bind_some, given, Option.some_or]
  · rintro rfl
    exact (Except.ok.inj readSecond).symm
  · rintro rfl
    exact (Except.ok.inj readThird).symm

/-- Without any override, a valid configuration is inherited as it is. -/
theorem fromOverrides_none {base : TimeoutConfig} (full : base.statementTimeout.isSome = true)
    (valid : base.validate = .ok ()) : fromOverrides none none none (some base) = .ok base := by
  obtain ⟨statementTimeout, connectionMaxLifetime, timeoutAction⟩ := base
  obtain ⟨timeout, rfl⟩ := Option.isSome_iff_exists.mp full
  change ((⟨some timeout, connectionMaxLifetime, timeoutAction⟩ : TimeoutConfig).validate >>= _) = _
  rw [valid]
  rfl

/-- The statement timeout has a default. -/
theorem fromOverrides_full {statementTimeout connectionMaxLifetime timeoutAction :
      Option (List Char)} {config : TimeoutConfig}
    (read : fromOverrides statementTimeout connectionMaxLifetime timeoutAction none =
      .ok config) : config.statementTimeout.isSome = true := by
  unfold fromOverrides at read
  obtain ⟨first, readFirst, read⟩ := bind_ok read
  obtain ⟨second, -, read⟩ := bind_ok read
  obtain ⟨third, -, read⟩ := bind_ok read
  obtain ⟨done, -, read⟩ := bind_ok read
  cases read
  cases statementTimeout with
  | none =>
      obtain rfl := Except.ok.inj readFirst
      rfl
  | some text =>
      change (some <$> parseDuration text) = _ at readFirst
      cases parsed : parseDuration text with
      | error error =>
          rw [parsed] at readFirst
          cases readFirst
      | ok duration =>
          rw [parsed] at readFirst
          cases readFirst
          rfl

end TimeoutConfig

end OpenGauss.Gaussdb
