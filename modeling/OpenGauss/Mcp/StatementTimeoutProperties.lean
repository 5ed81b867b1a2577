import OpenGauss.Lib.Register
import OpenGauss.Mcp.StatementTimeout

/-! Which timeout the queries of a session run under. -/

set_option autoImplicit false

namespace OpenGauss.Mcp

open Driver Gaussdb Lib Lib.Text

/-! ### The texts -/

theorem isDigit_visible {char : Char} (digit : char.isDigit = true) :
    isWhitespace char = false := by
  have all : ∀ code < 128, (Char.ofNat code).isDigit = true →
      isWhitespace (Char.ofNat code) = false := by decide
  have below : char.toNat < 128 := by
    have bounds := Bool.and_eq_true_iff.mp digit
    have last : char.toNat ≤ 57 := of_decide_eq_true bounds.2
    omega
  rw [← Char.ofNat_toNat char] at digit ⊢
  exact all char.toNat below digit

theorem readSet_value {blanks value : Text} {first last : Char}
    (blank : ∀ char ∈ blanks, isWhitespace char = true) (starts : value.head? = some first)
    (visible : isWhitespace first = false) (ends : value.getLast? = some last)
    (shown : isWhitespace last = false) (named : value ≠ "DEFAULT".toList) :
    readSet ("SET statement_timeout".toList ++ (blanks ++ '=' :: (blanks ++ value))) =
      (Numeral.parseUnsigned (2 ^ 31) value).map some := by
  have lasts : ('=' :: (blanks ++ value)).getLast? = some last := by
    rw [← List.cons_append, List.getLast?_append, ends, Option.some_or]
  have outer : trim (blanks ++ '=' :: (blanks ++ value)) = "=".toList ++ (blanks ++ value) := by
    rw [trim_blanks blank]
    exact trim_ends rfl (by decide) lasts shown
  have inner : trim (blanks ++ value) = value := by
    rw [trim_blanks blank]
    exact trim_ends starts visible ends shown
  rw [readSet, stripPrefix?_append, Option.bind_some, outer, stripPrefix?_append,
    Option.bind_some, inner, if_neg named]

/-- What the setting becomes, if a number fits it. -/
def settingOf (number : Nat) : Option Nat := (some number).filter (· < 2 ^ 31)

theorem readSet_number {blanks : Text} (blank : ∀ char ∈ blanks, isWhitespace char = true)
    (number : Nat) :
    readSet ("SET statement_timeout".toList ++ (blanks ++ '=' :: (blanks ++
      (toString number).toList))) = (settingOf number).map some := by
  rw [Nat.toString_eq_repr, Nat.toList_repr, settingOf, ← Numeral.parseUnsigned_digits]
  have digits := Numeral.toDigits_digits number
  have visible : ∀ char ∈ Nat.toDigits 10 number, isWhitespace char = false := fun char member =>
    isDigit_visible (digits char member)
  have named : Nat.toDigits 10 number ≠ "DEFAULT".toList := by
    intro same
    have first : 'D' ∈ Nat.toDigits 10 number := by
      rw [same]
      decide
    exact absurd (digits 'D' first) (by decide)
  have filled : Nat.toDigits 10 number ≠ [] := Nat.toDigits_ne_nil
  exact readSet_value blank (List.head?_eq_some_head filled) (visible _ (List.head_mem filled))
    (List.getLast?_eq_some_getLast filled) (visible _ (List.getLast_mem filled)) named

theorem readSet_setTimeout (number : Nat) :
    readSet ("SET statement_timeout=".toList ++ (toString number).toList) =
      (settingOf number).map some := by
  have whole : "SET statement_timeout=".toList = "SET statement_timeout".toList ++ ['='] := by decide
  rw [whole, List.append_assoc]
  exact @readSet_number [] (List.forall_mem_nil _) number

theorem readSet_connect (number : Nat) :
    readSet ("SET statement_timeout = ".toList ++ (toString number).toList) =
      (settingOf number).map some := by
  have blank : ∀ char ∈ [' '], isWhitespace char = true := by decide
  have whole : "SET statement_timeout = ".toList =
      "SET statement_timeout".toList ++ [' ', '=', ' '] := by decide
  rw [whole, List.append_assoc]
  exact readSet_number blank number

theorem readSet_default : readSet "SET statement_timeout=DEFAULT".toList = some none := by
  decide +kernel

/-! ### Requests -/

/-- What a query that is carried out sets the timeout to. -/
def Outcome.sets : Outcome → Option Nat
  | .failed => none
  | .done sets => sets

/-- What the server sets the timeout to when it is sent a number. -/
def Outcome.takes (outcome : Outcome) (number : Nat) : Option Nat :=
  match outcome with
  | .failed => none
  | .done _ => settingOf number

def Session.set (session : Session) (timeout : Nat) : Session :=
  { session with statementTimeout := timeout }

namespace Session

@[simp] theorem set_defaultTimeout (session : Session) (timeout : Nat) :
    (session.set timeout).defaultTimeout = session.defaultTimeout := rfl

@[simp] theorem set_statementTimeout (session : Session) (timeout : Nat) :
    (session.set timeout).statementTimeout = timeout := rfl

@[simp] theorem set_set (session : Session) (first second : Nat) :
    (session.set first).set second = session.set second := rfl

@[simp] theorem set_same (session : Session) :
    session.set session.statementTimeout = session := rfl

theorem send_query (session : Session) (text : Text) (outcome : Outcome) :
    (session.send (.query text) outcome).getD session =
      session.set (outcome.sets.getD session.statementTimeout) := by
  cases outcome with
  | failed => rfl
  | done sets => rfl

theorem send_number (session : Session) {text : Text} {number : Nat}
    (read : readSet text = (settingOf number).map some) (outcome : Outcome) :
    session.send (.simpleQuery text) outcome = (outcome.takes number).map session.set := by
  cases outcome with
  | failed => rfl
  | done sets =>
      rw [send, read, Option.map_map, Outcome.takes]
      rfl

theorem send_reset (session : Session) (outcome : Outcome) :
    (session.send (.simpleQuery "SET statement_timeout=DEFAULT".toList) outcome).getD session =
      match outcome with
      | .failed => session
      | .done _ => session.set session.defaultTimeout := by
  cases outcome with
  | failed => rfl
  | done sets =>
      rw [send, readSet_default]
      rfl

end Session

/-! ### Calls -/

/-- Whether a text is sent at all. -/
def Tool.passes : Tool → Bool
  | .executeQuery sql _ => allowed (trim sql)
  | .getExecutionPlan _ => true

def Tool.text : Tool → Text
  | .executeQuery sql _ => trim sql
  | .getExecutionPlan params => explainSql params

theorem Tool.requests_eq (set : Bool) (tool : Tool) :
    tool.requests set =
      if tool.passes then queryWithOptionalTimeout set tool.text tool.timeoutMs else [] := by
  cases tool with
  | executeQuery sql timeoutMs =>
      unfold Tool.requests Mcp.executeQuery
      by_cases passes : allowed (trim sql) = true
      · simp only [passes, if_true, Tool.passes, Tool.text, Tool.timeoutMs]
      · simp only [passes, Bool.false_eq_true, if_false, Tool.passes]
  | getExecutionPlan params => rfl

namespace ToolCall

/-- What the call sets the timeout to before its query. -/
def setTo (call : ToolCall) : Option Nat :=
  call.tool.timeoutMs.bind fun ms => call.set.takes ms.toNat

/-- Whether the query of the call is sent. -/
def runs (call : ToolCall) : Prop :=
  call.tool.passes = true ∧ (call.tool.timeoutMs = none ∨ call.setTo.isSome = true)

/-- What the call leaves the timeout at, if it sets it. -/
def written (defaultTimeout : Nat) (call : ToolCall) : Option Nat :=
  if call.tool.passes then
    match call.tool.timeoutMs with
    | none => call.query.sets
    | some _ => call.setTo.map fun timeout =>
        match call.reset with
        | .failed => call.query.sets.getD timeout
        | .done _ => defaultTimeout
  else none

/-- The timeout of a call, where the one of the connection is known. -/
def expected (configured : Nat) (call : ToolCall) : Nat :=
  (call.tool.timeoutMs.map UInt64.toNat).getD configured

end ToolCall

theorem settingOf_eq {number timeout : Nat} (fits : settingOf number = some timeout) :
    timeout = number := (Option.some.inj (Option.filter_eq_some_iff.mp fits).1).symm

theorem Outcome.takes_eq {outcome : Outcome} {number timeout : Nat}
    (takes : outcome.takes number = some timeout) : timeout = number := by
  cases outcome with
  | failed => cases takes
  | done sets => exact settingOf_eq takes

namespace Session

theorem call_silent (session : Session) {call : ToolCall} (silent : call.tool.passes = false) :
    session.call call = (session, []) := by
  rw [Session.call, Tool.requests_eq, silent, if_neg Bool.false_ne_true, List.zip_nil_left, serve]

theorem call_plain (session : Session) {call : ToolCall} (passes : call.tool.passes = true)
    (plain : call.tool.timeoutMs = none) :
    session.call call =
      (session.set (call.query.sets.getD session.statementTimeout),
        [session.statementTimeout]) := by
  rw [Session.call, Tool.requests_eq, if_pos passes, ToolCall.outcomes, plain]
  exact Prod.ext (send_query session call.tool.text call.query) rfl

/-- The first request of a call with a timeout. -/
theorem send_first (session : Session) {call : ToolCall} {ms : UInt64}
    (given : call.tool.timeoutMs = some ms) :
    session.send (.simpleQuery ("SET statement_timeout=".toList ++ (toString ms).toList)) call.set =
      call.setTo.map session.set := by
  rw [ToolCall.setTo, given, Option.bind_some]
  exact session.send_number (readSet_setTimeout ms.toNat) call.set

theorem taken_eq (session : Session) {call : ToolCall} {ms : UInt64}
    (passes : call.tool.passes = true) (given : call.tool.timeoutMs = some ms) :
    call.taken session = call.setTo.isSome := by
  rw [ToolCall.taken, Tool.requests_eq, if_pos passes, given]
  exact (congrArg Option.isSome (session.send_first given)).trans Option.isSome_map

theorem call_refused (session : Session) {call : ToolCall} {ms : UInt64}
    (passes : call.tool.passes = true) (given : call.tool.timeoutMs = some ms)
    (refused : call.setTo = none) : session.call call = (session, []) := by
  have taken := session.taken_eq passes given
  have sent := session.send_first given
  rw [refused, Option.isSome_none] at taken
  rw [refused, Option.map_none] at sent
  rw [Session.call, taken, Tool.requests_eq, if_pos passes, ToolCall.outcomes, given]
  exact Prod.ext (congrArg (Option.getD · session) sent) rfl

theorem call_set (session : Session) {call : ToolCall} {ms : UInt64} {timeout : Nat}
    (passes : call.tool.passes = true) (given : call.tool.timeoutMs = some ms)
    (setTo : call.setTo = some timeout) :
    session.call call =
      (session.set (match call.reset with
        | .failed => call.query.sets.getD timeout
        | .done _ => session.defaultTimeout), [timeout]) := by
  have taken := session.taken_eq passes given
  have sent := session.send_first given
  rw [setTo, Option.isSome_some] at taken
  rw [setTo, Option.map_some] at sent
  rw [Session.call, taken, Tool.requests_eq, if_pos passes, ToolCall.outcomes, given,
    queryWithOptionalTimeout, if_pos rfl]
  simp only [List.zip_cons_cons, List.zip_nil_left, serve, sent, Option.getD_some,
    send_query, send_reset, set_statementTimeout]
  cases call.reset with
  | failed => rfl
  | done sets => rfl

/-- What a call leaves of the session. -/
theorem call_session (session : Session) (call : ToolCall) :
    (session.call call).1 =
      session.set ((call.written session.defaultTimeout).getD session.statementTimeout) := by
  cases passes : call.tool.passes with
  | false =>
      rw [call_silent session passes, ToolCall.written, passes]
      rfl
  | true =>
      rw [ToolCall.written, passes, if_pos rfl]
      cases given : call.tool.timeoutMs with
      | none => rw [call_plain session passes given]
      | some ms =>
          cases setTo : call.setTo with
          | none =>
              rw [call_refused session passes given setTo]
              rfl
          | some timeout =>
              rw [call_set session passes given setTo]
              rfl

/-- Which timeout the query of a call runs under. -/
theorem call_timeouts (session : Session) (call : ToolCall) {timeout : Nat} :
    timeout ∈ (session.call call).2 ↔
      call.runs ∧ timeout = call.expected session.statementTimeout := by
  cases passes : call.tool.passes with
  | false =>
      rw [call_silent session passes, ToolCall.runs, passes]
      simp
  | true =>
      rw [ToolCall.runs, ToolCall.expected]
      cases given : call.tool.timeoutMs with
      | none =>
          rw [call_plain session passes given]
          simp [passes]
      | some ms =>
          cases setTo : call.setTo with
          | none =>
              rw [call_refused session passes given setTo]
              simp
          | some value =>
              rw [call_set session passes given setTo]
              rw [ToolCall.setTo, given, Option.bind_some] at setTo
              obtain rfl := Outcome.takes_eq setTo
              simp [passes]

/-- The query of a call runs under what the calls before it have left. -/
theorem mem_calls (session : Session) (calls : List ToolCall) {call : ToolCall} {timeout : Nat} :
    (call, timeout) ∈ session.calls calls ↔
      ∃ before later, calls = before ++ call :: later ∧ call.runs ∧
        timeout = call.expected (Register.after (ToolCall.written session.defaultTimeout)
          session.statementTimeout before) := by
  induction calls generalizing session with
  | nil => simp [Session.calls]
  | cons first calls ih =>
      have here : (call, timeout) ∈ (session.call first).2.map (fun timeout => (first, timeout)) ↔
          first = call ∧ call.runs ∧ timeout = call.expected session.statementTimeout := by
        rw [List.mem_map]
        constructor
        · intro found
          obtain ⟨value, member, same⟩ := found
          obtain ⟨rfl, rfl⟩ := Prod.mk.inj same
          exact ⟨rfl, (session.call_timeouts first).mp member⟩
        · intro found
          obtain ⟨rfl, runs⟩ := found
          exact ⟨timeout, (session.call_timeouts first).mpr runs, rfl⟩
      rw [Session.calls, List.mem_append, here, ih, call_session, set_defaultTimeout,
        set_statementTimeout]
      constructor
      · intro found
        rcases found with ⟨rfl, runs⟩ | ⟨before, later, rfl, runs⟩
        · exact ⟨[], calls, rfl, runs⟩
        · exact ⟨first :: before, later, rfl, runs⟩
      · intro found
        obtain ⟨before, later, split, runs⟩ := found
        cases before with
        | nil =>
            obtain ⟨rfl, rfl⟩ := List.cons.inj split
            exact .inl ⟨rfl, runs⟩
        | cons other before =>
            obtain ⟨rfl, rfl⟩ := List.cons.inj split
            exact .inr ⟨before, later, rfl, runs⟩

end Session

/-! ### Connections -/

/-- The timeout of a connection: the configured one, or the one of the server. -/
def configuredTimeout (defaultTimeout : Nat) (timeoutConfig : Option TimeoutConfig) : Nat :=
  ((timeoutConfig.bind TimeoutConfig.statementTimeout).map asMillis).getD defaultTimeout

/-- What `do_connect` sets the timeout to. -/
def connectedTimeout (defaultTimeout : Nat) (timeoutConfig : Option TimeoutConfig)
    (outcome : Outcome) : Nat :=
  ((timeoutConfig.bind TimeoutConfig.statementTimeout).bind fun timeout =>
    outcome.takes (asMillis timeout)).getD defaultTimeout

theorem doConnect_eq (defaultTimeout : Nat) (timeoutConfig : Option TimeoutConfig)
    (outcome : Outcome) :
    doConnect defaultTimeout timeoutConfig outcome =
      ⟨defaultTimeout, connectedTimeout defaultTimeout timeoutConfig outcome⟩ := by
  unfold doConnect connectedTimeout
  cases timeoutConfig.bind TimeoutConfig.statementTimeout with
  | none => rfl
  | some timeout =>
      have sent := Session.send_number ⟨defaultTimeout, defaultTimeout⟩
        (readSet_connect (asMillis timeout)) outcome
      rw [Option.bind_some]
      dsimp only
      rw [sent]
      cases outcome.takes (asMillis timeout) with
      | none => rfl
      | some taken => rfl

/-- The calls keep the timeout of the connection exactly when each query of a
call without a timeout finds that timeout to be the last one that was set. -/
theorem doConnect_calls_iff (defaultTimeout : Nat) (timeoutConfig : Option TimeoutConfig)
    (outcome : Outcome) (calls : List ToolCall) :
    (∀ call timeout, (call, timeout) ∈ (doConnect defaultTimeout timeoutConfig outcome).calls calls →
      timeout = call.expected (configuredTimeout defaultTimeout timeoutConfig)) ↔
      ∀ before call later, calls = before ++ call :: later → call.runs →
        call.tool.timeoutMs = none →
          Register.LastWritten (ToolCall.written defaultTimeout)
            (connectedTimeout defaultTimeout timeoutConfig outcome) before
            (configuredTimeout defaultTimeout timeoutConfig) := by
  rw [doConnect_eq]
  constructor
  · intro keeps before call later split runs plain
    apply Register.after_eq_iff.mp
    have same := keeps call _ ((Session.mem_calls _ calls).mpr ⟨before, later, split, runs, rfl⟩)
    rw [ToolCall.expected, ToolCall.expected, plain] at same
    exact same
  · intro condition call timeout member
    obtain ⟨before, later, split, runs, rfl⟩ := (Session.mem_calls _ calls).mp member
    cases given : call.tool.timeoutMs with
    | none =>
        have last := condition before call later split runs given
        rw [Register.after_eq_iff.mpr last]
    | some ms =>
        rw [ToolCall.expected, ToolCall.expected, given]
        rfl

/-- A configured timeout of thirty seconds. -/
def halfMinute : TimeoutConfig where
  statementTimeout := some (30 * 10 ^ 9)
  connectionMaxLifetime := none
  timeoutAction := .cancel

/-- A query that the server carries out, with its SET commands. -/
def selectCall (timeoutMs : Option UInt64) : ToolCall where
  tool := .executeQuery "SELECT 1".toList timeoutMs
  set := .done none
  query := .done none
  reset := .done none

/-- After a call with a timeout, the next one runs without any. -/
theorem not_doConnect_calls :
    ¬∀ call timeout,
      (call, timeout) ∈ (doConnect 0 (some halfMinute) (.done none)).calls
          [selectCall (some 5000), selectCall none] →
        timeout = call.expected (configuredTimeout 0 (some halfMinute)) := by
  intro keeps
  have ran : (doConnect 0 (some halfMinute) (.done none)).calls
      [selectCall (some 5000), selectCall none] =
        [(selectCall (some 5000), 5000), (selectCall none, 0)] := by decide +kernel
  have plain := keeps (selectCall none) 0
  rw [ran] at plain
  exact absurd (plain (List.mem_cons_of_mem _ List.mem_cons_self)) (by decide +kernel)

end OpenGauss.Mcp
