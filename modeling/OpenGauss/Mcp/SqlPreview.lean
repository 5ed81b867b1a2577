import OpenGauss.Lib.CharBoundary
import OpenGauss.Mcp.ExecutionPlan
import OpenGauss.Mcp.Server

/-! The previews of the SQL text that the tools `execute_query` and `get_execution_plan` cut
for the log and for their errors (`gaussdb-mcp`, `server.rs`). -/

set_option autoImplicit false

namespace OpenGauss.Mcp

open Driver Lib.Text

/-- The errors of the two tools. The texts of a failed query are made from its error; the
preview is the `sql` of its data. -/
inductive ToolError where
  | connection (error : McpError)
  | invalidRequest (error : InvalidRequest)
  | query (tool : Text) (error : QueryError) (sql : Text)
  deriving DecidableEq, Repr

/-- What a tool finds when it is called: the answer of `get_client_for`, whether errors are
logged, and the rows of the query or its error. -/
structure Surroundings (Rows : Type) where
  client : Except McpError Unit
  errorsLogged : Bool
  rows : Except QueryError Rows

/-- How a call ends; `none` is a panic. -/
abbrev Ended (Value : Type) := ExceptT ToolError Option Value

/-- The preview of `query_error`; `none` is a panic. -/
def sqlPreview (sql : Text) : Option Text :=
  if 200 < utf8Length sql then (sliceTo? sql 200).map (· ++ "...".toList) else some sql

def queryError (tool sql : Text) (error : QueryError) : Option ToolError :=
  (sqlPreview sql).map (.query tool error)

section

variable {Rows : Type} (surroundings : Surroundings Rows)

def getClient : Ended Unit := ExceptT.mk (some (surroundings.client.mapError .connection))

/-- `query_with_optional_timeout`, and `handle_query_error` where it fails. -/
def runQuery (tool sql : Text) : Ended Rows :=
  match surroundings.rows with
  | .ok rows => return rows
  | .error error => do throw (← queryError tool sql error)

/-- The log line of a text that is not sent. -/
def logRejected (trimmed : Text) : Ended Unit :=
  if surroundings.errorsLogged then do
    let _ ← sliceTo? trimmed (min (utf8Length trimmed) 80)
  else return ()

/-- `execute_query`, up to its rows. -/
def executeQueryCall (sql : Text) : Ended Rows := do
  let trimmed := trim sql
  getClient surroundings
  if !allowed trimmed then
    logRejected surroundings trimmed
    throw (.invalidRequest invalidQuery)
  runQuery surroundings "execute_query".toList trimmed

/-- `get_execution_plan`, up to its rows. -/
def getExecutionPlanCall (params : GetExecutionPlanParams) : Ended Rows := do
  getClient surroundings
  runQuery surroundings "get_execution_plan".toList (explainSql params)

end

/-- A call returns, whatever it finds. -/
def Returns {Rows : Type} (call : Surroundings Rows → Ended Rows) : Prop :=
  ∀ surroundings, (call surroundings).run ≠ none

/-- A text that is not longer than the preview of it, or is not cut inside of a character. -/
def Previewable (text : Text) (stop : Nat) : Prop :=
  utf8Length text ≤ stop ∨ IsCharBoundary text stop

theorem sqlPreview_ne_none_iff {sql : Text} : sqlPreview sql ≠ none ↔ Previewable sql 200 := by
  rw [sqlPreview]
  split
  · next long =>
      rw [Ne, Option.map_eq_none_iff, ← Ne, sliceTo?_ne_none_iff, Previewable, or_iff_right]
      omega
  · next short =>
      exact iff_of_true (Option.some_ne_none sql) (.inl (by omega))

theorem sliceTo?_min_ne_none_iff {text : Text} {stop : Nat} :
    sliceTo? text (min (utf8Length text) stop) ≠ none ↔ Previewable text stop := by
  rw [sliceTo?_ne_none_iff]
  rcases Nat.le_total (utf8Length text) stop with short | long
  · rw [Nat.min_eq_left short]
    exact iff_of_true (isCharBoundary_length text) (.inl short)
  · rw [Nat.min_eq_right long, Previewable, iff_or_self]
    intro short
    obtain rfl := Nat.le_antisymm long short
    exact isCharBoundary_length text

instance (text : Text) (stop : Nat) : Decidable (Previewable text stop) :=
  decidable_of_iff _ sliceTo?_min_ne_none_iff

/-- A text of characters of one byte can be cut everywhere. -/
theorem previewable_ascii {text : Text} (ascii : ∀ char ∈ text, char.utf8Size = 1) (stop : Nat) :
    Previewable text stop := by
  rcases Nat.le_total (utf8Length text) stop with short | long
  · exact .inl short
  · have size : ∀ front : Text, (∀ char ∈ front, char.utf8Size = 1) →
        utf8Length front = front.length := by
      intro front ascii
      rw [utf8Length, List.map_congr_left ascii, List.map_const', List.sum_replicate_nat]
      exact Nat.mul_one _
    rw [size text ascii] at long
    refine .inr ⟨text.take stop, text.drop stop, (List.take_append_drop stop text).symm, ?_⟩
    rw [size _ fun char member => ascii char (List.mem_of_mem_take member),
      List.length_take_of_le long]

section

variable {Rows : Type} {surroundings : Surroundings Rows}

/-- A query panics where it fails and its text cannot be cut. -/
theorem runQuery_ne_none_iff {tool sql : Text} :
    (runQuery surroundings tool sql).run ≠ none ↔
      ((∃ error, surroundings.rows = .error error) → Previewable sql 200) := by
  rw [← sqlPreview_ne_none_iff, runQuery]
  cases found : surroundings.rows with
  | ok rows =>
      refine iff_of_true (Option.some_ne_none _) ?_
      rintro ⟨error, failed⟩
      cases failed
  | error error =>
      rw [forall_prop_of_true ⟨error, rfl⟩]
      cases preview : sqlPreview sql with
      | none => exact iff_of_false (by simp [queryError, preview, ExceptT.run_bind]) (by simp)
      | some text => exact iff_of_true (by simp [queryError, preview, ExceptT.run_bind]) (by simp)

/-- The log line panics where it is written and its text cannot be cut. -/
theorem logRejected_bind_ne_none_iff {trimmed : Text} {error : ToolError} {rest : Ended Rows} :
    (logRejected surroundings trimmed >>= fun _ => throw error >>= fun _ : Unit => rest).run ≠ none ↔
      (surroundings.errorsLogged = true → Previewable trimmed 80) := by
  rw [← sliceTo?_min_ne_none_iff, logRejected]
  cases logged : surroundings.errorsLogged with
  | false => exact iff_of_true (Option.some_ne_none _) (fun never => by cases never)
  | true =>
      rw [if_pos rfl, forall_prop_of_true rfl]
      cases cut : sliceTo? trimmed (min (utf8Length trimmed) 80) with
      | none => exact iff_of_false (by simp [ExceptT.run_bind]) (by simp)
      | some text => exact iff_of_true (by simp [ExceptT.run_bind]) (by simp)

/-- Without a client a call ends before it looks at its text. -/
theorem getClient_bind_ne_none_iff {next : Ended Rows} :
    (getClient surroundings >>= fun _ => next).run ≠ none ↔
      (surroundings.client = .ok () → next.run ≠ none) := by
  rw [getClient]
  cases answer : surroundings.client with
  | error error => exact iff_of_true (Option.some_ne_none _) (fun never => by cases never)
  | ok found => exact ⟨fun returns _ => returns, fun returns => returns rfl⟩

end

/-- Where the text passes the check of `execute_query`, the cut of its error decides; where it
does not, the cut of the log line. -/
theorem executeQueryCall_returns_iff {Rows : Type} {sql : Text} :
    Returns (fun surroundings : Surroundings Rows => executeQueryCall surroundings sql) ↔
      if allowed (trim sql) then Previewable (trim sql) 200 else Previewable (trim sql) 80 := by
  simp only [Returns, executeQueryCall, getClient_bind_ne_none_iff]
  by_cases passes : allowed (trim sql) = true
  · simp only [passes, Bool.not_true, Bool.false_eq_true, if_false, if_true, runQuery_ne_none_iff]
    exact ⟨fun returns => returns ⟨.ok (), true, .error .database⟩ rfl ⟨.database, rfl⟩,
      fun previewable _ _ _ => previewable⟩
  · simp only [passes, Bool.not_false, if_true, Bool.false_eq_true, if_false,
      logRejected_bind_ne_none_iff]
    exact ⟨fun returns => returns ⟨.ok (), true, .error .database⟩ rfl rfl,
      fun previewable _ _ _ => previewable⟩

theorem getExecutionPlanCall_returns_iff {Rows : Type} {params : GetExecutionPlanParams} :
    Returns (fun surroundings : Surroundings Rows => getExecutionPlanCall surroundings params) ↔
      Previewable (explainSql params) 200 := by
  simp only [Returns, getExecutionPlanCall, getClient_bind_ne_none_iff, runQuery_ne_none_iff]
  exact ⟨fun returns => returns ⟨.ok (), true, .error .database⟩ rfl ⟨.database, rfl⟩,
    fun previewable _ _ _ => previewable⟩

/-- Exactly which texts the two tools take without a panic. -/
theorem toolCalls_return_iff {Rows : Type} :
    (∀ sql, Returns (fun surroundings : Surroundings Rows => executeQueryCall surroundings sql) ↔
      if allowed (trim sql) then Previewable (trim sql) 200 else Previewable (trim sql) 80) ∧
    ∀ params,
      Returns (fun surroundings : Surroundings Rows => getExecutionPlanCall surroundings params) ↔
        Previewable (explainSql params) 200 :=
  ⟨fun _ => executeQueryCall_returns_iff, fun _ => getExecutionPlanCall_returns_iff⟩

/-- A query of 202 bytes that fails, the same text as a plan, and a command of 82 bytes that is
rejected: every one is cut inside of a character. -/
theorem not_toolCalls_return :
    ¬ Returns (fun surroundings : Surroundings Unit =>
      executeQueryCall surroundings ("SELECT ".toList ++ List.replicate 65 '中')) ∧
    ¬ Returns (fun surroundings : Surroundings Unit =>
      getExecutionPlanCall surroundings ⟨List.replicate 60 '中', none, none, none⟩) ∧
    ¬ Returns (fun surroundings : Surroundings Unit =>
      executeQueryCall surroundings ("DELETE ".toList ++ List.replicate 25 '中')) := by
  simp only [executeQueryCall_returns_iff, getExecutionPlanCall_returns_iff]
  decide +kernel

end OpenGauss.Mcp
