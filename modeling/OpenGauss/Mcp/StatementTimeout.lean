import OpenGauss.Gaussdb.Timeouts
import OpenGauss.Mcp.ExecutionPlan

/-! The `statement_timeout` of one session: what `do_connect` (`gaussdb-mcp`,
`connection.rs`) sets it to, and the tool calls that set it for one query. -/

set_option autoImplicit false

namespace OpenGauss.Mcp

open Driver Gaussdb Lib Lib.Text

/-- How the server reads a SET of `statement_timeout`: as a number of
milliseconds below 2^31, or as the default. -/
def readSet (text : Text) : Option (Option Nat) :=
  ((stripPrefix? "SET statement_timeout".toList text).bind fun rest =>
    stripPrefix? "=".toList (trim rest)).bind fun rest =>
      if trim rest = "DEFAULT".toList then some none
      else (Numeral.parseUnsigned (2 ^ 31) (trim rest)).map some

/-- What becomes of a request. -/
inductive Outcome where
  | failed
  /-- `sets` is what a query sets the timeout to itself, with `set_config`. -/
  | done (sets : Option Nat)
  deriving DecidableEq, Repr

/-- In milliseconds. -/
structure Session where
  defaultTimeout : Nat
  statementTimeout : Nat
  deriving DecidableEq, Repr

namespace Session

/-- A request that fails leaves the session as it is. -/
def send (session : Session) (request : Request) : Outcome → Option Session
  | .failed => none
  | .done sets =>
      match request with
      | .query _ => some { session with statementTimeout := sets.getD session.statementTimeout }
      | .simpleQuery text => (readSet text).map fun value =>
          { session with statementTimeout := value.getD session.defaultTimeout }

/-- What becomes of the session, and the timeouts that the queries run under. -/
def serve (session : Session) : List (Request × Outcome) → Session × List Nat
  | [] => (session, [])
  | (request, outcome) :: rest =>
      let (last, timeouts) := ((session.send request outcome).getD session).serve rest
      (last,
        match request with
        | .query _ => session.statementTimeout :: timeouts
        | .simpleQuery _ => timeouts)

end Session

/-- `as_millis() as u64`. -/
def asMillis (duration : Duration) : Nat := duration / 10 ^ 6 % 2 ^ 64

/-- `do_connect`, as far as the timeout goes. -/
def doConnect (defaultTimeout : Nat) (timeoutConfig : Option TimeoutConfig) (outcome : Outcome) :
    Session :=
  let session : Session := { defaultTimeout, statementTimeout := defaultTimeout }
  match timeoutConfig.bind TimeoutConfig.statementTimeout with
  | none => session
  | some timeout =>
      let setSql := "SET statement_timeout = ".toList ++ (toString (asMillis timeout)).toList
      (session.send (.simpleQuery setSql) outcome).getD session

inductive Tool where
  | executeQuery (sql : Text) (timeoutMs : Option UInt64)
  | getExecutionPlan (params : GetExecutionPlanParams)
  deriving DecidableEq, Repr

def Tool.timeoutMs : Tool → Option UInt64
  | .executeQuery _ timeoutMs => timeoutMs
  | .getExecutionPlan params => params.timeoutMs

def Tool.requests (set : Bool) : Tool → List Request
  | .executeQuery sql timeoutMs =>
      match Mcp.executeQuery set sql timeoutMs with
      | .ok requests => requests
      | .error _ => []
  | .getExecutionPlan params => Mcp.getExecutionPlan set params

/-- A tool call with what becomes of its requests. -/
structure ToolCall where
  tool : Tool
  set : Outcome
  query : Outcome
  reset : Outcome
  deriving DecidableEq, Repr

namespace ToolCall

def outcomes (call : ToolCall) : List Outcome :=
  match call.tool.timeoutMs with
  | none => [call.query]
  | some _ => [call.set, call.query, call.reset]

/-- Whether the server takes the first request. -/
def taken (session : Session) (call : ToolCall) : Bool :=
  match call.tool.requests true with
  | request :: _ => (session.send request call.set).isSome
  | [] => false

end ToolCall

namespace Session

def call (session : Session) (call : ToolCall) : Session × List Nat :=
  session.serve ((call.tool.requests (call.taken session)).zip call.outcomes)

/-- The queries of a list of calls, with the timeouts that they run under. -/
def calls (session : Session) : List ToolCall → List (ToolCall × Nat)
  | [] => []
  | call :: later =>
      (session.call call).2.map (fun timeout => (call, timeout)) ++
        (session.call call).1.calls later

end Session

end OpenGauss.Mcp
