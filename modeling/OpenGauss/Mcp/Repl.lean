import OpenGauss.Gaussdb.Sslmode
import OpenGauss.Mcp.Cli
import OpenGauss.Mcp.Interactive
import Mathlib.Data.List.Infix

/-! The loop of the interactive mode (`gaussdb-mcp`, `interactive.rs`): the editor that
asks whether an input is complete, the commands that begin with a dot, and the statements.
The history of the editor and what is said to the user besides results are left out. -/

set_option autoImplicit false

namespace OpenGauss.Mcp.Repl

open Driver Lib.Text Gaussdb SqlTokenizer Cli

/-- What the loop sends to the dot commands: a line with a dot in front, or a question mark. -/
def isCommand (trimmed : Text) : Bool := trimmed.head? == some '.' || trimmed == ['?']

/-- `SqlHelper::validate`, `Valid` or `Incomplete`. -/
def isComplete (input : Text) : Bool :=
  let trimmed := trim input
  if trimmed.isEmpty || isCommand trimmed then true
  else (trim (splitStatements input).remainder).isEmpty

/-- `OutputFormat::from_str` -/
def OutputFormat.fromStr (s : Text) : Option OutputFormat :=
  match String.ofList (toLowercase s) with
  | "table" => some .table
  | "json" => some .json
  | "vertical" => some .vertical
  | "csv" => some .csv
  | _ => none

inductive OutputTarget where
  | stdout
  | file (path : Text)
  deriving DecidableEq, Repr

/-- What the loop calls. Each call changes the state of the world. -/
structure Outside (World Client Result Failure : Type) where
  /-- `resolve_target` and `connect`: the name of the target, and a client for it. -/
  connect : Text → World → Except Text (Text × Client) × World
  /-- `execute_sql_buffered` -/
  execute : Client → Text → World → Except Failure Result × World
  /-- Opening a file to append to it. -/
  openAppend : Text → World → Except Failure Unit × World
  /-- `render_result`, boxed, to where the output goes. -/
  render : OutputTarget → Result → OutputFormat → World → World
  /-- `File::create` and `render_result`, boxed for a table. -/
  save : Text → Result → OutputFormat → World → World

/-- The variables of the loop, and the world. -/
structure State (World Client Result : Type) where
  world : World
  target : Text
  client : Client
  outputTarget : OutputTarget := .stdout
  lastResult : Option Result := none

/-- What `readline` comes to, or a line of an input that is typed. -/
inductive Key where
  | line (text : Text)
  | interrupted
  | eof
  | failed (message : Text)
  deriving DecidableEq, Repr

section

variable {World Client Result Failure : Type} (outside : Outside World Client Result Failure)
  (format : OutputFormat)

def executeStatement (state : State World Client Result) (stmt : Text) :
    State World Client Result :=
  match outside.execute state.client stmt state.world with
  | (.ok result, world) =>
      { state with
        world := outside.render state.outputTarget result format world
        lastResult := some result }
  | (.error _, world) => { state with world }

def connectTo (state : State World Client Result) (name : Text) : State World Client Result :=
  match outside.connect name state.world with
  | (.ok (target, client), world) => { state with world, target, client }
  | (.error _, world) => { state with world }

/-- The file and the format of `.save`, by the words behind it. -/
def saveArguments (arguments : List Text) : Text × OutputFormat :=
  if arguments.length ≥ 2 then
    match OutputFormat.fromStr (arguments.getLastD []) with
    | some fmt => ([' '].intercalate arguments.dropLast, fmt)
    | none => ([' '].intercalate arguments, format)
  else (arguments.headD [], format)

/-- `handle_dot_command`: whether the loop ends, and the state. The other commands print. -/
def handleDotCommand (state : State World Client Result) (line : Text) :
    Bool × State World Client Result :=
  match splitWhitespace (trim line) with
  | [] => (false, state)
  | cmd :: arguments =>
      match String.ofList (toLowercase cmd) with
      | ".exit" | ".quit" => (true, state)
      | ".output" =>
          if arguments.isEmpty then (false, { state with outputTarget := .stdout })
          else
            let path := [' '].intercalate arguments
            match outside.openAppend path state.world with
            | (.ok (), world) => (false, { state with world, outputTarget := .file path })
            | (.error _, world) => (false, { state with world })
      | ".save" =>
          match arguments, state.lastResult with
          | [], _ | _, none => (false, state)
          | arguments, some result =>
              let (path, fmt) := saveArguments format arguments
              (false, { state with world := outside.save path result fmt state.world })
      | _ => (false, state)

/-- The branch of `.connect`, which comes before the other commands. -/
def handleCommand (state : State World Client Result) (line : Text) :
    Bool × State World Client Result :=
  match splitWhitespace (trim line) with
  | [] => handleDotCommand outside format state line
  | cmd :: arguments =>
      if toLowercase cmd = ".connect".toList then
        (false, connectTo outside state (arguments.headD state.target))
      else handleDotCommand outside format state line

/-- What the loop does with an input. -/
def handleInput (state : State World Client Result) (input : Text) :
    Bool × State World Client Result :=
  let trimmed := trim input
  if trimmed.isEmpty then (false, state)
  else if isCommand trimmed then handleCommand outside format state input
  else (false, (splitStatements input).complete.foldl (executeStatement outside format) state)

/-- The input after one more line. -/
def typed (pending : Option Text) (line : Text) : Text :=
  match pending with
  | none => line
  | some input => input ++ '\n' :: line

/-- The loop of `run_interactive`, with the lines of an input that is not complete. -/
def runInteractive : Option Text → List Key → State World Client Result →
    State World Client Result
  | _, [], state | _, .eof :: _, state | _, .failed _ :: _, state => state
  | _, .interrupted :: keys, state => runInteractive none keys state
  | pending, .line line :: keys, state =>
      let input := typed pending line
      if isComplete input then
        match handleInput outside format state input with
        | (true, state) => state
        | (false, state) => runInteractive none keys state
      else runInteractive (some input) keys state

end

/-! ### What a script says -/

/-- A command, or a statement of SQL. -/
inductive Item where
  | statement (stmt : Text)
  | command (line : Text)
  deriving DecidableEq, Repr

/-- The text of these lines. -/
def joined : List Text → Text
  | [] => []
  | [line] => line
  | line :: lines => line ++ '\n' :: joined lines

/-- Every statement of these lines has its end in them. -/
def Settled (lines : List Text) : Prop := (splitStatements (joined lines)).remainder = []

instance (lines : List Text) : Decidable (Settled lines) :=
  inferInstanceAs (Decidable ((splitStatements (joined lines)).remainder = []))

/-- The longest beginning of these lines in which every statement has its end. -/
def settledPart (lines : List Text) : List Text :=
  (lines.inits.filter (Settled ·)).getLastD []

/-- The statements of a block of SQL, which is cut as a whole. -/
def statementsOf (block : List Text) : List Item :=
  (splitStatements (joined (settledPart block))).complete.map .statement

/-- What a script says, from a block of SQL that has been read: the block goes on up to a
command that does not stand inside a statement, to an interruption, or to the end. -/
def script : List Text → List Key → List Item
  | block, [] | block, .eof :: _ | block, .failed _ :: _ => statementsOf block
  | block, .interrupted :: keys => statementsOf block ++ script [] keys
  | block, .line line :: keys =>
      if Settled block ∧ isCommand (trim line) then
        statementsOf block ++ .command line :: script [] keys
      else script (block ++ [line]) keys

section

variable {World Client Result Failure : Type} (outside : Outside World Client Result Failure)
  (format : OutputFormat)

/-- One item after the other, up to a command that ends the session. -/
def perform : List Item → State World Client Result → State World Client Result
  | [], state => state
  | .statement stmt :: items, state => perform items (executeStatement outside format state stmt)
  | .command line :: items, state =>
      match handleCommand outside format state line with
      | (true, state) => state
      | (false, state) => perform items state

end

end OpenGauss.Mcp.Repl
