import ProofLedger.CommandLine.Arguments
import ProofLedger.CommandLine.Commands
import ProofLedger.Files.State

/-!
# The program

From arguments to an exit status and what is printed. Reports go to the standard output. So do
failures when JSON is asked for, as an object of their own; otherwise they go to the standard
error.
-/

namespace ProofLedger

/-- How the program ends, and what it printed. -/
structure ProgramResult where
  exitCode : Nat
  stdout : String := ""
  stderr : String := ""
  deriving DecidableEq, Repr

namespace Program

/-- How the program is used. -/
def usage : String :=
  joinLines ["proofsync - proof-state derivation and tactic suggestions", "",
    "  proofsync derive <FILE> [--diagnostics <PATH>] [--hints <PATH>]",
    "  proofsync record --file <FILE> --node <NODE> --tactic <TACTIC> --result <RESULT>",
    "      [--key <KEY>] [--category <CATEGORY>] [--message <MESSAGE>] [--duration-ms <MS>]",
    "      [--goal <GOAL>]",
    "  proofsync suggest --file <FILE> --node <NODE> [--limit <LIMIT>]",
    "  proofsync sync <FILE> [--reason <REASON>] [--debounce-ms <MS>]",
    "  proofsync classify <MESSAGE>", "",
    "Everywhere: -j, --json; --state <PATH>; --config <PATH>", ""]

/-- The version of the program. -/
def version : String := "proofsync 0.1.0\n"

/-- How the program ends on arguments that are no invocation. -/
def refuse : UsageError → ProgramResult
  | .displayHelp => { exitCode := 0, stdout := usage }
  | .displayVersion => { exitCode := 0, stdout := version }
  | e => { exitCode := e.exitCode, stderr := usage }

/-- How the program ends on a failed command. -/
def fail (json : Bool) (f : CommandFault) : ProgramResult :=
  if json then
    let body : Json := .ofFields [("success", .bool false), ("error", .string f.message)]
    { exitCode := 1, stdout := body.pretty ++ "\n" }
  else { exitCode := 1, stderr := "Error: " ++ f.message ++ "\n" }

/-- How the program ends with a report, of which the text and the JSON are given. -/
def succeed (asJson : Bool) (text : String) (json : Json) : ProgramResult :=
  { exitCode := 0, stdout := (if asJson then json.pretty else text) ++ "\n" }

variable {m : Type → Type} [Monad m]

/-- Loads the settings that an invocation asks for. -/
def loadSettings (s : Surroundings m) (named : Option String) :
    ExceptT CommandFault m Settings := do
  match ← liftM (Settings.load s.files s.environment named) with
  | .ok settings => return settings
  | .error .unreadable => throw (.settingsUnreadable named)
  | .error (.fault f) => throw (.settings f)

/-- Does what a command says. -/
def execute (p : Project m) (json : Bool) : Command → ExceptT CommandFault m ProgramResult
  | .derive file diagnostics hints => do
    let r ← p.derive file diagnostics hints
    return succeed json r.text r.toJson
  | .record fileKey nodeId tactic result tacticKey category errorMessage goalText durationMs => do
    let result ← Project.demand (Project.resultNamed result)
    let category ← Project.demand (Project.categoryNamed category)
    let r ← p.record
      { fileKey, nodeId, tactic, tacticKey, result, category, errorMessage, durationMs, goalText }
    return succeed json r.text r.toJson
  | .suggest file node limit => do
    let r ← p.suggest file node limit
    return succeed json r.text r.toJson
  | .sync file reason debounceMs => do
    let reason ← Project.demand (Project.reasonNamed reason)
    let r ← p.sync file reason debounceMs
    return succeed json r.text r.toJson
  | .classify message => do
    let r : ClassifyReport := { message, category := (Category.classify message).name }
    return succeed json r.text r.toJson

/-- Carries out an invocation. -/
def invoke (s : Surroundings m) (i : Invocation) : ExceptT CommandFault m ProgramResult := do
  let settings ← loadSettings s i.config
  let store := StateFile.store s.files (i.state.getD settings.state.path)
  execute { s with settings, store } i.json i.command

/-- Runs the program on the arguments after its name. -/
def run (s : Surroundings m) (args : List String) : m ProgramResult := do
  match Arguments.parse args with
  | .error e => return refuse e
  | .ok i =>
    match ← (invoke s i).run with
    | .ok r => return r
    | .error f => return fail i.json f

end Program

end ProofLedger
