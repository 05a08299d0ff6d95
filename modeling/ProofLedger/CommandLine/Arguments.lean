import ProofLedger.CommandLine.Invocation
import ProofLedger.Decimal.Read
import ProofLedger.Table

/-!
# Arguments

How arguments are read. Options begin with two hyphens and take their value from the same
argument, after an equals sign, or from the next one. A value is judged only when the next option
or the next positional argument is complete, so that an unknown argument right after it is
reported in its place. After a lone `--` every argument is positional.

There are two stages: options in front of the command, and the arguments of the command. Options
that every command has may stand in both; those behind the command win.
-/

namespace ProofLedger.Arguments

/-- What the value of an option or of a positional argument may be. -/
inductive ValueKind where
  | text
  /-- a text that is not empty -/
  | path
  /-- a whole number of 64 bits -/
  | natural
  /-- an integer of 64 bits -/
  | integer
  deriving DecidableEq, Repr

/-- Why a value is refused. -/
def ValueKind.refusal? (kind : ValueKind) (value : String) : Option UsageError :=
  match kind with
  | .text => none
  | .path => if value.isEmpty then some .missingValue else none
  | .natural => if (Decimal.nat64? value).isSome then none else some .malformedValue
  | .integer => if (Decimal.int64? value).isSome then none else some .malformedValue

/-- The arguments that a stage knows. -/
structure Grammar where
  /-- the name of the positional argument -/
  positional : Option String := none
  options : List (String × ValueKind)
  required : List String := []
  /-- the commands that may follow -/
  commands : List String := []
  hasVersion : Bool := false

/-- The options that every command has. -/
def commonOptions : List (String × ValueKind) := [("state", .path), ("config", .path)]

/-- The name of the flag that every command has, and its letter. -/
def jsonFlag : String := "json"

/-- What a stage has read so far. -/
structure Progress where
  values : Table String := .empty
  json : Bool := false
  /-- an argument whose value is not judged yet, and its value if it was given -/
  pending : Option (String × Option String) := none
  /-- whether the positional argument was given -/
  filled : Bool := false
  /-- whether only positional arguments can follow -/
  trailing : Bool := false
  /-- whether any option or argument was given -/
  started : Bool := false

namespace Progress

/-- The kind of the values of an argument. -/
def kindOf (g : Grammar) (name : String) : ValueKind := (g.options.lookup name).getD .text

/-- Judges the value that is pending. -/
def settle (g : Grammar) (p : Progress) : Except UsageError Progress :=
  match p.pending with
  | none => .ok p
  | some (_, none) => .error .missingValue
  | some (name, some value) =>
    if p.values.contains name then .error .repeatedArgument
    else
      match (kindOf g name).refusal? value with
      | some e => .error e
      | none => .ok { p with values := p.values.insert name value, pending := none }

/-- Whether the next argument is the value of an option. -/
def awaitsValue (p : Progress) : Bool := p.pending matches some (_, none)

/-- Notes the JSON flag. -/
def flag (g : Grammar) (p : Progress) : Except UsageError Progress := do
  let q ← p.settle g
  if q.json then .error .repeatedArgument else return { q with json := true, started := true }

/-- Answers a request for help or for the version; a value that is pending is judged first. -/
def display (g : Grammar) (p : Progress) (what : UsageError) : Except UsageError Progress := do
  let _ ← p.settle g
  .error what

/-- Notes an option with a value in the same argument. -/
def attach (g : Grammar) (p : Progress) (name value : String) : Except UsageError Progress := do
  let q ← p.settle g
  { q with pending := some (name, some value), started := true }.settle g

/-- Notes an option whose value is to come. -/
def open_ (g : Grammar) (p : Progress) (name : String) : Except UsageError Progress := do
  let q ← p.settle g
  return { q with pending := some (name, none), started := true }

/-- Reads an argument with two hyphens, of which the name and the value are given. -/
def long (g : Grammar) (p : Progress) (name : String) (value : Option String) :
    Except UsageError Progress :=
  if (g.options.lookup name).isSome then
    match value with
    | some v => p.attach g name v
    | none => p.open_ g name
  else if name = jsonFlag || name = "help" || name = "version" && g.hasVersion then
    if value.isSome then .error .superfluousValue
    else if name = jsonFlag then p.flag g
    else p.display g (if name = "help" then .displayHelp else .displayVersion)
  else .error .unknownArgument

/-- Reads the letters after a single hyphen. -/
def short (g : Grammar) (p : Progress) : List Char → Except UsageError Progress
  | [] => .ok p
  | 'j' :: r => do (← p.flag g).short g r
  | 'h' :: _ => p.display g .displayHelp
  | 'V' :: _ => if g.hasVersion then p.display g .displayVersion else .error .unknownArgument
  | _ :: _ => .error .unknownArgument

/-- The error for an argument that has no place. -/
def misplaced (g : Grammar) (p : Progress) (arg : String) : UsageError :=
  if g.commands.isEmpty || p.trailing && g.commands.contains arg then .unknownArgument
  else .invalidSubcommand

/-- Reads a positional argument. -/
def place (g : Grammar) (p : Progress) (arg : String) : Except UsageError Progress :=
  match g.positional with
  | some name =>
    if p.filled then .error (p.misplaced g arg)
    else do
      let q ← p.settle g
      return { q with pending := some (name, some arg), filled := true, started := true }
  | none => .error (p.misplaced g arg)

/-- Takes an argument as the value of the option that awaits one. -/
def supply (p : Progress) (arg : String) : Progress :=
  { p with pending := p.pending.map fun (name, _) => (name, some arg) }

/-- Reads an argument that is neither a command nor the mark before positional arguments. -/
def read (g : Grammar) (p : Progress) (arg : String) : Except UsageError Progress :=
  if p.trailing then p.place g arg
  else
    match arg.toList with
    | '-' :: '-' :: r =>
      let name := String.ofList (r.takeWhile (· != '='))
      match r.dropWhile (· != '=') with
      | _ :: value => p.long g name (some (String.ofList value))
      | [] => p.long g name none
    | '-' :: c :: r => p.short g (c :: r)
    | _ => if p.awaitsValue then .ok (p.supply arg) else p.place g arg

end Progress

/-- Reads the arguments of a stage, up to a command if one follows. -/
def readStage (g : Grammar) : Progress → List String →
    Except UsageError (Progress × Option (String × List String))
  | p, [] => .ok (p, none)
  | p, arg :: rest =>
    if !p.trailing && !p.awaitsValue && g.commands.contains arg then .ok (p, some (arg, rest))
    else if !p.trailing && arg = "--" then readStage g { p with trailing := true } rest
    else
      match p.read g arg with
      | .ok q => readStage g q rest
      | .error e => .error e

-- ── The commands ──────────────────────────────────────────────────────────────

/-- The arguments of `derive`. -/
def deriveGrammar : Grammar where
  positional := some "file"
  options := [("diagnostics", .path), ("hints", .path)] ++ commonOptions
  required := ["file"]

/-- The arguments of `record`. -/
def recordGrammar : Grammar where
  options := [("file", .text), ("node", .text), ("tactic", .text), ("key", .text),
    ("result", .text), ("category", .text), ("message", .text), ("duration-ms", .natural),
    ("goal", .text)] ++ commonOptions
  required := ["file", "node", "tactic", "result"]

/-- The arguments of `suggest`. -/
def suggestGrammar : Grammar where
  options := [("file", .text), ("node", .text), ("limit", .natural)] ++ commonOptions
  required := ["file", "node"]

/-- The arguments of `sync`. -/
def syncGrammar : Grammar where
  positional := some "file"
  options := [("reason", .text), ("debounce-ms", .integer)] ++ commonOptions
  required := ["file"]

/-- The arguments of `classify`. -/
def classifyGrammar : Grammar where
  positional := some "message"
  options := commonOptions
  required := ["message"]

/-- The arguments of each command. -/
def grammars : List (String × Grammar) :=
  [("derive", deriveGrammar), ("record", recordGrammar), ("suggest", suggestGrammar),
    ("sync", syncGrammar), ("classify", classifyGrammar)]

/-- The arguments in front of the command. -/
def frontGrammar : Grammar where
  options := commonOptions
  commands := "help" :: grammars.map (·.1)
  hasVersion := true

/-- A command with the values of its arguments. -/
def commandOf (name : String) (values : Table String) : Command :=
  let text (key : String) : String := (values.get? key).getD ""
  match name with
  | "derive" => .derive (text "file") (values.get? "diagnostics") (values.get? "hints")
  | "record" =>
    .record (text "file") (text "node") (text "tactic") (text "result") (values.get? "key")
      (values.get? "category") (values.get? "message") (values.get? "goal")
      (((values.get? "duration-ms").bind Decimal.nat64?).map Nat.toUInt64)
  | "suggest" =>
    .suggest (text "file") (text "node") ((values.get? "limit").bind Decimal.nat64?)
  | "sync" =>
    .sync (text "file") ((values.get? "reason").getD "save")
      ((values.get? "debounce-ms").bind Decimal.int64?)
  | _ => .classify (text "message")

/-- The answer to the command `help`, which may name one command. -/
def helpError : List String → UsageError
  | [] => .displayHelp
  | [name] => if frontGrammar.commands.contains name then .displayHelp else .invalidSubcommand
  | _ => .invalidSubcommand

/-- Reads the arguments of a command. -/
def readCommand (g : Grammar) (args : List String) : Except UsageError Progress := do
  let (p, _) ← readStage g {} args
  let q ← p.settle g
  if g.required.all q.values.contains then return q else .error .missingArgument

/-- The error for arguments without a command. -/
def withoutCommand (p : Progress) : UsageError :=
  if p.started then .missingSubcommand else .nothingGiven

/-- Reads the arguments after the name of the program. -/
def parse (args : List String) : Except UsageError Invocation := do
  let (front, follow) ← readStage frontGrammar {} args
  match follow with
  | none => do
    let settled ← front.settle frontGrammar
    .error (withoutCommand settled)
  | some ("help", rest) => .error (helpError rest)
  | some (name, rest) =>
    match grammars.lookup name with
    | none => .error .invalidSubcommand
    | some g => do
      let behind ← readCommand g rest
      let settled ← front.settle frontGrammar
      let common (key : String) : Option String :=
        (behind.values.get? key).orElse fun _ => settled.values.get? key
      return {
        command := commandOf name behind.values
        json := behind.json || settled.json
        state := common "state"
        config := common "config" }

end ProofLedger.Arguments
