/-!
# Invocations

What the command line can be asked to do: one of five commands with its arguments, and the
options that every command has.
-/

namespace ProofLedger

/-- What a command is to do, as it was written on the command line. -/
inductive Command where
  /-- derives goals and graph of a source file -/
  | derive (file : String) (diagnostics hints : Option String)
  /-- records an attempt -/
  | record (file node tactic result : String) (key category message goal : Option String)
      (durationMs : Option UInt64)
  /-- ranks tactics for an obligation -/
  | suggest (file node : String) (limit : Option Nat)
  /-- syncs a source file by way of the scheduler -/
  | sync (file reason : String) (debounceMs : Option Int)
  /-- classifies an error message -/
  | classify (message : String)
  deriving DecidableEq, Repr

/-- A command with the options that every command has. -/
structure Invocation where
  command : Command
  /-- whether the report is given in JSON -/
  json : Bool
  /-- the state file, in place of the one in the settings -/
  state : Option String
  /-- the settings file, in place of all other layers -/
  config : Option String
  deriving DecidableEq, Repr

/-- Why arguments are no invocation; a request for help or for the version is none either. -/
inductive UsageError where
  | displayHelp
  | displayVersion
  /-- there are no arguments at all -/
  | nothingGiven
  | missingSubcommand
  | invalidSubcommand
  | unknownArgument
  /-- an option is given more than once -/
  | repeatedArgument
  | missingArgument
  /-- an option lacks its value, or the value may not be empty -/
  | missingValue
  /-- a value is no number of the kind that is asked for -/
  | malformedValue
  /-- a flag is given a value -/
  | superfluousValue
  deriving DecidableEq, Repr

namespace UsageError

/-- The status with which the program ends. -/
def exitCode : UsageError → Nat
  | .displayHelp => 0
  | .displayVersion => 0
  | _ => 2

end UsageError

end ProofLedger
