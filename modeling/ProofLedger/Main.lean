import ProofLedger.CommandLine.Program
import Std.Time.DateTime.Timestamp

/-!
# The command line

The surroundings of the program as they really are: the files of the machine, its clock, and the
environment of the process.
-/

namespace ProofLedger.Machine

/-- The fault that an error of the system means. -/
def faultOf : IO.Error → FileFault
  | .noFileOrDirectory .. => .notFound
  | .alreadyExists .. => .alreadyExists
  | .inappropriateType _ code text =>
    if code = 20 then .notDirectory else if code = 21 then .isDirectory else .other text
  | e => .other (toString e)

/-- Carries out an operation on a file. -/
def attempt {α : Type} (operation : IO α) : IO (Except FileFault α) := do
  match ← operation.toBaseIO with
  | .ok a => return .ok a
  | .error e => return .error (faultOf e)

/-- Access to the files of the machine. -/
def files : FileAccess IO where
  read path := attempt (IO.FS.readBinFile path)
  write path bytes := attempt (IO.FS.writeBinFile path bytes)
  rename path target := attempt (IO.FS.rename path target)
  createDirs path := attempt (IO.FS.createDirAll path)
  remove path := do
    let _ ← attempt (IO.FS.removeFile path)

/-- A variable of the environment as it is listed: its name, an equals sign, its value. -/
def listed? (entry : List UInt8) : Option (String × String) := do
  let name := entry.takeWhile (· != 61)
  let value := (entry.dropWhile (· != 61)).drop 1
  return (← String.fromUTF8? ⟨name.toArray⟩, ← String.fromUTF8? ⟨value.toArray⟩)

/-- The variables that are set, none if they are not listed. -/
def environment : IO (List (String × String)) := do
  match ← files.read "/proc/self/environ" with
  | .ok bytes => return (bytes.toList.splitOn 0).filterMap listed?
  | .error _ => return []

/-- The time of day. -/
def now : IO Instant := do
  return .ofNanos (← Std.Time.Timestamp.now).toNanosecondsSinceUnixEpoch.val

/-- Sleeps for some milliseconds. -/
def wait (ms : Nat) : IO Unit := IO.sleep (min ms 0xFFFFFFFF).toUInt32

end ProofLedger.Machine

/-- Runs the program in the surroundings of the process. -/
def main (args : List String) : IO UInt32 := do
  let environment ← ProofLedger.Machine.environment
  let result ← ProofLedger.Program.run
    { files := ProofLedger.Machine.files
      environment
      now := ProofLedger.Machine.now
      wait := ProofLedger.Machine.wait } args
  IO.print result.stdout
  IO.eprint result.stderr
  return result.exitCode.toUInt32
