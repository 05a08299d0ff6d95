import ProofLedger.Category.Classify
import ProofLedger.CommandLine.Report
import ProofLedger.Derivation.Commit
import ProofLedger.Files.Source
import ProofLedger.Ledger
import ProofLedger.Recommendation
import ProofLedger.Scheduler
import ProofLedger.Settings.Layers
import ProofLedger.StateStore

/-!
# Commands

What the commands do: each reads what it needs, lets an engine work, commits the patches to the
store and reports. A command that fails says why and has changed nothing since its last
commit.
-/

namespace ProofLedger

/-- Why a command failed. -/
inductive CommandFault where
  /-- the settings cannot be read, from the file that is named or from all layers -/
  | settingsUnreadable (named : Option String)
  | settings (f : SettingsFault)
  | boundary (f : Failure)
  | unreadable (path : String) (f : FileFault)
  | notJson (path : String)
  /-- an argument that names none of the values it may have -/
  | invalidChoice (what text : String)
  | zeroLimit
  deriving DecidableEq, Repr

/-- The text of a fault. -/
def CommandFault.message : CommandFault → String
  | .settingsUnreadable (some path) => "Failed to load config from " ++ path
  | .settingsUnreadable none => "Failed to load configuration"
  | .settings f => f.message
  | .boundary f => f.message
  | .unreadable path f => "Failed to read " ++ path ++ ": " ++ f.message
  | .notJson path => "Invalid JSON in " ++ path
  | .invalidChoice what text => "Invalid " ++ what ++ ": " ++ text
  | .zeroLimit => "--limit must be at least 1"

/-- What a command has to do with: files, the environment and time. -/
structure Surroundings (m : Type → Type) where
  files : FileAccess m
  /-- the variables that are set, with their values -/
  environment : List (String × String)
  now : m Instant
  /-- lets milliseconds pass -/
  wait : Nat → m Unit

/-- The surroundings of a command with its settings and its store. -/
structure Project (m : Type → Type) extends Surroundings m where
  settings : Settings
  store : StateStore m

namespace Project

variable {m : Type → Type} [Monad m]

/-- Where source files are looked for. -/
def root : String := "."

/-- Commits patches to the store. -/
def commit (p : Project m) (patches : List Patch) : ExceptT CommandFault m Unit :=
  (p.store.apply patches).adapt .boundary

/-- The state in the store. -/
def snapshot (p : Project m) : ExceptT CommandFault m ProofState :=
  p.store.snapshot.adapt .boundary

/-- A value that an argument has to have. -/
def demand {α : Type} (v : Except CommandFault α) : ExceptT CommandFault m α := ExceptT.mk (pure v)

-- ── Derive ────────────────────────────────────────────────────────────────────

/-- The JSON value in a file that was named. -/
def readJson (p : Project m) (path : String) : ExceptT CommandFault m Json := do
  match ← p.files.read path with
  | .error f => throw (.unreadable path f)
  | .ok bytes =>
    match (String.fromUTF8? bytes).bind Json.parse? with
    | some v => return v
    | none => throw (.notJson path)

/-- A context with the diagnostics in a file that was named, if one was. -/
def withDiagnostics (p : Project m) (c : SourceContext) (path : Option String) :
    ExceptT CommandFault m SourceContext := do
  match path with
  | none => return c
  | some path =>
    let v ← p.readJson path
    return { c with diagnostics := Diagnostic.listOfPayload (v.sidecarList? "diagnostics") }

/-- The hints in a file that was named, or else those beside the source file, if any. -/
def hintsFor (p : Project m) (fileKey : String) (path : Option String) :
    ExceptT CommandFault m (List GoalHint) := do
  match path with
  | some path => return GoalHint.listOfPayload ((← p.readJson path).sidecarList? "goalHints")
  | none =>
    match ← liftM (SourceFile.loadHints p.files root fileKey).run with
    | .ok hints => return hints
    | .error _ => return []

/-- Derives a source file and commits the derivation. -/
def derive (p : Project m) (fileKey : String) (diagnostics hints : Option String) :
    ExceptT CommandFault m DeriveReport := do
  let loaded ← (SourceFile.loadContext p.files root fileKey).adapt .boundary
  let context ← p.withDiagnostics loaded diagnostics
  let goalHints ← p.hintsFor fileKey hints
  let d := Derivation.derive { context with goalHints } (← p.now)
  let patches := Derivation.patches fileKey d
  p.commit patches
  return DeriveReport.ofDerivation fileKey d patches.length

-- ── Record ────────────────────────────────────────────────────────────────────

/-- A result that an argument names. -/
def resultNamed (text : String) : Except CommandFault AttemptResult :=
  match AttemptResult.ofText? text with
  | some r => .ok r
  | none => .error (.invalidChoice "result" text)

/-- A category that an argument names, if it is given. -/
def categoryNamed : Option String → Except CommandFault (Option Category)
  | none => .ok none
  | some text =>
    match Category.ofText? text with
    | some c => .ok (some c)
    | none => .error (.invalidChoice "category" text)

/-- Records an attempt. -/
def record (p : Project m) (a : AttemptInput) : ExceptT CommandFault m RecordReport := do
  let patches := Ledger.record (← p.snapshot) a (← p.now)
  if !patches.isEmpty then p.commit patches
  return RecordReport.ofState (← p.snapshot) a.fileKey a.nodeId patches.length

-- ── Suggest ───────────────────────────────────────────────────────────────────

/-- Ranking settings with the limit of an argument, if it is given. -/
def limited (s : RankingSettings) : Option Nat → Except CommandFault RankingSettings
  | none => .ok s
  | some 0 => .error .zeroLimit
  | some limit => .ok { s with limit }

/-- Ranks the suggestions for an obligation and stores them. -/
def suggest (p : Project m) (fileKey nodeId : String) (limit : Option Nat) :
    ExceptT CommandFault m SuggestReport := do
  let ranking ← demand (limited p.settings.ranking limit)
  match Recommendation.refreshSlot ranking (← p.snapshot) fileKey nodeId (← p.now) with
  | none => return { fileKey, nodeId, suggestions := [] }
  | some r =>
    p.commit r.patches
    return { fileKey, nodeId, suggestions := r.slot.entries }

-- ── Sync ──────────────────────────────────────────────────────────────────────

/-- A reason that an argument names. -/
def reasonNamed (text : String) : Except CommandFault SyncReason :=
  match SyncReason.ofText? text with
  | some r => .ok r
  | none => .error (.invalidChoice "reason" text)

/-- The patches of a run that syncs a source file. -/
def syncPatches (p : Project m) (fileKey : String) : m (List Patch) := do
  let now ← p.now
  match ← (SourceFile.loadContext p.files root fileKey).run with
  | .error _ => return Derivation.syncPatches fileKey none [] now
  | .ok context =>
    let hints ← (SourceFile.loadHints p.files root fileKey).run
    return Derivation.syncPatches fileKey (some context) (hints.toOption.getD []) now

/-- Syncs a source file. The request is the only one, so that it is served by one run after its
    delay; a run that cannot commit ends the request all the same. -/
def sync (p : Project m) (fileKey : String) (reason : SyncReason) (debounceMs : Option Int) :
    ExceptT CommandFault m SyncReport := do
  p.wait (p.settings.scheduler.delayOf reason debounceMs)
  let patches ← liftM (p.syncPatches fileKey)
  let _ ← liftM (p.commit patches).run
  return SyncReport.ofState (← p.snapshot) fileKey reason

end Project

end ProofLedger
