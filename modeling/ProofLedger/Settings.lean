import ProofLedger.Decimal.Shortest
import ProofLedger.Json.Record
import ProofLedger.SyncReason
import ProofLedger.Text.Blank

/-!
# Settings

Everything that can be configured, with its defaults. Every section and every value may be left
out. Settings are checked before use (`Settings.check`); of several faults the first in the
order of the sections is reported.
-/

namespace ProofLedger

/-- What is logged and where. -/
structure LogSettings where
  level : String := "info"
  format : String := "pretty"
  /-- directory of log files; without one the log goes to the terminal only -/
  directory : Option String := none
  deriving DecidableEq, Repr, Inhabited

/-- The delay in milliseconds for each reason to derive a file again. -/
structure SchedulerSettings where
  startupMs : Nat := 0
  activateMs : Nat := 150
  saveMs : Nat := 250
  diagnosticsMs : Nat := 400
  applyMs : Nat := 0
  deriving DecidableEq, Repr, Inhabited

/-- The weights of the blended score of a suggestion, in any number type. -/
structure Weights (α : Type) where
  global : α
  categoryMatch : α
  sampleConfidence : α
  recency : α
  nodeLocal : α
  goalSignature : α
  deriving DecidableEq, Repr

/-- The default weights. -/
def Weights.standard : Weights Float := ⟨0.45, 0.20, 0.15, 0.10, 0.10, 0.08⟩

instance : Inhabited (Weights Float) := ⟨Weights.standard⟩

/-- How suggestions are ranked and cached. -/
structure RankingSettings where
  weights : Weights Float := Weights.standard
  /-- candidates with fewer attempts are left out -/
  minSampleSize : Nat := 1
  /-- the number of suggestions kept for an obligation -/
  limit : Nat := 5
  /-- seconds after which a cached slot expires -/
  cacheTtlSecs : Nat := 1800
  /-- the number of cached slots -/
  cacheMaxEntries : Nat := 200
  deriving DecidableEq, Repr, Inhabited

/-- Where the state is kept. -/
structure StateSettings where
  path : String := ".proofsync/state.json"
  deriving DecidableEq, Repr, Inhabited

/-- All settings. -/
structure Settings where
  logging : LogSettings := {}
  scheduler : SchedulerSettings := {}
  ranking : RankingSettings := {}
  state : StateSettings := {}
  deriving DecidableEq, Repr, Inhabited

/-- The delay for a reason. -/
def SchedulerSettings.delayMs (s : SchedulerSettings) : SyncReason → Nat
  | .startup => s.startupMs
  | .activate => s.activateMs
  | .save => s.saveMs
  | .diagnostics => s.diagnosticsMs
  | .apply => s.applyMs

/-- The weights with their names, in order. -/
def Weights.named {α : Type} (w : Weights α) : List (String × α) :=
  [("global", w.global), ("category_match", w.categoryMatch),
    ("sample_confidence", w.sampleConfidence), ("recency", w.recency),
    ("node_local", w.nodeLocal), ("goal_signature", w.goalSignature)]

-- ── JSON ──────────────────────────────────────────────────────────────────────

namespace LogSettings

/-- Logging settings in JSON. -/
def toJson (s : LogSettings) : Json :=
  .ofFields [("level", .string s.level), ("format", .string s.format),
    ("log_dir", (s.directory.map Json.string).getD .null)]

/-- Reads logging settings from JSON. -/
def ofJson? (v : Json) (surplus : Json.Surplus := .refused) : Option LogSettings := do
  let r ← v.record? ["level", "format", "log_dir"] surplus
  return {
    level := ← r.defaulted "level" "info" Json.asString?
    format := ← r.defaulted "format" "pretty" Json.asString?
    directory := ← r.optional "log_dir" Json.asString? }

end LogSettings

namespace SchedulerSettings

/-- Scheduler settings in JSON. -/
def toJson (s : SchedulerSettings) : Json :=
  .ofFields [("startup_ms", .ofNat s.startupMs), ("activate_ms", .ofNat s.activateMs),
    ("save_ms", .ofNat s.saveMs), ("diagnostics_ms", .ofNat s.diagnosticsMs),
    ("apply_ms", .ofNat s.applyMs)]

/-- Reads scheduler settings from JSON. -/
def ofJson? (v : Json) (surplus : Json.Surplus := .refused) : Option SchedulerSettings := do
  let r ← v.record? ["startup_ms", "activate_ms", "save_ms", "diagnostics_ms", "apply_ms"] surplus
  return {
    startupMs := ← r.defaulted "startup_ms" 0 Json.asWord?
    activateMs := ← r.defaulted "activate_ms" 150 Json.asWord?
    saveMs := ← r.defaulted "save_ms" 250 Json.asWord?
    diagnosticsMs := ← r.defaulted "diagnostics_ms" 400 Json.asWord?
    applyMs := ← r.defaulted "apply_ms" 0 Json.asWord? }

end SchedulerSettings

namespace Weights

/-- Weights in JSON. -/
def toJson (w : Weights Float) : Json :=
  .ofFields (w.named.map fun (name, x) => (name, .ofFloat x))

/-- Reads weights from JSON. -/
def ofJson? (v : Json) (surplus : Json.Surplus := .refused) : Option (Weights Float) := do
  let r ← v.record? ["global", "category_match", "sample_confidence", "recency", "node_local",
    "goal_signature"] surplus
  let d := standard
  return {
    global := ← r.defaulted "global" d.global Json.asFloat?
    categoryMatch := ← r.defaulted "category_match" d.categoryMatch Json.asFloat?
    sampleConfidence := ← r.defaulted "sample_confidence" d.sampleConfidence Json.asFloat?
    recency := ← r.defaulted "recency" d.recency Json.asFloat?
    nodeLocal := ← r.defaulted "node_local" d.nodeLocal Json.asFloat?
    goalSignature := ← r.defaulted "goal_signature" d.goalSignature Json.asFloat? }

end Weights

namespace RankingSettings

/-- Ranking settings in JSON. -/
def toJson (s : RankingSettings) : Json :=
  .ofFields [("weights", s.weights.toJson), ("min_sample_size", .ofNat s.minSampleSize),
    ("limit", .ofNat s.limit), ("cache_ttl_secs", .ofNat s.cacheTtlSecs),
    ("cache_max_entries", .ofNat s.cacheMaxEntries)]

/-- Reads ranking settings from JSON. -/
def ofJson? (v : Json) (surplus : Json.Surplus := .refused) : Option RankingSettings := do
  let r ← v.record? ["weights", "min_sample_size", "limit", "cache_ttl_secs",
    "cache_max_entries"] surplus
  return {
    weights := ← r.defaulted "weights" Weights.standard (Weights.ofJson? · surplus)
    minSampleSize := ← r.defaulted "min_sample_size" 1 Json.asWord?
    limit := ← r.defaulted "limit" 5 Json.asWord?
    cacheTtlSecs := ← r.defaulted "cache_ttl_secs" 1800 Json.asWord?
    cacheMaxEntries := ← r.defaulted "cache_max_entries" 200 Json.asWord? }

end RankingSettings

namespace StateSettings

/-- State settings in JSON. -/
def toJson (s : StateSettings) : Json := .ofFields [("path", .string s.path)]

/-- Reads state settings from JSON. -/
def ofJson? (v : Json) (surplus : Json.Surplus := .refused) : Option StateSettings := do
  let r ← v.record? ["path"] surplus
  return { path := ← r.defaulted "path" ".proofsync/state.json" Json.asString? }

end StateSettings

namespace Settings

/-- Settings in JSON. -/
def toJson (s : Settings) : Json :=
  .ofFields [("logging", s.logging.toJson), ("scheduler", s.scheduler.toJson),
    ("ranking", s.ranking.toJson), ("state", s.state.toJson)]

/-- Reads settings from JSON. -/
def ofJson? (v : Json) (surplus : Json.Surplus := .refused) : Option Settings := do
  let r ← v.record? ["logging", "scheduler", "ranking", "state"] surplus
  return {
    logging := ← r.defaulted "logging" {} (LogSettings.ofJson? · surplus)
    scheduler := ← r.defaulted "scheduler" {} (SchedulerSettings.ofJson? · surplus)
    ranking := ← r.defaulted "ranking" {} (RankingSettings.ofJson? · surplus)
    state := ← r.defaulted "state" {} (StateSettings.ofJson? · surplus) }

end Settings

-- ── Check ─────────────────────────────────────────────────────────────────────

/-- Why settings are refused. -/
inductive SettingsFault where
  | logLevel (level : String)
  | logFormat (format : String)
  | weight (name : String) (value : Float)
  | limit (n : Nat)
  | cacheCapacity (n : Nat)
  | cacheTtl (seconds : Nat)
  | emptyStatePath
  deriving DecidableEq, Repr

/-- The text of a fault. -/
def SettingsFault.message : SettingsFault → String
  | .logLevel level =>
    "Invalid log level: " ++ level ++ ". Must be one of: trace, debug, info, warn, error"
  | .logFormat format => "Invalid log format: " ++ format ++ ". Must be one of: json, pretty"
  | .weight name value =>
    "Invalid ranking weight " ++ name ++ ": " ++ Decimal.plain value ++
      ". Must be finite and non-negative"
  | .limit n => "Invalid suggestion limit: " ++ toString n ++ ". Must be at least 1"
  | .cacheCapacity n => "Invalid cache capacity: " ++ toString n ++ ". Must be at least 1"
  | .cacheTtl seconds => "Invalid cache TTL: " ++ toString seconds ++ "s. Must be positive"
  | .emptyStatePath => "State path cannot be empty"

/-- Whether a weight may be used: finite and not below zero. -/
def isUsableWeight (x : Float) : Bool := x.isFinite && !decide (x < 0)

/-- The levels that a log may have. -/
def logLevels : List String := ["trace", "debug", "info", "warn", "error"]

/-- The formats that a log may have. -/
def logFormats : List String := ["json", "pretty"]

/-- The first fault of some settings. -/
def Settings.fault? (s : Settings) : Option SettingsFault :=
  if !logLevels.contains s.logging.level then some (.logLevel s.logging.level)
  else if !logFormats.contains s.logging.format then some (.logFormat s.logging.format)
  else
    match s.ranking.weights.named.find? fun w => !isUsableWeight w.2 with
    | some (name, value) => some (.weight name value)
    | none =>
      if s.ranking.limit = 0 then some (.limit 0)
      else if s.ranking.cacheMaxEntries = 0 then some (.cacheCapacity 0)
      else if s.ranking.cacheTtlSecs = 0 then some (.cacheTtl 0)
      else if Text.isBlankText s.state.path then some .emptyStatePath
      else none

/-- Settings without a fault. -/
def Settings.check (s : Settings) : Except SettingsFault Settings :=
  match s.fault? with
  | some f => .error f
  | none => .ok s

end ProofLedger
