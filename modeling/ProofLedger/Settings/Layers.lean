import ProofLedger.Files.Access
import ProofLedger.Json.Overlay
import ProofLedger.Settings
import ProofLedger.Settings.Environment
import ProofLedger.Yaml.Reader

/-!
# Layers of settings

Settings are the defaults with layers laid over them: the file of the project, the file of the
user, and the environment; or one file that is named instead. A layer that cannot be read, and
layers that do not add up to settings, are refused before the settings are checked. A list that
stands for a section may be longer than the section.
-/

namespace ProofLedger

/-- Why no settings could be had. -/
inductive SettingsFailure where
  | unreadable
  | fault (f : SettingsFault)
  deriving DecidableEq, Repr

namespace Settings

/-- The file with the settings of a project. -/
def projectFile : String := ".proofsync/config.yaml"

/-- The file with the settings of a user in a project. -/
def userFile : String := ".proofsync/local.yaml"

/-- The layer in a file that was read. It has no entries if there is no file. -/
def layerOfFile? : Except FileFault String → Option Json
  | .ok text => Yaml.read? text
  | .error .notText => none
  | .error _ => some .emptyObject

/-- The settings that layers add up to, from the lowest on. -/
def ofLayers (layers : List (Option Json)) : Except SettingsFailure Settings :=
  match layers.mapM id with
  | none => .error .unreadable
  | some layers =>
    match ofJson? (layers.foldl Json.overlay ({} : Settings).toJson) .ignored with
    | none => .error .unreadable
    | some s => s.check.mapError .fault

/-- Loads the settings: from the defaults and the one file that is named, or else from all
    layers. -/
def load {m : Type → Type} [Monad m] (files : FileAccess m)
    (environment : List (String × String)) (named : Option String) :
    m (Except SettingsFailure Settings) := do
  match named with
  | some path => return ofLayers [layerOfFile? (← files.readText path)]
  | none =>
    let project := layerOfFile? (← files.readText projectFile)
    let user := layerOfFile? (← files.readText userFile)
    return ofLayers [project, user, some (Environment.layer environment)]

end Settings

end ProofLedger
