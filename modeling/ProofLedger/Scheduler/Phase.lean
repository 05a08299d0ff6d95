/-!
# Phases of a key

A key is idle until it is requested. A request arms its timer, the timer starts a run, and a run
ends in idleness or, if requests came in meanwhile, with the timer armed again. Signals that do
not apply to a phase leave it as it is.
-/

namespace ProofLedger

/-- Where the scheduling of a key stands. -/
inductive Phase where
  /-- nothing is pending -/
  | idle
  /-- the timer is armed -/
  | debouncing
  /-- a run is in flight -/
  | running
  deriving DecidableEq, Repr, Inhabited

namespace Phase

/-- What moves a key from phase to phase. -/
inductive Signal where
  | request
  | timerFired
  | runFinished (pending : Bool)
  | clear
  deriving DecidableEq, Repr

/-- The phase after a signal. A run in flight outlives a clear. -/
def after : Phase → Signal → Phase
  | .running, .clear => .running
  | _, .clear => .idle
  | .running, .request => .running
  | _, .request => .debouncing
  | .debouncing, .timerFired => .running
  | .running, .runFinished true => .debouncing
  | .running, .runFinished false => .idle
  | phase, _ => phase

/-- The name of a phase. -/
def name : Phase → String
  | .idle => "idle"
  | .debouncing => "debouncing"
  | .running => "running"

end Phase

end ProofLedger
