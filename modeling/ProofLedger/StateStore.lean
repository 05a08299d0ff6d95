import ProofLedger.Failure
import ProofLedger.ProofState

/-!
# Stores of the state

The state is owned by a store, which the engines do not touch: they are given a snapshot and hand
back patches.
-/

namespace ProofLedger

/-- A store of the state. -/
structure StateStore (m : Type → Type) where
  /-- the state at the moment -/
  snapshot : ExceptT Failure m ProofState
  /-- applies patches in order, all or none of them -/
  apply : List Patch → ExceptT Failure m Unit

/-- The store that keeps its tree in memory. -/
def StateStore.inMemory : StateStore (StateM Json) where
  snapshot := return .ofJson (← get)
  apply patches := modify (Patch.applyAll patches)

end ProofLedger
