import ProofLedger.Attempt
import ProofLedger.Table

/-!
# The history of an obligation

All attempts on one obligation under their ids, with counters that roll along. Counters of
attempts are words of 64 bits, here and wherever attempts are counted: a number that does not fit
is not read, and sums are taken modulo `2^64`.
-/

namespace ProofLedger

/-- The attempts on an obligation and their counters. -/
structure NodeHistory where
  attempts : Table AttemptRecord := Table.empty
  /-- attempts since the last success -/
  currentStreak : UInt32 := 0
  totalAttempts : UInt64 := 0
  lastAttemptAt : Option Instant := none
  lastSuccessAt : Option Instant := none
  lastFailureAt : Option Instant := none
  deriving DecidableEq, Repr, Inhabited

namespace NodeHistory

/-- Whether an attempt is at least as late as another, by time and then by id. -/
def notBefore (a b : AttemptRecord) : Bool :=
  b.timestamp < a.timestamp || (a.timestamp == b.timestamp && !decide (a.id < b.id))

/-- The latest attempt; of those that are equally late the last one. -/
def latest? (h : NodeHistory) : Option AttemptRecord :=
  h.attempts.values.foldl (fun best a =>
    match best with
    | none => some a
    | some b => if notBefore a b then some a else some b) none

/-- A history in JSON. -/
def toJson (h : NodeHistory) : Json :=
  .ofPresent [("attempts", some (.ofTable AttemptRecord.toJson h.attempts)),
    ("currentStreak", some (.ofNat h.currentStreak.toNat)),
    ("totalAttempts", some (.ofNat h.totalAttempts.toNat)),
    ("lastAttemptAt", h.lastAttemptAt.map Instant.toJson),
    ("lastSuccessAt", h.lastSuccessAt.map Instant.toJson),
    ("lastFailureAt", h.lastFailureAt.map Instant.toJson)]

/-- Reads a history from JSON. -/
def ofJson? (v : Json) : Option NodeHistory := do
  let r ← v.record? ["attempts", "currentStreak", "totalAttempts", "lastAttemptAt",
    "lastSuccessAt", "lastFailureAt"]
  return {
    attempts := ← r.defaulted "attempts" Table.empty (Json.asTableOf? AttemptRecord.ofJson?)
    currentStreak := ← r.defaulted "currentStreak" 0 Json.asUInt32?
    totalAttempts := ← r.defaulted "totalAttempts" 0 Json.asUInt64?
    lastAttemptAt := ← r.optional "lastAttemptAt" Instant.ofJson?
    lastSuccessAt := ← r.optional "lastSuccessAt" Instant.ofJson?
    lastFailureAt := ← r.optional "lastFailureAt" Instant.ofJson? }

end NodeHistory

end ProofLedger
