/-!
# Agendas

An agenda lists what is due when, in the order of the due times; of two items that are due at the
same time the one entered first comes first.
-/

namespace ProofLedger

/-- Items with their due times, in order. -/
abbrev Agenda (α : Type) := List (Nat × α)

namespace Agenda

variable {α : Type}

/-- Enters an item after everything that is due no later. -/
def enter (due : Nat) (item : α) : Agenda α → Agenda α
  | [] => [(due, item)]
  | head :: rest =>
    if head.1 ≤ due then head :: enter due item rest else (due, item) :: head :: rest

/-- Drops an item wherever it is entered. -/
def drop [DecidableEq α] (item : α) (a : Agenda α) : Agenda α := a.filter fun e => e.2 ≠ item

/-- The next item that is due by a time, and what remains. -/
def next? (deadline : Nat) : Agenda α → Option ((Nat × α) × Agenda α)
  | [] => none
  | head :: rest => if head.1 ≤ deadline then some (head, rest) else none

end Agenda

end ProofLedger
