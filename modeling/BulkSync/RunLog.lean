import BulkSync.RuleBook

namespace BulkSync

/-- One line of the log of a run. -/
inductive LogLine (M : Type) where
  | init (node : Nat) (readings : List Reading)
  | compute (superstep node : Nat) (account : Account M)
  | master (superstep : Nat) (readings : List Reading)

namespace LogLine

variable {M : Type}

/-- Lines are ordered by superstep, then by callback, then by node. -/
def place : LogLine M → Nat × Nat × Nat
  | .init node _ => (0, 0, node)
  | .compute superstep node _ => (superstep, 1, node)
  | .master superstep _ => (superstep, 2, 0)

def precedes (a b : LogLine M) : Bool :=
  let (s, c, n) := a.place
  let (t, d, m) := b.place
  s < t || (s == t && (c < d || (c == d && n ≤ m)))

/-- The line of a callback; init and master callbacks that learned nothing have none. -/
def ofEntry? : Entry M (Account M) → Option (LogLine M)
  | .init node _ (.ok account) =>
    if account.readings.isEmpty then none else some (.init node account.readings)
  | .compute superstep _ node _ _ (.ok account) => some (.compute superstep node account)
  | .master superstep _ (.ok (_, account)) =>
    if account.readings.isEmpty then none else some (.master superstep account.readings)
  | _ => none

end LogLine

/-- The log of a run, in the order of its lines. -/
def Run.log {M : Type} (run : Run M (Account M)) : List (LogLine M) :=
  (run.progress.journal.toList.filterMap LogLine.ofEntry?).mergeSort LogLine.precedes

end BulkSync
