import BulkSync.Visit

namespace BulkSync

/-- One step of a superstep: a task visits its next node, or hands over what it gathered. -/
inductive Move where
  | visit (task node : Nat)
  | finish (task : Nat)
deriving DecidableEq, Repr

/-- The moves of the tasks one after the other, each from its first node to its last. -/
def sequentialMoves (partitions : List Partition) : List Move :=
  partitions.zipIdx.flatMap fun (partition, task) =>
    partition.ids.map (.visit task) ++ [.finish task]

/-- A superstep in progress. -/
structure Round (M R : Type) where
  state : State M
  tallies : Array Tally
  computed : Nat
  sent : Nat
  /-- The faults that ended tasks, in the order they came. -/
  faults : List Fault
  journal : Array (Entry M R)

namespace Round

variable {M R : Type}

/-- A superstep before its first move: every task has gathered nothing. -/
def start (state : State M) (tasks : Nat) (journal : Array (Entry M R)) : Round M R :=
  let tally := ⟨Totals.blank state.aggregates.declared, 0, 0, false⟩
  ⟨state, Array.replicate tasks tally, 0, 0, [], journal⟩

/-- Lets a task visit a node; a task that has ended does nothing more. -/
def visit (engine : Engine M R) (superstep task node : Nat) (round : Round M R) : Round M R :=
  match round.tallies[task]? with
  | none => round
  | some tally =>
    if tally.ended then round
    else
      match Work.visit engine superstep task node ⟨⟨round.state, tally⟩, round.journal⟩ with
      | .ok () work =>
        { round with
          state := work.desk.state
          tallies := round.tallies.setIfInBounds task work.desk.tally
          journal := work.journal }
      | .error f work =>
        { round with
          state := work.desk.state
          tallies := round.tallies.setIfInBounds task { work.desk.tally with ended := true }
          faults := round.faults ++ [f]
          journal := work.journal }

/-- Lets a task hand over its counters and its partial totals. -/
def finish (task : Nat) (round : Round M R) : Round M R :=
  match round.tallies[task]? with
  | none => round
  | some tally =>
    if tally.ended then round
    else
      let round := { round with
        tallies := round.tallies.setIfInBounds task { tally with ended := true }
        computed := (round.computed + tally.computed) % countLimit
        sent := (round.sent + tally.sent) % countLimit }
      match round.state.aggregates.merge tally.partials with
      | .ok aggregates => { round with state := { round.state with aggregates } }
      | .error f => { round with faults := round.faults ++ [f] }

def move (engine : Engine M R) (superstep : Nat) (round : Round M R) : Move → Round M R
  | .visit task node => round.visit engine superstep task node
  | .finish task => round.finish task

/-- Whether nothing was sent and every node has halted. -/
def isQuiet (round : Round M R) : Bool :=
  round.sent == 0 && round.state.halted.allHalted

end Round

end BulkSync
