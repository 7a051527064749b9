import BulkSync.Round

namespace BulkSync

/-- How a run ended. -/
inductive Status where
  | converged
  | maxSupersteps
  | cancelled
deriving DecidableEq, Repr

/-- What is counted in one superstep. -/
structure Stats where
  superstep : Nat
  computed : Nat
  sent : Nat
deriving DecidableEq, Repr

/-- What a run leaves to its caller. -/
structure RunResult where
  values : ValueStore
  ran : Nat
  status : Status
  aggregates : List (String × Float)
  stats : Array Stats

/-- What a run does not decide for itself: in which order the tasks of each superstep move, and
before which supersteps someone else asks it to stop. -/
structure Schedule where
  moves : (superstep : Nat) → List Partition → List Move
  interrupts : (superstep : Nat) → Bool

/-- The schedule of a single worker that is left alone. -/
def Schedule.sequential : Schedule :=
  ⟨fun _ => sequentialMoves, fun _ => false⟩

/-- A run at the boundary between two supersteps. -/
structure Progress (M R : Type) where
  state : State M
  stats : Array Stats
  journal : Array (Entry M R)

namespace Progress

variable {M R : Type}

/-- The callback that ends a computation. -/
def close (progress : Progress M R) : Progress M R :=
  { progress with journal := progress.journal.push .close }

/-- Gives up the message buffers, which no callback is told of. -/
def release (progress : Progress M R) : Progress M R :=
  { progress with state := { progress.state with mail := progress.state.mail.release } }

@[simp]
theorem close_state (p : Progress M R) : p.close.state = p.state := rfl

@[simp]
theorem close_journal (p : Progress M R) : p.close.journal = p.journal.push .close := rfl

@[simp]
theorem release_halted (p : Progress M R) : p.release.state.halted = p.state.halted := rfl

@[simp]
theorem release_journal (p : Progress M R) : p.release.journal = p.journal := rfl

/-- How often the computation was closed. -/
def closings (progress : Progress M R) : Nat :=
  progress.journal.countP fun entry => entry matches .close

end Progress

/-- A run that is over. -/
structure Run (M R : Type) where
  progress : Progress M R
  result : Except Fault RunResult

namespace Engine

variable {M R : Type}

/-- Runs the master callback on the totals of the superstep that just finished, and answers
whether the run has converged: the callback says so, or the superstep was quiet. -/
def consult (engine : Engine M R) (superstep : Nat) (quiet : Bool) :
    Progress M R → Outcome (Progress M R) Bool
  | ⟨state, stats, journal⟩ =>
    let p := (engine.computation.master superstep engine.graph.nodes).perform masterHandler state
    let journal := journal.push (.master superstep p.calls p.result)
    match p.result with
    | .ok (stop, _) => .ok (stop || quiet) ⟨p.state, stats, journal⟩
    | .error f => .error f ⟨p.state, stats, journal⟩

/-- Executes one superstep up to its barrier, and answers whether the run has converged. -/
def superstep (engine : Engine M R) (schedule : Schedule) :
    Progress M R → Outcome (Progress M R) Bool
  | ⟨state, stats, journal⟩ =>
    let state := { state with mail := state.mail.turn }
    match engine.strategy.tasks engine.graph.nodes with
    | .error f => .error f ⟨state, stats, journal⟩
    | .ok partitions =>
      let number := stats.size
      let start := Round.start state partitions.length journal
      let round := (schedule.moves number partitions).foldl (Round.move engine number) start
      match round.faults with
      | f :: _ => .error f ⟨round.state, stats, round.journal⟩
      | [] =>
        let quiet := round.isQuiet
        let state := { round.state with aggregates := round.state.aggregates.publish }
        let stats := stats.push ⟨number, round.computed, round.sent⟩
        engine.consult number quiet ⟨state, stats, round.journal⟩

/-- Whether the run is asked to stop before its next superstep. -/
def isCancelled (engine : Engine M R) (schedule : Schedule) (progress : Progress M R) : Bool :=
  progress.state.signals.isRaised engine.watched || schedule.interrupts progress.stats.size

/-- Executes supersteps, at most `remaining` more of them. Convergence is looked at before the
cap, and the cap before a cancellation. -/
def advance (engine : Engine M R) (schedule : Schedule) :
    (remaining : Nat) → Progress M R → Outcome (Progress M R) Status
  | 0, progress => .ok .maxSupersteps progress
  | remaining + 1, progress =>
    if engine.isCancelled schedule progress then .ok .cancelled progress
    else
      match engine.superstep schedule progress with
      | .error f progress => .error f progress
      | .ok true progress => .ok .converged progress
      | .ok false progress => engine.advance schedule remaining progress

/-- The end of a run: the computation is closed, and on success the message buffers are
released. -/
def finish (outcome : Outcome (Progress M R) Status) : Run M R :=
  match outcome with
  | .error f progress => ⟨progress.close, .error f⟩
  | .ok status progress =>
    ⟨progress.close.release, .ok ⟨progress.state.values, progress.stats.size, status,
      progress.state.aggregates.values, progress.stats⟩⟩

/-- Runs under a given schedule. -/
def runWith (engine : Engine M R) (schedule : Schedule) : Run M R :=
  finish (engine.advance schedule engine.config.maxSupersteps ⟨engine.state, #[], #[]⟩)

/-- Runs supersteps until the computation converges, the cap is reached or the run is
cancelled. -/
def run (engine : Engine M R) : Run M R :=
  engine.runWith .sequential

/-- Gives up an engine instead of running it. It is left with the callbacks it has made. -/
def release (engine : Engine M R) : Progress M R :=
  Progress.release ⟨engine.state, #[], #[]⟩

end Engine

namespace RunResult

def didConverge (result : RunResult) : Bool :=
  result.status == .converged

def wasCancelled (result : RunResult) : Bool :=
  result.status == .cancelled

end RunResult

def Run.closings {M R : Type} (run : Run M R) : Nat :=
  run.progress.closings

end BulkSync
