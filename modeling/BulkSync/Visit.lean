import BulkSync.Desk

namespace BulkSync

/-- What happened in a run, callback by callback. -/
inductive Entry (M R : Type) where
  | init (node : Nat) (calls : List (Call ownSignature)) (result : Except Fault R)
  | compute (superstep task node : Nat) (messages : Messages M)
      (calls : List (Call (nodeSignature M))) (result : Except Fault R)
  | master (superstep : Nat) (calls : List (Call masterSignature))
      (result : Except Fault (Bool × R))
  | close

/-- A task at work: its desk, and the journal of the run so far. -/
structure Work (M R : Type) where
  desk : Desk M
  journal : Array (Entry M R)

section Visits

variable {M R : Type}

/-- Lets a node initialize itself. -/
def Work.init (engine : Engine M R) (node : Nat) (work : Work M R) :
    Outcome (Work M R) Unit :=
  let p := (engine.computation.init node engine.graph.nodes).perform
    (ownHandler engine.graph node) work.desk.state
  let journal := work.journal.push (.init node p.calls p.result)
  let work := ⟨{ work.desk with state := p.state }, journal⟩
  match p.result with
  | .ok _ => .ok () work
  | .error f => .error f work

/-- Lets a node compute. -/
def Work.compute (engine : Engine M R) (superstep task node : Nat) (messages : Messages M)
    (work : Work M R) : Outcome (Work M R) Unit :=
  let place := ⟨node, superstep, engine.graph.nodes⟩
  let p := (engine.computation.compute place messages).perform
    (nodeHandler engine.graph node) work.desk
  let journal := work.journal.push (.compute superstep task node messages p.calls p.result)
  match p.result with
  | .ok _ =>
    let tally := { p.state.tally with computed := p.state.tally.computed + 1 }
    .ok () ⟨{ p.state with tally }, journal⟩
  | .error f => .error f ⟨p.state, journal⟩

/-- Takes the messages of a node. -/
def Work.take (node : Nat) (work : Work M R) : Outcome (Work M R) (Messages M) :=
  match work.desk.state.mail.take node with
  | .ok messages mail =>
    .ok messages { work with desk := { work.desk with state := { work.desk.state with mail } } }
  | .error f mail =>
    .error f { work with desk := { work.desk with state := { work.desk.state with mail } } }

/-- A halted node without messages sleeps on, except in superstep 0. -/
def Work.sleeps (superstep node : Nat) (messages : Messages M) (work : Work M R) :
    Except Fault Bool :=
  if superstep = 0 then .ok false
  else do
    let halted ← work.desk.state.halted.isHalted node
    return halted && messages.isEmpty

def Work.wake (node : Nat) (work : Work M R) : Outcome (Work M R) Unit :=
  match work.desk.state.halted.wake node with
  | .ok () halted =>
    .ok () { work with desk := { work.desk with state := { work.desk.state with halted } } }
  | .error f halted =>
    .error f { work with desk := { work.desk with state := { work.desk.state with halted } } }

/-- Runs the callbacks of one node in one superstep: its messages are taken first, so that a
halted node is woken by them. -/
def Work.visit (engine : Engine M R) (superstep task node : Nat) :
    EStateM Fault (Work M R) Unit := do
  let messages ← Work.take node
  let sleeping ← fun work => unchanged (work.sleeps superstep node messages) work
  if sleeping then return ()
  Work.wake node
  if superstep = 0 then Work.init engine node
  Work.compute engine superstep task node messages

end Visits

end BulkSync
