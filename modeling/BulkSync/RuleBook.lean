import BulkSync.Message
import BulkSync.Rule
import BulkSync.Run

namespace BulkSync

/-- The report of a callback: how many messages there were, those that were read, and what the
actions learned. -/
structure Account (M : Type) where
  length : Nat
  read : List M
  readings : List Reading

/-- What the terms of a callback can refer to. -/
structure Sight (M : Type) where
  place : Place
  length : Nat
  read : List M

/-- Runs actions in order and gathers what they learned, after what was learned before. -/
def runActions {s : Signature} {A : Type} (run : A → Program s (List Reading))
    (learned : Array Reading) : List A → Program s (List Reading)
  | [] => .done learned.toList
  | a :: rest => do
    let readings ← run a
    runActions run (learned ++ readings) rest

section Terms

variable {M : Type} [Message M]

def Quantity.eval (sight : Sight M) : Quantity → OwnProgram Nat
  | .id => .done sight.place.node
  | .degree => OwnProgram.degree
  | .step => .done sight.place.superstep
  | .count => .done sight.length
  | .nodes => .done sight.place.nodes

def Fold.combiner : Fold → Combiner M
  | .sum => Message.sum
  | .min => Message.minimum
  | .max => Message.maximum
  | .first => Combiner.first
  | .last => Combiner.last

/-- The fold of the messages read; without messages it is zero. -/
def Fold.eval (fold : Fold) (messages : List M) : Except Fault M := do
  let folded ← fold.combiner.fold messages
  return folded.getD (Message.ofCount 0)

/-- The value of a term; `ofCount` is how a count reads as one. -/
def Term.eval {C : Type} (ofCount : Nat → C) (sight : Sight M) : Term M C → OwnProgram C
  | .constant c => .done c
  | .quantity q => do
    let n ← q.eval sight
    return ofCount n
  | .folded fold use => do
    let m ← Program.ofExcept (fold.eval sight.read)
    return use m

def OwnAction.run (sight : Sight M) : OwnAction M → OwnProgram (List Reading)
  | .get s key => do
    let x ← OwnProgram.read s key
    return [.cell s x]
  | .getArray s key => do
    let xs ← OwnProgram.readArray s key
    return [.cells s xs]
  | .set s key term => do
    let x ← term.eval s.ofCount sight
    OwnProgram.write s key x
    return []
  | .setArray s key xs => do
    OwnProgram.writeArray s key xs
    return []
  | .add s key term => do
    let x ← OwnProgram.read s key
    let y ← term.eval s.ofCount sight
    let sum ← Program.ofExcept (s.add x y)
    OwnProgram.write s key sum
    return []
  | .raise text => .fail (.raised text)

def InitAction.run (sight : Sight M) : InitAction M → OwnProgram (List Reading)
  | .own action => action.run sight
  | .info => do
    let degree ← OwnProgram.degree
    return [.atInit sight.place.node sight.place.nodes degree]

/-- The node a destination stands for. -/
def Destination.resolve (place : Place) : Destination → Except Fault Nat
  | .node id => .ok id
  | .ahead places => do
    let far ← addCounts place.node places
    return far % place.nodes

def ComputeAction.run (own : Signal) (sight : Sight M) :
    ComputeAction M → NodeProgram M (List Reading)
  | .own action => (action.run sight).toNode
  | .send destination term => do
    let message ← (term.eval Message.ofCount sight).toNode
    let target ← Program.ofExcept (destination.resolve sight.place)
    NodeProgram.send target message
    return []
  | .sendNeighbors term => do
    let message ← (term.eval Message.ofCount sight).toNode
    NodeProgram.sendNeighbors message
    return []
  | .vote => do
    NodeProgram.vote
    return []
  | .aggregate key term => do
    let x ← (term.eval Message.ofCount sight).toNode
    NodeProgram.aggregate key x
    return []
  | .aggregated key => do
    let total ← NodeProgram.aggregated key
    return [.total total]
  | .valueOf s key node => do
    let x ← NodeProgram.readOf s key node
    return [.cell s x]
  | .neighbors => do
    let targets ← NodeProgram.neighbors
    return [.nodes targets]
  | .info => do
    let degree ← NodeProgram.degree
    return [.atCompute sight.place degree]
  | .cancel => do
    (OwnProgram.raise own).toNode
    return []

end Terms

/-- What a master action learned, and whether it ends the run. -/
def MasterAction.run (own : Signal) (superstep nodes : Nat) :
    MasterAction → MasterProgram (Bool × List Reading)
  | .stop => .done (true, [])
  | .stopIfBelow key bound => do
    let total ← MasterProgram.aggregated key
    return (total.any (· < bound), [])
  | .aggregated key => do
    let total ← MasterProgram.aggregated key
    return (false, [.total total])
  | .get key node => do
    let value ← MasterProgram.get key node
    return (false, [.value value])
  | .set key node value => do
    MasterProgram.set key node value
    return (false, [])
  | .info => .done (false, [.atMaster superstep nodes])
  | .cancel => do
    MasterProgram.raise own
    return (false, [])
  | .raise text => .fail (.raised text)

/-- Runs master actions in order, after others that learned something and maybe ended the run.
Any action can end the run, and none after it is left out. -/
def runMaster (run : MasterAction → MasterProgram (Bool × List Reading)) (stopped : Bool)
    (learned : Array Reading) : List MasterAction → MasterProgram (Bool × List Reading)
  | [] => .done (stopped, learned.toList)
  | a :: rest => do
    let (stop, readings) ← run a
    runMaster run (stopped || stop) (learned ++ readings) rest

namespace RuleBook

variable {M : Type} [Message M]

/-- Reads the messages a rule book wants to see. -/
def readMessages (book : RuleBook M) (messages : Messages M) : List M :=
  let limit := book.limit.getD messages.length
  let read := (messages.read limit).1
  if book.sorted then Message.sort read else read

/-- The computation of a rule book. Its rules can raise the signal `own`. -/
def computation (book : RuleBook M) (own : Signal) : Computation M (Account M) where
  fields := book.fields
  aggregators := book.aggregators
  init node nodes := do
    let sight : Sight M := ⟨⟨node, 0, nodes⟩, 0, []⟩
    let readings ← runActions (InitAction.run sight) #[] (applicable book.init 0 node false)
    return ⟨0, [], readings⟩
  compute place messages := do
    let sight : Sight M := ⟨place, messages.length, book.readMessages messages⟩
    let actions := applicable book.compute place.superstep place.node !messages.isEmpty
    let readings ← runActions (ComputeAction.run own sight) #[] actions
    return ⟨sight.length, sight.read, readings⟩
  master superstep nodes := do
    let actions := applicable book.master superstep 0 false
    let (stop, readings) ← runMaster (MasterAction.run own superstep nodes) false #[] actions
    return (stop, ⟨0, [], readings⟩)

end RuleBook

/-- What can be done to an engine between building and running it. -/
inductive Preparation where
  | cancelEngine
  | cancelOwn
  | watchOwn
deriving DecidableEq, Repr

/-- Applies a preparation; `first` is the signal the engine was built with. -/
def Preparation.apply {M R : Type} (first own : Signal) (engine : Engine M R) :
    Preparation → Engine M R
  | .cancelEngine => engine.raise first
  | .cancelOwn => engine.raise own
  | .watchOwn => engine.watch own

/-- Builds the engine of a rule book and prepares it. -/
def RuleBook.engine {M : Type} [Message M] (book : RuleBook M) (memory : Memory) (graph : Graph)
    (config : Config) (delivery : Delivery M) (preparations : List Preparation) :
    Except Failure (Engine M (Account M)) := do
  let (own, signals) := Signals.none.create
  let engine ← Engine.create memory signals graph config (book.computation own) delivery
  return preparations.foldl (Preparation.apply engine.watched own) engine

end BulkSync
