import BulkSync.CommandLine
import BulkSync.EdgeList
import BulkSync.Host
import BulkSync.Run

namespace BulkSync

/-- Reads the value of an option, if it is given, and falls back to a standard value. -/
def optionOr? {α : Type} (arguments : Arguments) (name : String) (read : String → Option α)
    (standard : α) : Option α :=
  match arguments.value? name with
  | none => some standard
  | some text => read text

def readCountText? (text : String) : Option Nat :=
  readCount? text.toList

/-- A path is any text that is not empty. -/
def readPath? (text : String) : Option String :=
  if text.isEmpty then none else some text

/-- The one positional argument of a tool: the path of its edge list. -/
def edgesPath? (arguments : Arguments) : Option String :=
  match arguments.positional with
  | [path] => readPath? path
  | _ => none

/-- Builds an engine and runs it to its end. -/
def runToEnd {M R : Type} (graph : Graph) (config : Config) (computation : Computation M R)
    (delivery : Delivery M) : Except Failure RunResult := do
  let engine ← Engine.create .addressable .none graph config computation delivery
  orFailure engine.run.result

/-- The text of a file with two columns. -/
def rowsText (rows : List (String × String)) : String :=
  String.join (rows.map fun (a, b) => a ++ "\t" ++ b ++ "\n")

end BulkSync
