import BulkSync.Failure
import BulkSync.Graph
import BulkSync.Text.Blank
import BulkSync.Text.Count
import BulkSync.Text.Line

namespace BulkSync

/-- How one line is read as an edge. -/
abbrev EdgeParser := String → Option (Nat × Nat)

/-- Splits a text at every occurrence of a character. -/
def splitAtChar (sep : Char) : List Char → List (List Char)
  | [] => [[]]
  | c :: cs =>
    if c = sep then [] :: splitAtChar sep cs
    else
      match splitAtChar sep cs with
      | part :: parts => (c :: part) :: parts
      | [] => [[c]]

/-- Reads a source and a target with exactly one tab between them; white space around either
does not count. -/
def tabSeparatedEdge : EdgeParser := fun line =>
  match splitAtChar '\t' line.toList with
  | [source, target] => do
    let s ← readCount? (trimBlank source)
    let t ← readCount? (trimBlank target)
    return (s, t)
  | _ => none

/-- Reads a source and a target with a comma between them, and no white space anywhere. -/
def commaSeparatedEdge : EdgeParser := fun line =>
  let source := line.toList.takeWhile (· ≠ ',')
  match line.toList.dropWhile (· ≠ ',') with
  | _ :: target => do
    let s ← readCount? source
    let t ← readCount? target
    return (s, t)
  | [] => none

/-- The number of nodes an edge needs; ids that are too large to be counted have none. -/
def requiredNodes? (edge : Nat × Nat) : Option Nat :=
  let required := max edge.1 edge.2 + 1
  if required < countLimit then some required else none

/-- Blank lines and lines that start with a number sign hold no edge. -/
def isPassedOver (line : String) : Bool :=
  let cs := line.toList
  cs.all isBlank || cs.head? == some '#'

/-- What to do with a line that holds no edge but should. -/
inductive Strictness where
  | lenient
  | strict
deriving DecidableEq, Repr

/-- The edges read so far, and how many nodes they need. -/
structure EdgeList where
  edges : Array (Nat × Nat)
  nodes : Nat

namespace EdgeList

def empty : EdgeList := ⟨#[], 0⟩

/-- Appends an edge that needs `required` nodes. -/
def push (list : EdgeList) (edge : Nat × Nat) (required : Nat) : EdgeList :=
  ⟨list.edges.push edge, max list.nodes required⟩

/-- Reads one line; `number` counts all lines from one. -/
def readLine (strictness : Strictness) (parse : EdgeParser) (number : Nat) (bytes : List UInt8)
    (list : EdgeList) : Except Failure EdgeList :=
  match decodeLine? bytes with
  | none => .error (.unreadable .invalidText)
  | some line =>
    if isPassedOver line then .ok list
    else
      match parse line with
      | some edge =>
        match requiredNodes? edge with
        | some required => .ok (list.push edge required)
        | none => reject strictness number line list
      | none => reject strictness number line list
where
  /-- A line without an edge is passed over, or fails the whole list. -/
  reject (strictness : Strictness) (number : Nat) (line : String) (list : EdgeList) :
      Except Failure EdgeList :=
    match strictness with
    | .lenient => .ok list
    | .strict => .error (.malformedEdge number line)

def readLines (strictness : Strictness) (parse : EdgeParser) (number : Nat) :
    List (List UInt8) → EdgeList → Except Failure EdgeList
  | [], list => .ok list
  | line :: rest, list =>
    match readLine strictness parse number line list with
    | .error e => .error e
    | .ok list => readLines strictness parse (number + 1) rest list

/-- The graph of an edge list. -/
def toAdjacency (list : EdgeList) : Except Failure Adjacency :=
  orFailure (Adjacency.ofEdges list.nodes list.edges.toList)

end EdgeList

/-- Loads a graph from the content of a file, one edge on each line. -/
def Adjacency.load (strictness : Strictness) (parse : EdgeParser)
    (content : Except ReadProblem (List UInt8)) : Except Failure Adjacency := do
  match content with
  | .error problem => throw (.unreadable problem)
  | .ok bytes =>
    let list ← EdgeList.readLines strictness parse 1 (byteLines bytes) .empty
    list.toAdjacency

end BulkSync
