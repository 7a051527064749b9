import BulkSync.Computation

namespace BulkSync

/-- The smaller of two labels. -/
def lesserLabel (a b : Int64) : Int64 :=
  if b < a then b else a

/-- Labels every node with the smallest id it hears of. A node that learns a smaller label tells
its neighbors; all halt until they hear more. -/
def components : Computation Int64 Unit where
  fields := [⟨"component", .single .long⟩]
  aggregators := []
  init node _ := OwnProgram.write .long "component" (Int64.ofNat node)
  compute place messages := do
    let current ← NodeProgram.read .long "component"
    let smallest : Int64 := messages.waiting.foldl lesserLabel current
    if smallest < current then NodeProgram.write .long "component" smallest
    if smallest < current || place.superstep == 0 then NodeProgram.sendNeighbors smallest
    NodeProgram.vote
  master _ _ := .done (false, ())

/-- A label and the number of nodes that carry it. -/
structure ComponentSize where
  label : Int64
  size : Nat
deriving DecidableEq, Repr

/-- Puts one more label in front of counted runs of equal labels. -/
def extendRuns (label : Int64) : List ComponentSize → List ComponentSize
  | [] => [⟨label, 1⟩]
  | run :: rest =>
    if run.label = label then ⟨label, run.size + 1⟩ :: rest else ⟨label, 1⟩ :: run :: rest

/-- The labels that occur, each with the number of its occurrences, in ascending order. -/
def labelCounts (labels : List Int64) : List ComponentSize :=
  (labels.mergeSort fun a b => decide (a ≤ b)).foldr extendRuns []

/-- Larger components first, and of equally large ones the smaller label. -/
def ComponentSize.precedes (a b : ComponentSize) : Bool :=
  b.size < a.size || (b.size == a.size && decide (a.label ≤ b.label))

/-- The sizes of all components, largest first. -/
def componentSizes (labels : List Int64) : List ComponentSize :=
  (labelCounts labels).mergeSort ComponentSize.precedes

end BulkSync
