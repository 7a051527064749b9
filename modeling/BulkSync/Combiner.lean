import BulkSync.Fault

namespace BulkSync

/-- Folds two messages for one receiver, or two contributions to one aggregate, into one. -/
abbrev Combiner (M : Type) := M → M → Except Fault M

/-- Adds two longs, if the sum still is one. -/
def addLongs (a b : Int64) : Except Fault Int64 :=
  let sum := a.toInt + b.toInt
  if Int64.minValue.toInt ≤ sum ∧ sum ≤ Int64.maxValue.toInt then .ok (a + b)
  else .error .overflow

/-- Adds the numbers in two cells of a kind. -/
def Scalar.add : (s : Scalar) → s.Cell → s.Cell → Except Fault s.Cell
  | .long, a, b => addLongs a b
  | .double, a, b => .ok (Double.ofFloat (Double.toFloat a + Double.toFloat b))

namespace Combiner

variable {M : Type}

/-- Keeps the left message unless the right one is smaller. -/
def min [LT M] [DecidableLT M] : Combiner M :=
  fun a b => .ok (if b < a then b else a)

/-- Keeps the left message unless the right one is greater. -/
def max [LT M] [DecidableLT M] : Combiner M :=
  fun a b => .ok (if a < b then b else a)

def first : Combiner M :=
  fun a _ => .ok a

def last : Combiner M :=
  fun _ b => .ok b

def failing : Combiner M :=
  fun _ _ => .error (.raised "combiner failed")

/-- Combines a list from the left, the first message starting it. -/
def fold (combine : Combiner M) : List M → Except Fault (Option M)
  | [] => .ok none
  | m :: ms => do
    let r ← ms.foldlM combine m
    return some r

/-- Combines a pending value, if there is one, with the next message. -/
def absorb (combine : Combiner M) (pending : Option M) (message : M) : Except Fault M :=
  match pending with
  | none => .ok message
  | some p => combine p message

end Combiner

end BulkSync
