import BulkSync.Combiner
import BulkSync.Text.Quoted

namespace BulkSync

/-- A named global value that nodes contribute to during a superstep. -/
structure Aggregator where
  key : String
  combine : Combiner Float

def Aggregator.describe (aggregator : Aggregator) : String :=
  "Aggregator \x7b key: " ++ quoted aggregator.key ++ " \x7d"

/-- One total for each aggregator, in the order of declaration; none until a contribution. -/
abbrev Totals := List (Option Float)

namespace Totals

def blank (declared : List Aggregator) : Totals :=
  declared.map fun _ => none

/-- Folds a contribution into the total of its key. -/
def contribute (key : String) (x : Float) : List Aggregator → Totals → Except Fault Totals
  | a :: rest, total :: totals =>
    if a.key = key then do
      let y ← a.combine.absorb total x
      return some y :: totals
    else do
      let totals ← contribute key x rest totals
      return total :: totals
  | _, _ => .error (.unknownAggregator key)

/-- Folds the totals of one task into the totals of the superstep. -/
def merge : List Aggregator → (totals task : Totals) → Except Fault Totals
  | a :: rest, total :: totals, some x :: task => do
    let y ← a.combine.absorb total x
    let totals ← merge rest totals task
    return some y :: totals
  | _ :: rest, total :: totals, none :: task => do
    let totals ← merge rest totals task
    return total :: totals
  | _, totals, _ => .ok totals

/-- The total of a key. -/
def value? (key : String) : List Aggregator → Totals → Option Float
  | a :: rest, total :: totals => if a.key = key then total else value? key rest totals
  | _, _ => none

/-- The totals that have a value, by key. -/
def values : List Aggregator → Totals → List (String × Float)
  | a :: rest, some x :: totals => (a.key, x) :: values rest totals
  | _ :: rest, none :: totals => values rest totals
  | _, _ => []

end Totals

/-- The aggregators of a run: what the superstep in progress has gathered, and what the one
before it made known. -/
structure Aggregates where
  declared : List Aggregator
  gathered : Totals
  published : Totals

/-- The first key that was declared before. -/
def repeatedKey? (seen : List String) : List String → Option String
  | [] => none
  | key :: rest => if key ∈ seen then some key else repeatedKey? (key :: seen) rest

namespace Aggregates

def create (declared : List Aggregator) : Except Fault Aggregates :=
  match repeatedKey? [] (declared.map Aggregator.key) with
  | some key => .error (.duplicateAggregator key)
  | none => .ok ⟨declared, Totals.blank declared, Totals.blank declared⟩

def merge (task : Totals) (aggregates : Aggregates) : Except Fault Aggregates := do
  let gathered ← Totals.merge aggregates.declared aggregates.gathered task
  return { aggregates with gathered }

/-- Makes known what was gathered and starts afresh. -/
def publish (aggregates : Aggregates) : Aggregates :=
  { aggregates with
    published := aggregates.gathered
    gathered := Totals.blank aggregates.declared }

def value? (key : String) (aggregates : Aggregates) : Option Float :=
  Totals.value? key aggregates.declared aggregates.published

def values (aggregates : Aggregates) : List (String × Float) :=
  Totals.values aggregates.declared aggregates.published

end Aggregates

end BulkSync
