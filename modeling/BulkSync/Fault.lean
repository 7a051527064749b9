import BulkSync.ValueType

namespace BulkSync

/-- The ways an operation can break its contract. A fault ends the callback it happens in. -/
inductive Fault where
  | overflow
  | divisionByZero
  | outOfBounds
  | capacity
  | nodeRange (node nodes : Nat)
  | unknownKey (key : String)
  | typeMismatch (key : String) (declared : ValueType)
  | arrayLength (key : String) (given width : Nat)
  | duplicateKey (key : String)
  | targetRange (target nodes : Nat)
  | edgeRange (source target nodes : Nat)
  | uncovered (covered nodes : Nat)
  | duplicateAggregator (key : String)
  | unknownAggregator (key : String)
  | raised (text : String)
deriving DecidableEq, Repr

/-- The report of two numbers that had to be equal. -/
def unequalText (subject : String) (left right : Nat) : String :=
  s!"assertion `left == right` failed: {subject}\n  left: {left}\n right: {right}"

/-- The text of a fault; an overflow and an index out of bounds have none. -/
def Fault.message? : Fault → Option String
  | .overflow => none
  | .divisionByZero => some "attempt to divide by zero"
  | .outOfBounds => none
  | .capacity => some "capacity overflow"
  | .nodeRange node nodes => some s!"node id {node} out of range for {nodes} nodes"
  | .unknownKey key => some s!"unknown node value key `{key}`"
  | .typeMismatch key declared =>
    let type := declared.describe
    some s!"node value `{key}` has type {type}"
  | .arrayLength key given width =>
    some (unequalText s!"array length mismatch for `{key}`" given width)
  | .duplicateKey key => some s!"duplicate node value key `{key}`"
  | .targetRange target nodes => some s!"message target {target} out of range for {nodes} nodes"
  | .edgeRange source target nodes =>
    some s!"edge ({source}, {target}) out of range for {nodes} nodes"
  | .uncovered covered nodes =>
    some (unequalText "partitions do not cover the graph" covered nodes)
  | .duplicateAggregator key => some s!"duplicate aggregator `{key}`"
  | .unknownAggregator key => some s!"unknown aggregator `{key}`"
  | .raised text => some text

theorem bind_eq_ok_iff {ε α β : Type} {x : Except ε α} {f : α → Except ε β} {b : β} :
    x >>= f = .ok b ↔ ∃ a, x = .ok a ∧ f a = .ok b := by
  constructor
  · intro h
    cases x with
    | error e => cases h
    | ok a => exact ⟨a, rfl, h⟩
  · rintro ⟨a, rfl, h⟩
    exact h

/-- Node ids, lengths and counters are below this number. -/
def countLimit : Nat := UInt64.size

/-- The sum of two counts, if it still fits. -/
def addCounts (a b : Nat) : Except Fault Nat :=
  if a + b < countLimit then .ok (a + b) else .error .overflow

/-- The product of two counts, if it still fits. -/
def mulCounts (a b : Nat) : Except Fault Nat :=
  if a * b < countLimit then .ok (a * b) else .error .overflow

theorem addCounts_eq_ok_iff {a b c : Nat} :
    addCounts a b = .ok c ↔ c = a + b ∧ a + b < countLimit := by
  unfold addCounts
  split <;> simp_all [eq_comm]

theorem mulCounts_eq_ok_iff {a b c : Nat} :
    mulCounts a b = .ok c ↔ c = a * b ∧ a * b < countLimit := by
  unfold mulCounts
  split <;> simp_all [eq_comm]

/-- The quotient and the rest of two counts, if there is something to divide by. -/
def divideCounts (a b : Nat) : Except Fault (Nat × Nat) :=
  if b = 0 then .error .divisionByZero else .ok (a / b, a % b)

theorem divideCounts_of_pos {a b : Nat} (h : 0 < b) : divideCounts a b = .ok (a / b, a % b) :=
  if_neg (Nat.ne_of_gt h)

/-- The bytes a count takes. -/
def countSize : Nat := 8

/-- Every object in memory has fewer bytes than this. -/
def objectLimit : Nat := Nat.pow 2 63

/-- Asks for a list with room for `slots` slots of `size` bytes each. Whether there is memory for
it is not looked at, only whether such an object can exist at all. -/
def makeRoom (slots size : Nat) : Except Fault Unit :=
  if slots * size < objectLimit then .ok () else .error .capacity

theorem makeRoom_eq_ok_iff {slots size : Nat} :
    makeRoom slots size = .ok () ↔ slots * size < objectLimit := by
  unfold makeRoom
  split <;> simp_all

theorem makeRoom_eq_error_iff {slots size : Nat} {f : Fault} :
    makeRoom slots size = .error f ↔ f = .capacity ∧ objectLimit ≤ slots * size := by
  unfold makeRoom
  split
  next h => simp [Nat.not_le.mpr h]
  next h => simp [Nat.le_of_not_lt h, eq_comm]

/-- What a step on a state came to: a value, or the fault that stopped it, with the state left. -/
abbrev Outcome (σ α : Type) := EStateM.Result Fault σ α

end BulkSync
