import BulkSync.Failure

namespace BulkSync

/-- The set of nodes that voted to halt, one bit per node in 64-bit words. -/
structure HaltSet where
  nodes : Nat
  words : Array UInt64

/-- The number of bits set in a word. -/
def bitCount (word : UInt64) : Nat :=
  (List.range 64).countP fun i => word.toNat.testBit i

/-- The word with only the bit of a node set. -/
def nodeBit (node : Nat) : UInt64 :=
  1 <<< UInt64.ofNat (node % 64)

namespace HaltSet

/-- No node is halted at first. -/
def create (memory : Memory) (nodes : Nat) : Except Failure HaltSet := do
  let count := (nodes + 63) / 64
  memory.reserve .haltBits nodes count 8
  return ⟨nodes, Array.replicate count 0⟩

/-- Changes the word a node lies in. -/
def update (f : UInt64 → UInt64) (node : Nat) (set : HaltSet) : Outcome HaltSet Unit :=
  if node < set.nodes then
    if node / 64 < set.words.size then
      .ok () { set with words := set.words.modify (node / 64) f }
    else .error .outOfBounds set
  else .error (.nodeRange node set.nodes) set

def halt (node : Nat) (set : HaltSet) : Outcome HaltSet Unit :=
  set.update (· ||| nodeBit node) node

def wake (node : Nat) (set : HaltSet) : Outcome HaltSet Unit :=
  set.update (· &&& ~~~ nodeBit node) node

def isHalted (node : Nat) (set : HaltSet) : Except Fault Bool :=
  if node < set.nodes then
    match set.words[node / 64]? with
    | some word => .ok (word &&& nodeBit node != 0)
    | none => .error .outOfBounds
  else .error (.nodeRange node set.nodes)

/-- The word in which the first `count` nodes are halted. -/
def fullWord (count : Nat) : UInt64 :=
  UInt64.ofNat (Nat.pow 2 count - 1)

/-- Every full word is full, and so is the part of the last one that is in use. -/
def allHalted (set : HaltSet) : Bool :=
  let whole := set.nodes / 64
  let rest := set.nodes % 64
  (set.words.extract 0 whole).all (· == fullWord 64) &&
    (rest == 0 || set.words[whole]? == some (fullWord rest))

def count (set : HaltSet) : Nat :=
  set.words.foldl (fun total word => total + bitCount word) 0

def wakeAll (set : HaltSet) : HaltSet :=
  { set with words := set.words.map fun _ => 0 }

end HaltSet

end BulkSync
