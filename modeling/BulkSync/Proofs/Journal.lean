import Mathlib.Algebra.BigOperators.Group.List.Basic
import Mathlib.Algebra.GroupWithZero.Nat
import BulkSync.Round

namespace BulkSync

variable {M R : Type}

section Calls

/-- The messages that a call sent to a node. -/
def Call.sentTo (node : Nat) : Call (nodeSignature M) → List M
  | ⟨.send target m, _⟩ => if target = node then [m] else []
  | ⟨.sendNeighbors m, targets⟩ => List.replicate (targets.count node) m
  | _ => []

/-- The number of messages that a call sent. -/
def Call.sends : Call (nodeSignature M) → Nat
  | ⟨.send _ _, _⟩ => 1
  | ⟨.sendNeighbors _, targets⟩ => targets.length
  | _ => 0

def Call.isVote : Call (nodeSignature M) → Bool
  | ⟨.vote, _⟩ => true
  | _ => false

/-- What a call contributed under a key. -/
def Call.gave (key : String) : Call (nodeSignature M) → List Float
  | ⟨.aggregate k x, _⟩ => if k = key then [x] else []
  | _ => []

def Call.ownRaised : Call ownSignature → List Signal
  | ⟨.raise signal, _⟩ => [signal]
  | _ => []

/-- The signals that a call raised. -/
def Call.raised : Call (nodeSignature M) → List Signal
  | ⟨.own op, answer⟩ => Call.ownRaised ⟨op, answer⟩
  | _ => []

end Calls

namespace Entry

/-- The messages that a callback sent to a node. -/
def sentTo (node : Nat) : Entry M R → List M
  | .compute _ _ _ _ calls _ => calls.flatMap (Call.sentTo node)
  | _ => []

def sends : Entry M R → Nat
  | .compute _ _ _ _ calls _ => (calls.map Call.sends).sum
  | _ => 0

/-- What a callback contributed under a key. -/
def gave (key : String) : Entry M R → List Float
  | .compute _ _ _ _ calls _ => calls.flatMap (Call.gave key)
  | _ => []

/-- The signals that a node raised in a callback. -/
def raised : Entry M R → List Signal
  | .init _ calls _ => calls.flatMap Call.ownRaised
  | .compute _ _ _ _ calls _ => calls.flatMap Call.raised
  | _ => []

/-- Whether a node voted to halt in a callback. -/
def voted : Entry M R → Bool
  | .compute _ _ _ _ calls _ => calls.any Call.isVote
  | _ => false

/-- The node whose callback it was. -/
def node? : Entry M R → Option Nat
  | .init node _ _ => some node
  | .compute _ _ node _ _ _ => some node
  | _ => none

/-- The task that let a node compute. -/
def task? : Entry M R → Option Nat
  | .compute _ task _ _ _ _ => some task
  | _ => none

/-- The superstep in which a node computed. -/
def superstep? : Entry M R → Option Nat
  | .compute superstep _ _ _ _ _ => some superstep
  | _ => none

def isInit (node : Nat) : Entry M R → Bool
  | .init v _ _ => v == node
  | _ => false

/-- Whether a node computed in a superstep. -/
def isCompute (superstep node : Nat) (entry : Entry M R) : Bool :=
  entry.superstep? == some superstep && entry.node? == some node

end Entry

/-- The messages sent to a node in a superstep, in the order in which they were sent. -/
def messagesSent (superstep node : Nat) (journal : List (Entry M R)) : List M :=
  (journal.filter fun entry => entry.superstep? == some superstep).flatMap (Entry.sentTo node)

/-- The number of messages sent in a superstep. -/
def sendCount (superstep : Nat) (journal : List (Entry M R)) : Nat :=
  ((journal.filter fun entry => entry.superstep? == some superstep).map Entry.sends).sum

/-- How often a node computed in a superstep. -/
def computeCount (superstep node : Nat) (journal : List (Entry M R)) : Nat :=
  journal.countP (Entry.isCompute superstep node)

/-- Whether a node voted to halt when it computed last, before a superstep. -/
def votedBefore (superstep node : Nat) (journal : List (Entry M R)) : Bool :=
  match (journal.filter fun entry =>
    entry.node? == some node && entry.superstep?.any (· < superstep)).getLast? with
  | some entry => entry.voted
  | none => false

theorem messagesSent_append (superstep node : Nat) (old new : List (Entry M R)) :
    messagesSent superstep node (old ++ new) =
      messagesSent superstep node old ++ messagesSent superstep node new := by
  simp [messagesSent]

theorem sendCount_append (superstep : Nat) (old new : List (Entry M R)) :
    sendCount superstep (old ++ new) = sendCount superstep old + sendCount superstep new := by
  simp [sendCount]

theorem computeCount_append (superstep node : Nat) (old new : List (Entry M R)) :
    computeCount superstep node (old ++ new) =
      computeCount superstep node old + computeCount superstep node new := by
  simp [computeCount]

end BulkSync
