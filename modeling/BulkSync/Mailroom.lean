import BulkSync.Combiner
import BulkSync.Failure

namespace BulkSync

/-- The messages one node receives in a superstep, still to be read. -/
structure Messages (M : Type) where
  waiting : List M
deriving Repr

namespace Messages

variable {M : Type}

def none : Messages M := ⟨[]⟩

def isEmpty (messages : Messages M) : Bool :=
  messages.waiting.isEmpty

def length (messages : Messages M) : Nat :=
  messages.waiting.length

/-- The next message and the ones after it. -/
def next? (messages : Messages M) : Option (M × Messages M) :=
  match messages.waiting with
  | [] => Option.none
  | m :: rest => some (m, ⟨rest⟩)

/-- Reads at most `limit` messages. -/
def read : (limit : Nat) → Messages M → List M × Messages M
  | 0, messages => ([], messages)
  | limit + 1, messages =>
    match messages.next? with
    | Option.none => ([], messages)
    | some (m, rest) =>
      let (ms, left) := rest.read limit
      (m :: ms, left)

end Messages

/-- How messages for one receiver are kept: all of them, or folded into one. -/
inductive Delivery (M : Type) where
  | queued
  | combined (combine : Combiner M)

def Delivery.name {M : Type} : Delivery M → String
  | .queued => "queue"
  | .combined _ => "combining"

def Delivery.buffer {M : Type} : Delivery M → Buffer
  | .queued => .messageQueues
  | .combined _ => .messageSlots

/-- The pending messages of a receiver after one more. A combiner that faults has already used
up the pending message. -/
def Delivery.deposit {M : Type} (delivery : Delivery M) (message : M) (slot : Array M) :
    Outcome (Array M) Unit :=
  match delivery with
  | .queued => .ok () (slot.push message)
  | .combined combine =>
    match combine.absorb slot[0]? message with
    | .ok m => .ok () #[m]
    | .error f => .error f #[]

/-- The least number of bytes a receiver takes in one buffer. -/
def receiverSize : Nat := 16

/-- Two buffers of messages by receiver: those sent in this superstep, and those sent in the
superstep before and now delivered. -/
structure Mailroom (M : Type) where
  delivery : Delivery M
  pending : Array (Array M)
  delivered : Array (Array M)

namespace Mailroom

variable {M : Type}

def create (memory : Memory) (delivery : Delivery M) (nodes : Nat) :
    Except Failure (Mailroom M) := do
  memory.reserve delivery.buffer nodes nodes receiverSize
  memory.reserve delivery.buffer nodes nodes receiverSize
  return ⟨delivery, Array.replicate nodes #[], Array.replicate nodes #[]⟩

/-- Starts a superstep: what was sent is delivered, what was not read is dropped. -/
def turn (room : Mailroom M) : Mailroom M :=
  { room with pending := room.delivered.map fun _ => #[], delivered := room.pending }

def send (target : Nat) (message : M) (room : Mailroom M) : Outcome (Mailroom M) Unit :=
  match room.pending[target]? with
  | none => .error (.targetRange target room.pending.size) room
  | some slot =>
    let cleared := room.pending.setIfInBounds target #[]
    match room.delivery.deposit message slot with
    | .ok () slot => .ok () { room with pending := cleared.setIfInBounds target slot }
    | .error f slot => .error f { room with pending := cleared.setIfInBounds target slot }

/-- Removes and returns the messages delivered to a node. -/
def take (node : Nat) (room : Mailroom M) : Outcome (Mailroom M) (Messages M) :=
  match room.delivered[node]? with
  | none => .error (.targetRange node room.delivered.size) room
  | some slot =>
    .ok ⟨slot.toList⟩ { room with delivered := room.delivered.setIfInBounds node #[] }

/-- Gives up both buffers; no receiver is left. -/
def release (room : Mailroom M) : Mailroom M :=
  { room with pending := #[], delivered := #[] }

end Mailroom

end BulkSync
