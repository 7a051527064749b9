import BulkSync.Engine

namespace BulkSync

/-- What a task has gathered and not yet handed over. -/
structure Tally where
  partials : Totals
  computed : Nat
  sent : Nat
  /-- Whether the task has handed over, or was ended by a fault. -/
  ended : Bool

/-- What the operations of a computing node act on. -/
structure Desk (M : Type) where
  state : State M
  tally : Tally

/-- The outcome of an operation that leaves the state as it is. -/
def unchanged {σ α : Type} (result : Except Fault α) (state : σ) : Outcome σ α :=
  match result with
  | .ok x => .ok x state
  | .error f => .error f state

section Operations

variable {M : Type}

/-- The operations of a node on its own values. -/
def ownHandler (graph : Graph) (node : Nat) : Handler ownSignature (State M)
  | .read s key, state => unchanged (state.values.read s key node) state
  | .readArray s key, state => unchanged (state.values.readArray s key node) state
  | .write s key x, state =>
    match state.values.write s key node x with
    | .ok () values => .ok () { state with values }
    | .error f values => .error f { state with values }
  | .writeArray s key xs, state =>
    match state.values.writeArray s key node xs with
    | .ok () values => .ok () { state with values }
    | .error f values => .error f { state with values }
  | .degree, state => unchanged (graph.degree node) state
  | .raise signal, state => .ok () { state with signals := state.signals.raise signal }

/-- Counts messages that were accepted. -/
def Desk.countSent (count : Nat) (desk : Desk M) : Outcome (Desk M) Unit :=
  match addCounts desk.tally.sent count with
  | .ok sent => .ok () { desk with tally := { desk.tally with sent } }
  | .error f => .error f desk

/-- Sends one message to each target in turn. -/
def Mailroom.sendAll (message : M) : List Nat → Mailroom M → Outcome (Mailroom M) Unit
  | [], room => .ok () room
  | target :: rest, room =>
    match room.send target message with
    | .ok () room => room.sendAll message rest
    | .error f room => .error f room

/-- Sends a message to each target and counts it. -/
def Desk.sendAll (message : M) (targets : List Nat) (desk : Desk M) : Outcome (Desk M) Unit :=
  match desk.state.mail.sendAll message targets with
  | .ok () mail =>
    Desk.countSent targets.length { desk with state := { desk.state with mail } }
  | .error f mail => .error f { desk with state := { desk.state with mail } }

/-- The operations of a computing node. -/
def nodeHandler (graph : Graph) (node : Nat) : Handler (nodeSignature M) (Desk M)
  | .own op, desk =>
    match ownHandler graph node op desk.state with
    | .ok x state => .ok x { desk with state }
    | .error f state => .error f { desk with state }
  | .readOf s key other, desk => unchanged (desk.state.values.read s key other) desk
  | .neighbors, desk => unchanged (graph.neighbors node) desk
  | .send target message, desk => desk.sendAll message [target]
  | .sendNeighbors message, desk =>
    match graph.neighbors node with
    | .error f => .error f desk
    | .ok targets =>
      match desk.sendAll message targets with
      | .ok () desk => .ok targets desk
      | .error f desk => .error f desk
  | .vote, desk =>
    match desk.state.halted.halt node with
    | .ok () halted => .ok () { desk with state := { desk.state with halted } }
    | .error f halted => .error f { desk with state := { desk.state with halted } }
  | .aggregate key x, desk =>
    match Totals.contribute key x desk.state.aggregates.declared desk.tally.partials with
    | .ok partials => .ok () { desk with tally := { desk.tally with partials } }
    | .error f => .error f desk
  | .aggregated key, desk => .ok (desk.state.aggregates.value? key) desk

/-- The operations between supersteps. -/
def masterHandler : Handler masterSignature (State M)
  | .get key node, state => unchanged (state.values.get key node) state
  | .set key node value, state =>
    match state.values.set key node value with
    | .ok () values => .ok () { state with values }
    | .error f values => .error f { state with values }
  | .aggregated key, state => .ok (state.aggregates.value? key) state
  | .raise signal, state => .ok () { state with signals := state.signals.raise signal }

end Operations

end BulkSync
