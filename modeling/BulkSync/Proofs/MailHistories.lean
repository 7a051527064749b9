import BulkSync.Mailroom
import Mathlib.Data.List.DropRight
import Mathlib.Data.List.Induction

namespace BulkSync

variable {M : Type}

/-- What can be asked of a mailroom. -/
inductive MailOp (M : Type) where
  | send (target : Nat) (message : M)
  | turn
  | take (node : Nat)
  | release

namespace MailOp

def isTurn : MailOp M → Bool
  | .turn => true
  | _ => false

def isRelease : MailOp M → Bool
  | .release => true
  | _ => false

theorem eq_turn {op : MailOp M} (h : op.isTurn = true) : op = .turn := by
  cases op with
  | turn => rfl
  | _ => cases h

def takes (node : Nat) : MailOp M → Bool
  | .take v => v == node
  | _ => false

/-- The message for a node that was asked to be sent. -/
def sentTo? (node : Nat) : MailOp M → Option M
  | .send target message => if target = node then some message else none
  | _ => none

end MailOp

/-- What a mailroom is left as when it is asked for something, whether it grants that or not. -/
def Mailroom.serve (room : Mailroom M) : MailOp M → Mailroom M
  | .send target message =>
    match room.send target message with
    | .ok _ next => next
    | .error _ next => next
  | .turn => room.turn
  | .take node =>
    match room.take node with
    | .ok _ next => next
    | .error _ next => next
  | .release => room.release

def Mailroom.after (room : Mailroom M) (ops : List (MailOp M)) : Mailroom M :=
  ops.foldl Mailroom.serve room

theorem Mailroom.after_concat (room : Mailroom M) (ops : List (MailOp M)) (op : MailOp M) :
    room.after (ops ++ [op]) = (room.after ops).serve op := by
  rw [Mailroom.after, List.foldl_append]
  rfl

/-- What was asked since the last turn, or since creation if there was none. -/
def sinceTurn (ops : List (MailOp M)) : List (MailOp M) :=
  ops.rtakeWhile fun op => !op.isTurn

/-- What was asked before the last turn; nothing if there was none. -/
def untilTurn (ops : List (MailOp M)) : List (MailOp M) :=
  (ops.rdropWhile fun op => !op.isTurn).dropLast

/-- What was asked between the last two turns, or between creation and the only one. -/
def lastPeriod (ops : List (MailOp M)) : List (MailOp M) :=
  sinceTurn (untilTurn ops)

/-- The messages for a node that were asked to be sent, in order. -/
def sentTo (node : Nat) (ops : List (MailOp M)) : List M :=
  ops.filterMap (MailOp.sentTo? node)

/-- What a node is still to be handed: what was sent to it in the last period, unless it was taken
since. -/
def due (node : Nat) (ops : List (MailOp M)) : List M :=
  if (sinceTurn ops).any (MailOp.takes node) then [] else sentTo node (lastPeriod ops)

/-- The number of receivers; none is left after a release. -/
def receivers (nodes : Nat) (ops : List (MailOp M)) : Nat :=
  if ops.any MailOp.isRelease then 0 else nodes

section Periods

variable {ops earlier later : List (MailOp M)} {op : MailOp M} {node : Nat}

@[simp] theorem sinceTurn_turn : sinceTurn (ops ++ [.turn]) = [] :=
  List.rtakeWhile_concat_neg _ _ _ (by simp [MailOp.isTurn])

@[simp] theorem untilTurn_turn : untilTurn (ops ++ [.turn]) = ops := by
  have hdrop : (ops ++ [MailOp.turn]).rdropWhile (fun op => !op.isTurn) = ops ++ [.turn] :=
    List.rdropWhile_concat_neg _ _ _ (by simp [MailOp.isTurn])
  rw [untilTurn, hdrop, List.dropLast_concat]

theorem sinceTurn_concat (h : op.isTurn = false) :
    sinceTurn (ops ++ [op]) = sinceTurn ops ++ [op] :=
  List.rtakeWhile_concat_pos _ _ _ (by simp [h])

theorem untilTurn_concat (h : op.isTurn = false) : untilTurn (ops ++ [op]) = untilTurn ops := by
  have hdrop : (ops ++ [op]).rdropWhile (fun op => !op.isTurn) =
      ops.rdropWhile fun op => !op.isTurn :=
    List.rdropWhile_concat_pos _ _ _ (by simp [h])
  rw [untilTurn, hdrop, untilTurn]

@[simp] theorem lastPeriod_turn : lastPeriod (ops ++ [.turn]) = sinceTurn ops := by
  rw [lastPeriod, untilTurn_turn]

theorem lastPeriod_concat (h : op.isTurn = false) : lastPeriod (ops ++ [op]) = lastPeriod ops := by
  rw [lastPeriod, untilTurn_concat h, lastPeriod]

theorem sinceTurn_append (ops : List (MailOp M)) (h : ∀ op ∈ later, op.isTurn = false) :
    sinceTurn (ops ++ later) = sinceTurn ops ++ later := by
  induction later using List.reverseRecOn with
  | nil => simp
  | append_singleton later op ih =>
    have hop := h op (by simp)
    have hrest := ih fun x hx => h x (List.mem_append_left _ hx)
    rw [← List.append_assoc, sinceTurn_concat hop, hrest, List.append_assoc]

theorem untilTurn_append (ops : List (MailOp M)) (h : ∀ op ∈ later, op.isTurn = false) :
    untilTurn (ops ++ later) = untilTurn ops := by
  induction later using List.reverseRecOn with
  | nil => simp
  | append_singleton later op ih =>
    have hop := h op (by simp)
    have hrest := ih fun x hx => h x (List.mem_append_left _ hx)
    rw [← List.append_assoc, untilTurn_concat hop, hrest]

theorem mem_of_mem_sinceTurn (h : op ∈ sinceTurn (earlier ++ .turn :: later)) : op ∈ later := by
  induction later using List.reverseRecOn with
  | nil =>
    rw [sinceTurn_turn] at h
    cases h
  | append_singleton later last ih =>
    rw [← List.cons_append, ← List.append_assoc] at h
    cases hlast : last.isTurn with
    | true =>
      rw [MailOp.eq_turn hlast, sinceTurn_turn] at h
      cases h
    | false =>
      rw [sinceTurn_concat hlast] at h
      rcases List.mem_append.mp h with h | h
      · exact List.mem_append_left _ (ih h)
      · exact List.mem_append_right _ h

/-- What was asked before a turn does not belong to the last period after another one. -/
theorem mem_of_mem_lastPeriod (ht : .turn ∈ later)
    (h : op ∈ lastPeriod (earlier ++ .turn :: later)) : op ∈ later := by
  induction later using List.reverseRecOn with
  | nil => cases ht
  | append_singleton later last ih =>
    rw [← List.cons_append, ← List.append_assoc] at h
    cases hlast : last.isTurn with
    | true =>
      rw [MailOp.eq_turn hlast, lastPeriod_turn] at h
      exact List.mem_append_left _ (mem_of_mem_sinceTurn h)
    | false =>
      rw [lastPeriod_concat hlast] at h
      have hbefore : .turn ∈ later := by
        rcases List.mem_append.mp ht with ht | ht
        · exact ht
        · rw [← List.mem_singleton.mp ht] at hlast
          cases hlast
      exact List.mem_append_left _ (ih hbefore h)

/-- What nobody took before a second turn is not due any more. -/
theorem due_of_two_turns (ht : .turn ∈ later) (h : sentTo node later = []) :
    due node (earlier ++ .turn :: later) = [] := by
  have hnone : sentTo node (lastPeriod (earlier ++ .turn :: later)) = [] := by
    refine List.filterMap_eq_nil_iff.mpr fun op hop => ?_
    exact List.filterMap_eq_nil_iff.mp h op (mem_of_mem_lastPeriod ht hop)
  rw [due, hnone, ite_self]

theorem due_turn : due node (ops ++ [.turn]) = sentTo node (sinceTurn ops) := by
  rw [due, sinceTurn_turn, lastPeriod_turn]
  rfl

theorem due_take (v : Nat) :
    due node (ops ++ [.take v]) = if v = node then [] else due node ops := by
  have hturn : (MailOp.take v : MailOp M).isTurn = false := rfl
  rw [due, sinceTurn_concat hturn, lastPeriod_concat hturn, List.any_append, due]
  by_cases he : v = node
  · simp [MailOp.takes, he]
  · simp [MailOp.takes, he]

theorem due_send (target : Nat) (message : M) :
    due node (ops ++ [.send target message]) = due node ops := by
  have hturn : (MailOp.send target message).isTurn = false := rfl
  rw [due, sinceTurn_concat hturn, lastPeriod_concat hturn, List.any_append, due]
  simp [MailOp.takes]

theorem sentTo_send (target : Nat) (message : M) :
    sentTo node (sinceTurn (ops ++ [.send target message])) =
      sentTo node (sinceTurn ops) ++ if target = node then [message] else [] := by
  have hturn : (MailOp.send target message).isTurn = false := rfl
  rw [sinceTurn_concat hturn, sentTo, List.filterMap_append]
  by_cases he : target = node
  · simp [MailOp.sentTo?, sentTo, he]
  · simp [MailOp.sentTo?, sentTo, he]

theorem sentTo_take (v : Nat) :
    sentTo node (sinceTurn (ops ++ [.take v])) = sentTo node (sinceTurn ops) := by
  have hturn : (MailOp.take v : MailOp M).isTurn = false := rfl
  rw [sinceTurn_concat hturn, sentTo, List.filterMap_append]
  exact List.append_nil _

theorem receivers_concat (nodes : Nat) (h : op.isRelease = false) :
    receivers nodes (ops ++ [op]) = receivers nodes ops := by
  simp [receivers, h]

theorem receivers_of_release (nodes : Nat) (h : .release ∈ ops) : receivers nodes ops = 0 :=
  if_pos (List.any_eq_true.mpr ⟨.release, h, rfl⟩)

end Periods

end BulkSync
