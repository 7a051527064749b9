import BulkSync.Proofs.Performance
import BulkSync.Proofs.Slots
import BulkSync.Proofs.Supersteps

namespace BulkSync

variable {M R : Type}

/-- The ends of one step in two runs: both went well and what they left is related, both faulted,
or the second one ended with a fault of a kind the first one does not know. -/
inductive Outcome.Paired {σ τ α β : Type} (related : α → σ → β → τ → Prop) (own : Fault → Prop) :
    Outcome σ α → Outcome τ β → Prop
  | ok {x s y t} (h : related x s y t) : Paired related own (.ok x s) (.ok y t)
  | error (f s g t) : Paired related own (.error f s) (.error g t)
  | own (o f t) (h : own f) : Paired related own o (.error f t)

theorem Outcome.Paired.mono {σ τ α β : Type} {related related' : α → σ → β → τ → Prop}
    {own : Fault → Prop} {o : Outcome σ α} {o' : Outcome τ β} (h : Paired related own o o')
    (hr : ∀ x s y t, related x s y t → related' x s y t) : Paired related' own o o' := by
  cases h with
  | ok h => exact .ok (hr _ _ _ _ h)
  | error => exact .error ..
  | own _ f _ h => exact .own _ f _ h

/-- How a callback ended. -/
def Performance.outcome {s : Signature} {σ α : Type} (p : Performance s σ α) : Outcome σ α :=
  match p.result with
  | .ok a => .ok a p.state
  | .error f => .error f p.state

/-- The faults a combiner can end with. -/
def Combiner.Faults (combine : Combiner M) (f : Fault) : Prop :=
  ∃ x y, combine x y = .error f

/-- One array of slots keeps folded into one message what the other one keeps in full. -/
def Combiner.Merges (combine : Combiner M) (slots slots' : Array (Array M)) : Prop :=
  ∀ node : Nat, Option.Rel (fun slot slot' : Array M =>
    (Delivery.combined combine).Delivers slot.toList slot'.toList) slots[node]? slots'[node]?

namespace Combiner.Merges

variable {combine : Combiner M} {slots slots' : Array (Array M)}

theorem size (h : combine.Merges slots slots') : slots'.size = slots.size := by
  have hnone : ∀ node, slots'.size ≤ node ↔ slots.size ≤ node := by
    intro node
    have hnode := h node
    rw [← Array.getElem?_eq_none_iff, ← Array.getElem?_eq_none_iff]
    generalize slots[node]? = slot at hnode
    generalize slots'[node]? = slot' at hnode
    cases hnode <;> simp
  have h₁ := (hnone slots.size).mpr (Nat.le_refl _)
  have h₂ := (hnone slots'.size).mp (Nat.le_refl _)
  omega

theorem slot (h : combine.Merges slots slots') {node : Nat} {slot : Array M}
    (hslot : slots[node]? = some slot) : ∃ slot', slots'[node]? = some slot' ∧
      (Delivery.combined combine).Delivers slot.toList slot'.toList := by
  have hnode := h node
  rw [hslot] at hnode
  generalize hslot' : slots'[node]? = other at hnode
  cases hnode with
  | some hd => exact ⟨_, rfl, hd⟩

theorem absent (h : combine.Merges slots slots') {node : Nat} (hslot : slots[node]? = none) :
    slots'[node]? = none := by
  have hnode := h node
  rw [hslot] at hnode
  generalize hslot' : slots'[node]? = other at hnode
  cases hnode
  rfl

theorem set (h : combine.Merges slots slots') (target : Nat) {slot slot' : Array M}
    (hd : (Delivery.combined combine).Delivers slot.toList slot'.toList) :
    combine.Merges (slots.setIfInBounds target slot) (slots'.setIfInBounds target slot') := by
  intro node
  by_cases he : target = node
  · subst he
    rw [Array.getElem?_setIfInBounds_self, Array.getElem?_setIfInBounds_self, h.size]
    split
    · exact .some hd
    · exact .none
  · rw [Array.getElem?_setIfInBounds_ne he, Array.getElem?_setIfInBounds_ne he]
    exact h node

theorem cleared (h : combine.Merges slots slots') :
    combine.Merges (slots.map fun _ => #[]) (slots'.map fun _ => #[]) := by
  intro node
  rw [Array.getElem?_map, Array.getElem?_map]
  cases hslot : slots[node]? with
  | none => rw [h.absent hslot]; exact .none
  | some slot =>
    obtain ⟨slot', hslot', _⟩ := h.slot hslot
    rw [hslot']
    exact .some (Delivery.delivers_nil _)

theorem replicate (combine : Combiner M) (nodes : Nat) :
    combine.Merges (.replicate nodes #[]) (.replicate nodes #[]) := by
  intro node
  rw [Array.getElem?_replicate]
  split
  · exact .some (Delivery.delivers_nil _)
  · exact .none

end Combiner.Merges

/-- A mailroom that keeps all messages, and one with the same messages that folds them. -/
structure Mailroom.Merges (combine : Combiner M) (room room' : Mailroom M) : Prop where
  queued : room.delivery = .queued
  combined : room'.delivery = .combined combine
  pending : combine.Merges room.pending room'.pending
  delivered : combine.Merges room.delivered room'.delivered

namespace Mailroom.Merges

variable {combine : Combiner M} {room room' : Mailroom M}

theorem turn (h : room.Merges combine room') : room.turn.Merges combine room'.turn :=
  ⟨h.queued, h.combined, h.delivered.cleared, h.pending⟩

theorem send (h : room.Merges combine room') (target : Nat) (m : M) :
    Outcome.Paired (fun _ next _ next' => next.Merges combine next') combine.Faults
      (room.send target m) (room'.send target m) := by
  unfold Mailroom.send
  cases hslot : room.pending[target]? with
  | none =>
    rw [h.pending.absent hslot]
    exact .error ..
  | some slot =>
    obtain ⟨slot', hslot', hd⟩ := h.pending.slot hslot
    rw [hslot', h.queued, h.combined]
    dsimp only [Delivery.deposit]
    cases hdeposit : combine.absorb slot'[0]? m with
    | ok r =>
      have hpush : (Delivery.combined combine).Delivers (slot.push m).toList #[r].toList := by
        rw [Array.toList_push]
        exact hd.deposit (by simp only [Delivery.deposit, hdeposit])
      dsimp only
      rw [Array.setIfInBounds_setIfInBounds, Array.setIfInBounds_setIfInBounds]
      exact .ok ⟨rfl, rfl, h.pending.set target hpush, h.delivered⟩
    | error f =>
      refine .own _ f _ ?_
      cases hpending : slot'[0]? with
      | none => rw [hpending] at hdeposit; cases hdeposit
      | some pending => rw [hpending] at hdeposit; exact ⟨pending, m, hdeposit⟩

theorem sendAll (h : room.Merges combine room') (m : M) (targets : List Nat) :
    Outcome.Paired (fun _ next _ next' => next.Merges combine next') combine.Faults
      (room.sendAll m targets) (room'.sendAll m targets) := by
  induction targets generalizing room room' with
  | nil => exact .ok h
  | cons target rest ih =>
    have hsend := h.send target m
    simp only [Mailroom.sendAll]
    generalize room.send target m = o at hsend
    generalize room'.send target m = o' at hsend
    cases hsend with
    | ok hnext => exact ih hnext
    | error => exact .error ..
    | own _ f _ hf => exact .own _ f _ hf

end Mailroom.Merges

/-- Two states of different runs that differ only in how the messages are kept. -/
inductive State.Merges (combine : Combiner M) (s : State M) : State M → Prop
  | intro {mail} (h : s.mail.Merges combine mail) : Merges combine s (s.withMail mail)

/-- Two desks of different runs that differ only in how the messages are kept. -/
inductive Desk.Merges (combine : Combiner M) (d : Desk M) : Desk M → Prop
  | intro {mail} (h : d.state.mail.Merges combine mail) :
    Merges combine d ⟨d.state.withMail mail, d.tally⟩

section Handlers

variable {graph : Graph} {node : Nat} {combine : Combiner M}

theorem ownHandler_withMail (op : OwnOp) (s : State M) (mail : Mailroom M) :
    ownHandler graph node op (s.withMail mail) =
      Outcome.mapState (State.withMail mail) (ownHandler graph node op s) :=
  ownHandler_mapState (f := State.withMail mail) (fun _ => rfl) (fun _ _ => rfl) (fun _ _ => rfl)
    op s

theorem desk_sendAll_merges {d d' : Desk M} (h : d.Merges combine d') (m : M)
    (targets : List Nat) :
    Outcome.Paired (fun _ e _ e' => e.Merges combine e') combine.Faults
      (d.sendAll m targets) (d'.sendAll m targets) := by
  obtain ⟨hmail⟩ := h
  have hsend := hmail.sendAll m targets
  unfold Desk.sendAll
  dsimp only [State.withMail]
  generalize d.state.mail.sendAll m targets = o at hsend
  generalize Mailroom.sendAll m targets _ = o' at hsend
  cases hsend with
  | ok hnext =>
    simp only [Desk.countSent]
    cases addCounts d.tally.sent targets.length with
    | ok sent => exact .ok ⟨hnext⟩
    | error f => exact .error ..
  | error => exact .error ..
  | own _ f _ hf => exact .own _ f _ hf

variable (graph node) in
/-- Desks that differ in how the messages are kept answer the same, unless the combiner fails. -/
theorem nodeHandler_merges (op : NodeOp M) {d d' : Desk M} (h : d.Merges combine d') :
    Outcome.Paired (fun x e x' e' => x' = x ∧ e.Merges combine e') combine.Faults
      (nodeHandler graph node op d) (nodeHandler graph node op d') := by
  have hsend := desk_sendAll_merges h
  obtain ⟨hmail⟩ := h
  cases op with
  | own op =>
    simp only [nodeHandler, ownHandler_withMail]
    cases hown : ownHandler graph node op d.state with
    | ok x s => exact .ok ⟨rfl, ⟨(ownHandler_ok hown).mail ▸ hmail⟩⟩
    | error f s => exact .error ..
  | readOf sc key other =>
    simp only [nodeHandler, State.withMail, unchanged]
    cases d.state.values.read sc key other with
    | ok x => exact .ok ⟨rfl, ⟨hmail⟩⟩
    | error f => exact .error ..
  | neighbors =>
    simp only [nodeHandler, unchanged]
    cases graph.neighbors node with
    | ok targets => exact .ok ⟨rfl, ⟨hmail⟩⟩
    | error f => exact .error ..
  | send target m =>
    exact (hsend m [target]).mono fun _ _ _ _ hnext => ⟨rfl, hnext⟩
  | sendNeighbors m =>
    simp only [nodeHandler]
    cases graph.neighbors node with
    | error f => exact .error ..
    | ok targets =>
      have hall := hsend m targets
      dsimp only
      generalize d.sendAll m targets = o at hall
      generalize Desk.sendAll m targets _ = o' at hall
      cases hall with
      | ok hnext => exact .ok ⟨rfl, hnext⟩
      | error => exact .error ..
      | own _ f _ hf => exact .own _ f _ hf
  | vote =>
    dsimp only [nodeHandler, State.withMail]
    cases d.state.halted.halt node with
    | ok _ halted => exact .ok ⟨rfl, ⟨hmail⟩⟩
    | error f halted => exact .error ..
  | aggregate key y =>
    dsimp only [nodeHandler, State.withMail]
    cases Totals.contribute key y d.state.aggregates.declared d.tally.partials with
    | ok partials => exact .ok ⟨rfl, ⟨hmail⟩⟩
    | error f => exact .error ..
  | aggregated key => exact .ok ⟨rfl, ⟨hmail⟩⟩

variable (graph node) in
/-- A callback ends the same on desks that differ in how the messages are kept, unless the combiner
fails in it. -/
theorem perform_merges (p : NodeProgram M R) {d d' : Desk M} (h : d.Merges combine d') :
    Outcome.Paired (fun r e r' e' => r' = r ∧ e.Merges combine e') combine.Faults
      (p.perform (nodeHandler graph node) d).outcome
      (p.perform (nodeHandler graph node) d').outcome := by
  induction p generalizing d d' with
  | done a => exact .ok ⟨rfl, h⟩
  | fail f => exact .error ..
  | call op next ih =>
    have hop := nodeHandler_merges graph node op h
    simp only [Program.perform]
    generalize nodeHandler graph node op d = o at hop
    generalize nodeHandler graph node op d' = o' at hop
    cases hop with
    | ok hnext =>
      obtain ⟨rfl, hnext⟩ := hnext
      exact ih _ hnext
    | error => exact .error ..
    | own _ f _ hf => exact .own _ f _ hf

end Handlers

end BulkSync
