import BulkSync.Proofs.DoubleBuffers

namespace BulkSync

variable {M : Type}

def MailOp.sendsTo (node : Nat) : MailOp M → Bool
  | .send target _ => target == node
  | _ => false

theorem MailOp.eq_send {node : Nat} {op : MailOp M} (h : op.sendsTo node = true) :
    ∃ message, op = .send node message := by
  cases op with
  | send target message =>
    have htarget : target = node := by simpa [MailOp.sendsTo] using h
    exact ⟨message, by rw [htarget]⟩
  | _ => cases h

/-- What is pending for a receiver after one message more, accepted or not. -/
def Delivery.leaves (delivery : Delivery M) (message : M) (slot : Array M) : Array M :=
  match delivery.deposit message slot with
  | .ok _ left => left
  | .error _ left => left

/-- A history without what was sent to a node since the last turn. -/
def unsent (node : Nat) (ops : List (MailOp M)) : List (MailOp M) :=
  (ops.rdropWhile fun op => !op.isTurn) ++ (sinceTurn ops).filter fun op => !op.sendsTo node

namespace Mailroom

/-- Two mailrooms that differ at most in what is pending for a node. -/
structure SameBut (node : Nat) (room other : Mailroom M) : Prop where
  delivery : other.delivery = room.delivery
  delivered : other.delivered = room.delivered
  size : other.pending.size = room.pending.size
  pending : ∀ v, v ≠ node → other.pending[v]? = room.pending[v]?

/-- Nothing is pending for a node. -/
def Clear (node : Nat) (room : Mailroom M) : Prop :=
  ∀ slot, room.pending[node]? = some slot → slot = #[]

section Frames

variable {room other third : Mailroom M} {node : Nat}

theorem SameBut.refl (node : Nat) (room : Mailroom M) : room.SameBut node room :=
  ⟨rfl, rfl, rfl, fun _ _ => rfl⟩

theorem SameBut.trans (h : room.SameBut node other) (h' : other.SameBut node third) :
    room.SameBut node third :=
  ⟨h'.delivery.trans h.delivery, h'.delivered.trans h.delivered, h'.size.trans h.size,
    fun v hv => (h'.pending v hv).trans (h.pending v hv)⟩

theorem SameBut.symm (h : room.SameBut node other) : other.SameBut node room :=
  ⟨h.delivery.symm, h.delivered.symm, h.size.symm, fun v hv => (h.pending v hv).symm⟩

theorem SameBut.eq_of_clear (h : room.SameBut node other) (hroom : room.Clear node)
    (hother : other.Clear node) : room = other := by
  have hpending : room.pending = other.pending := by
    apply Array.ext_getElem?
    intro v
    by_cases hv : v = node
    · subst hv
      by_cases hlt : v < room.pending.size
      · have hlt' : v < other.pending.size := by rw [h.size]; exact hlt
        have hslot := Array.getElem?_eq_getElem hlt
        have hslot' := Array.getElem?_eq_getElem hlt'
        rw [hslot, hslot', hroom _ hslot, hother _ hslot']
      · have hge : room.pending.size ≤ v := by omega
        have hge' : other.pending.size ≤ v := by rw [h.size]; exact hge
        rw [Array.getElem?_eq_none hge, Array.getElem?_eq_none hge']
    · exact (h.pending v hv).symm
  obtain ⟨delivery, pending, delivered⟩ := room
  obtain ⟨delivery', pending', delivered'⟩ := other
  obtain ⟨rfl, rfl, _, _⟩ := h
  cases hpending
  rfl

/-- A send puts into the slot of its target what the delivery leaves, and nothing elsewhere. -/
theorem serve_send {target : Nat} {message : M} {slot : Array M}
    (hslot : room.pending[target]? = some slot) :
    room.serve (.send target message) =
      { room with
        pending := room.pending.setIfInBounds target (room.delivery.leaves message slot) } := by
  simp only [serve, send, hslot, Delivery.leaves]
  cases room.delivery.deposit message slot <;> simp [Array.setIfInBounds_setIfInBounds]

theorem serve_send_of_le {target : Nat} (h : room.pending.size ≤ target) (message : M) :
    room.serve (.send target message) = room := by
  simp only [serve, send_of_le h]

/-- A message is pending for its target only, whether it is accepted or not. -/
theorem send_sameBut (room : Mailroom M) (target : Nat) (message : M) :
    room.SameBut target (room.serve (.send target message)) := by
  rcases Nat.lt_or_ge target room.pending.size with hlt | hge
  · rw [serve_send (Array.getElem?_eq_getElem hlt)]
    exact ⟨rfl, rfl, Array.size_setIfInBounds,
      fun v hv => Array.getElem?_setIfInBounds_ne (Ne.symm hv)⟩
  · rw [serve_send_of_le hge]
    exact .refl target room

/-- What is asked between two turns, other than to send to the node, is done alike. -/
theorem SameBut.serve (h : room.SameBut node other) {op : MailOp M} (hturn : op.isTurn = false)
    (hsend : op.sendsTo node = false) : (room.serve op).SameBut node (other.serve op) := by
  cases op with
  | turn => cases hturn
  | send target message =>
    have htarget : target ≠ node := by simpa [MailOp.sendsTo] using hsend
    rcases Nat.lt_or_ge target room.pending.size with hlt | hge
    · have hslot := Array.getElem?_eq_getElem hlt
      have hslot' := (h.pending target htarget).trans hslot
      rw [serve_send hslot, serve_send hslot', h.delivery]
      refine ⟨rfl, h.delivered, ?_, fun v hv => ?_⟩
      · simp only [Array.size_setIfInBounds, h.size]
      · by_cases he : target = v
        · subst he
          have hlt' : target < other.pending.size := by rw [h.size]; exact hlt
          simp only [Array.getElem?_setIfInBounds_self_of_lt hlt,
            Array.getElem?_setIfInBounds_self_of_lt hlt']
        · simp only [Array.getElem?_setIfInBounds_ne he, h.pending v hv]
    · have hge' : other.pending.size ≤ target := by rw [h.size]; exact hge
      rw [serve_send_of_le hge, serve_send_of_le hge']
      exact h
  | take v =>
    simp only [Mailroom.serve, Mailroom.take, h.delivered]
    cases room.delivered[v]? with
    | none => exact h
    | some slot => exact ⟨h.delivery, rfl, h.size, h.pending⟩
  | release => exact ⟨h.delivery, rfl, rfl, fun _ _ => rfl⟩

/-- What was sent to a node since the last turn shows in its own slot only. -/
theorem SameBut.after (h : room.SameBut node other) {ops : List (MailOp M)}
    (hstill : ∀ op ∈ ops, op.isTurn = false) :
    (room.after ops).SameBut node (other.after (ops.filter fun op => !op.sendsTo node)) := by
  -- a send to the node is made in the first room only, which stays the same but for its slot
  induction ops generalizing room other with
  | nil => exact h
  | cons op rest ih =>
    have hrest := List.forall_mem_cons.mp hstill
    cases hsend : op.sendsTo node with
    | true =>
      obtain ⟨message, rfl⟩ := MailOp.eq_send hsend
      have hskip : (room.serve (.send node message)).SameBut node other :=
        (send_sameBut room node message).symm.trans h
      rw [List.filter_cons_of_neg (by simp [hsend])]
      exact ih hskip hrest.2
    | false =>
      rw [List.filter_cons_of_pos (by simp [hsend])]
      exact ih (h.serve hrest.1 hsend) hrest.2

end Frames

section Clearing

variable {room : Mailroom M} {node : Nat}

theorem clear_of_all (h : ∀ slot ∈ room.pending, slot = #[]) : room.Clear node := by
  intro slot hslot
  exact h slot (Array.mem_of_getElem? hslot)

theorem turn_clear (room : Mailroom M) (node : Nat) : room.turn.Clear node := by
  apply clear_of_all
  intro slot hslot
  obtain ⟨_, _, rfl⟩ := Array.mem_map.mp hslot
  rfl

/-- Nothing gets pending for a node to which nothing is sent. -/
theorem Clear.serve (h : room.Clear node) {op : MailOp M} (hsend : op.sendsTo node = false) :
    (room.serve op).Clear node := by
  cases op with
  | turn => exact turn_clear room node
  | send target message =>
    have htarget : node ≠ target := by
      rintro rfl
      simp [MailOp.sendsTo] at hsend
    intro slot hslot
    rw [(send_sameBut room target message).pending node htarget] at hslot
    exact h slot hslot
  | take v =>
    intro slot hslot
    simp only [Mailroom.serve, Mailroom.take] at hslot
    cases hv : room.delivered[v]? with
    | none => rw [hv] at hslot; exact h slot hslot
    | some taken => rw [hv] at hslot; exact h slot hslot
  | release =>
    intro slot hslot
    cases hslot

theorem Clear.after (h : room.Clear node) {ops : List (MailOp M)}
    (hsend : ∀ op ∈ ops, op.sendsTo node = false) : (room.after ops).Clear node := by
  induction ops generalizing room with
  | nil => exact h
  | cons op rest ih =>
    have hrest := List.forall_mem_cons.mp hsend
    exact ih (h.serve hrest.1) hrest.2

end Clearing

section Failing

variable {room next : Mailroom M} {node : Nat} {ops : List (MailOp M)}

theorem after_append (room : Mailroom M) (ops later : List (MailOp M)) :
    room.after (ops ++ later) = (room.after ops).after later :=
  List.foldl_append

/-- At the last turn nothing is pending, nor is there before anything was asked. -/
theorem Clear.after_kept (h : room.Clear node) (ops : List (MailOp M)) :
    (room.after (ops.rdropWhile fun op => !op.isTurn)).Clear node := by
  -- from the end of the history: what is no turn is dropped, and a turn leaves nothing pending
  induction ops using List.reverseRecOn with
  | nil => exact h
  | append_singleton ops op ih =>
    cases hop : op.isTurn with
    | true =>
      rw [List.rdropWhile_concat_neg _ _ _ (by simp [hop]), MailOp.eq_turn hop, after_concat]
      exact turn_clear _ node
    | false =>
      rw [List.rdropWhile_concat_pos _ _ _ (by simp [hop])]
      exact ih

/-- A history and the one without the sends to a node differ in what is pending for it, and the
second one leaves nothing pending. -/
theorem after_unsent (h : room.Clear node) (ops : List (MailOp M)) :
    (room.after ops).SameBut node (room.after (unsent node ops)) ∧
      (room.after (unsent node ops)).Clear node := by
  let kept := ops.rdropWhile fun op => !op.isTurn
  have hsplit : ops = kept ++ sinceTurn ops := List.rdropWhile_append_rtakeWhile.symm
  have hstill : ∀ op ∈ sinceTurn ops, op.isTurn = false := by
    intro op hop
    simpa using List.mem_rtakeWhile_imp hop
  constructor
  · have hsame := (SameBut.refl node (room.after kept)).after hstill
    rw [← after_append, ← after_append, ← hsplit] at hsame
    exact hsame
  · rw [unsent, after_append]
    refine (h.after_kept ops).after fun op hop => ?_
    simpa using (List.mem_filter.mp hop).2

theorem serve_sizes {count : Nat} (h : room.pending.size = count ∧ room.delivered.size = count)
    {op : MailOp M} (hop : op.isRelease = false) :
    (room.serve op).pending.size = count ∧ (room.serve op).delivered.size = count := by
  cases op with
  | turn =>
    have hturned : room.turn.pending.size = room.delivered.size := Array.size_map
    exact ⟨hturned.trans h.2, h.1⟩
  | send target message =>
    have hsame := send_sameBut room target message
    exact ⟨hsame.size.trans h.1, by rw [hsame.delivered]; exact h.2⟩
  | take v =>
    simp only [Mailroom.serve, Mailroom.take]
    cases room.delivered[v]? with
    | none => exact h
    | some slot => exact ⟨h.1, Array.size_setIfInBounds.trans h.2⟩
  | release => cases hop

theorem after_sizes {nodes : Nat} (h : room.pending.size = nodes ∧ room.delivered.size = nodes)
    (ops : List (MailOp M)) : (room.after ops).pending.size = receivers nodes ops ∧
      (room.after ops).delivered.size = receivers nodes ops := by
  induction ops using List.reverseRecOn with
  | nil => exact h
  | append_singleton ops op ih =>
    rw [after_concat]
    cases hop : op.isRelease with
    | false =>
      rw [receivers_concat nodes hop]
      exact serve_sizes ih hop
    | true =>
      have hrelease : op = .release := by
        cases op with
        | release => rfl
        | _ => cases hop
      subst hrelease
      rw [receivers_of_release nodes (by simp)]
      exact ⟨rfl, rfl⟩

/-- A send to a receiver that exists fails only if its combiner does, and uses up what was pending
for the receiver. -/
theorem send_error {combine : Combiner M} {message : M} {f : Fault}
    (hdelivery : room.delivery = .combined combine) (hlt : node < room.pending.size)
    (h : room.send node message = .error f next) :
    (∃ pending, room.pending[node][0]? = some pending ∧ combine pending message = .error f) ∧
      next = { room with pending := room.pending.setIfInBounds node #[] } := by
  simp only [send, Array.getElem?_eq_getElem hlt, hdelivery, Delivery.deposit] at h
  cases hslot : room.pending[node][0]? with
  | none =>
    simp only [hslot, Combiner.absorb] at h
    cases h
  | some pending =>
    cases hcombine : combine pending message with
    | ok m =>
      simp only [hslot, Combiner.absorb, hcombine] at h
      cases h
    | error g =>
      simp only [hslot, Combiner.absorb, hcombine, Array.setIfInBounds_setIfInBounds] at h
      cases h
      exact ⟨⟨pending, rfl, hcombine⟩, by rw [← hdelivery]⟩

end Failing

end Mailroom

/-- A combiner that fails harms nobody but the receiver whose messages it folds. What was pending
for that receiver is gone, all other slots are as before, and from then on everything is as if
nothing had been sent to the receiver since the last turn. A message for nobody changes nothing. -/
theorem failed_send_harms_target {memory : Memory} {combine : Combiner M} {nodes : Nat}
    {room : Mailroom M} (created : Mailroom.create memory (.combined combine) nodes = .ok room)
    (ops : List (MailOp M)) :
    let now := room.after ops
    (∀ node message f next, node < receivers nodes ops → now.send node message = .error f next →
      (∃ slot pending, now.pending[node]? = some slot ∧ slot[0]? = some pending ∧
        combine pending message = .error f) ∧
      next.pending[node]? = some #[] ∧
      (∀ other, other ≠ node → next.pending[other]? = now.pending[other]?) ∧
      next.delivered = now.delivered ∧
      ∀ later, next.after later = room.after (unsent node ops ++ later)) ∧
    ∀ node message, receivers nodes ops ≤ node →
      now.send node message = .error (.targetRange node (receivers nodes ops)) now := by
  intro now
  have hroom := Mailroom.create_ok created
  have hsizes : room.pending.size = nodes ∧ room.delivered.size = nodes := by
    rw [hroom]
    exact ⟨Array.size_replicate, Array.size_replicate⟩
  have hclear : ∀ node, room.Clear node := by
    intro node
    apply Mailroom.clear_of_all
    intro slot hslot
    rw [hroom] at hslot
    exact (Array.mem_replicate.mp hslot).2
  have hpending := (Mailroom.after_sizes hsizes ops).1
  refine ⟨fun node message f next hn hsend => ?_, fun node message hn => ?_⟩
  · have hlt : node < now.pending.size := by rwa [hpending]
    have hdelivery : now.delivery = .combined combine := by
      rw [Mailroom.after_delivery, hroom]
    obtain ⟨⟨pending, hslot, hcombine⟩, hnext⟩ := Mailroom.send_error hdelivery hlt hsend
    have hempty : next.pending[node]? = some #[] := by
      rw [hnext]
      exact Array.getElem?_setIfInBounds_self_of_lt hlt
    have hothers : ∀ other, other ≠ node → next.pending[other]? = now.pending[other]? := by
      intro other hne
      rw [hnext]
      exact Array.getElem?_setIfInBounds_ne (Ne.symm hne)
    have hsame : now.SameBut node next := by
      refine ⟨?_, ?_, ?_, hothers⟩
      · rw [hnext]
      · rw [hnext]
      · rw [hnext]
        exact Array.size_setIfInBounds
    have hcleared : next.Clear node := by
      intro slot hslot
      exact (Option.some.inj (hempty.symm.trans hslot)).symm
    obtain ⟨hunsent, hnone⟩ := Mailroom.after_unsent (hclear node) ops
    have heq := (hsame.symm.trans hunsent).eq_of_clear hcleared hnone
    refine ⟨⟨_, pending, Array.getElem?_eq_getElem hlt, hslot, hcombine⟩, hempty, hothers,
      by rw [hnext], fun later => ?_⟩
    rw [Mailroom.after_append, heq]
  · rw [← hpending] at hn ⊢
    exact Mailroom.send_of_le hn message

/-- The sum of two messages for the first of two nodes overflows. Neither is handed out after the
turn, nor is anything else lost. -/
theorem failed_send_overflow : ∃ (room next last : Mailroom Int64),
    Mailroom.create .addressable (.combined addLongs) 2 = .ok room ∧
    (room.after [.send 0 Int64.maxValue, .send 1 7]).send 0 1 = .error .overflow next ∧
    (∀ later, next.after later = room.after (.send 1 7 :: later)) ∧
    (next.after [.send 0 4, .turn]).take 0 = .ok ⟨[4]⟩ last ∧
    (room.after [.send 0 Int64.maxValue, .send 1 7]).send 2 1 =
      .error (.targetRange 2 2) (room.after [.send 0 Int64.maxValue, .send 1 7]) := by
  have hcreate : Mailroom.create (M := Int64) .addressable (.combined addLongs) 2 =
      .ok ⟨.combined addLongs, #[#[], #[]], #[#[], #[]]⟩ := rfl
  obtain ⟨hfails, houtside⟩ := failed_send_harms_target hcreate
    [.send 0 Int64.maxValue, .send 1 7]
  have hsend : (Mailroom.after (⟨.combined addLongs, #[#[], #[]], #[#[], #[]]⟩ : Mailroom Int64)
      [.send 0 Int64.maxValue, .send 1 7]).send 0 1 =
        .error .overflow ⟨.combined addLongs, #[#[], #[7]], #[#[], #[]]⟩ := rfl
  obtain ⟨_, _, _, _, hlater⟩ := hfails 0 1 .overflow _ (by decide) hsend
  exact ⟨_, _, _, hcreate, hsend, hlater, rfl, houtside 2 1 (by decide)⟩

end BulkSync
