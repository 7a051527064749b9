import BulkSync.Proofs.MailHistories
import BulkSync.Proofs.Slots

namespace BulkSync

variable {M : Type}

theorem Messages.read_eq (limit : Nat) (messages : Messages M) :
    messages.read limit = (messages.waiting.take limit, ⟨messages.waiting.drop limit⟩) := by
  induction limit generalizing messages with
  | zero => rfl
  | succ limit ih =>
    obtain ⟨waiting⟩ := messages
    cases waiting with
    | nil => rfl
    | cons m rest => simp [Messages.read, Messages.next?, ih]

/-- However much has been read, the length of the rest tells how many messages are still to come. -/
theorem Messages.rest_counted (messages : Messages M) (count : Nat) :
    let rest := (messages.read count).2
    (messages.read count).1 ++ (rest.read rest.length).1 = messages.waiting ∧
      (∀ more, (rest.read more).1.length = min more rest.length) ∧
      (rest.isEmpty = true ↔ rest.length = 0) := by
  intro rest
  refine ⟨?_, fun more => ?_, ?_⟩
  · have hrest : (rest.read rest.length).1 = rest.waiting := by
      rw [Messages.read_eq]
      exact List.take_length
    have hleft : rest.waiting = messages.waiting.drop count := by
      simp only [rest, Messages.read_eq]
    rw [hrest, hleft, Messages.read_eq]
    exact List.take_append_drop count messages.waiting
  · rw [Messages.read_eq]
    exact List.length_take
  · exact List.isEmpty_iff_length_eq_zero

namespace Mailroom

/-- What a mailroom holds after a history: what was sent to a receiver since the last turn is
pending, and what is due to it is delivered. -/
structure Keeps (room : Mailroom M) (delivery : Delivery M) (nodes : Nat)
    (ops : List (MailOp M)) : Prop where
  kept : room.delivery = delivery
  pendingSize : room.pending.size = receivers nodes ops
  deliveredSize : room.delivered.size = receivers nodes ops
  pending : ∀ node slot, room.pending[node]? = some slot →
    delivery.Delivers (sentTo node (sinceTurn ops)) slot.toList
  delivered : ∀ node slot, room.delivered[node]? = some slot →
    delivery.Delivers (due node ops) slot.toList

section Serving

variable {room next : Mailroom M} {delivery : Delivery M} {nodes : Nat} {ops : List (MailOp M)}

theorem Keeps.create {memory : Memory} (h : Mailroom.create memory delivery nodes = .ok room) :
    room.Keeps delivery nodes [] := by
  have hslot : ∀ (node : Nat) (slot : Array M),
      (Array.replicate nodes (#[] : Array M))[node]? = some slot → slot = #[] := by
    intro node slot h
    rw [Array.getElem?_replicate] at h
    split at h
    next => exact (Option.some.inj h).symm
    next => cases h
  rw [create_ok h]
  refine ⟨rfl, Array.size_replicate, Array.size_replicate, fun node slot h => ?_,
    fun node slot h => ?_⟩
  · rw [hslot node slot h]
    exact delivery.delivers_nil
  · rw [hslot node slot h]
    exact delivery.delivers_nil

/-- A message that is accepted is pending for its receiver and changes nothing for the others. -/
theorem Keeps.send (h : room.Keeps delivery nodes ops) {target : Nat} {message : M}
    (hs : room.send target message = .ok () next) :
    next.Keeps delivery nodes (ops ++ [.send target message]) := by
  obtain ⟨hbeside, _⟩ := send_beside hs
  have hholds : room.Holds fun node => sentTo node (sinceTurn ops) := by
    intro node slot hslot
    rw [h.kept]
    exact h.pending node slot hslot
  have hnext := send_holds hholds hs
  have hreceivers : receivers nodes (ops ++ [.send target message]) = receivers nodes ops :=
    receivers_concat nodes rfl
  exact {
    kept := hbeside.delivery.trans h.kept
    pendingSize := by rw [hreceivers, hbeside.pending, h.pendingSize]
    deliveredSize := by rw [hreceivers, hbeside.delivered, h.deliveredSize]
    pending := by
      intro node slot hslot
      have hnode := hnext node slot hslot
      rw [hbeside.delivery, h.kept] at hnode
      rw [sentTo_send]
      exact hnode
    delivered := by
      intro node slot hslot
      rw [hbeside.delivered] at hslot
      rw [due_send]
      exact h.delivered node slot hslot }

/-- A message for nobody leaves everything as it was. -/
theorem Keeps.refuse (h : room.Keeps delivery nodes ops) {target : Nat} (message : M)
    (ht : room.pending.size ≤ target) :
    room.Keeps delivery nodes (ops ++ [.send target message]) := by
  have hreceivers : receivers nodes (ops ++ [.send target message]) = receivers nodes ops :=
    receivers_concat nodes rfl
  refine ⟨h.kept, hreceivers ▸ h.pendingSize, hreceivers ▸ h.deliveredSize, ?_, ?_⟩
  · intro node slot hslot
    have hlt := (Array.getElem?_eq_some_iff.mp hslot).1
    have hne : target ≠ node := by omega
    rw [sentTo_send, if_neg hne, List.append_nil]
    exact h.pending node slot hslot
  · intro node slot hslot
    rw [due_send]
    exact h.delivered node slot hslot

theorem Keeps.turn (h : room.Keeps delivery nodes ops) :
    room.turn.Keeps delivery nodes (ops ++ [.turn]) := by
  have hreceivers : receivers nodes (ops ++ [.turn]) = receivers nodes ops :=
    receivers_concat nodes rfl
  refine ⟨h.kept, ?_, ?_, ?_, ?_⟩
  · rw [hreceivers, ← h.deliveredSize]
    exact Array.size_map
  · rw [hreceivers, ← h.pendingSize]
    rfl
  · intro node slot hslot
    rw [sinceTurn_turn]
    have hnil := turn_holds room node slot hslot
    rwa [show room.turn.delivery = delivery from h.kept] at hnil
  · intro node slot hslot
    rw [due_turn]
    exact h.pending node slot hslot

theorem Keeps.take (h : room.Keeps delivery nodes ops) {node : Nat} {messages : Messages M}
    (ht : room.take node = .ok messages next) :
    next.Keeps delivery nodes (ops ++ [.take node]) := by
  obtain ⟨taken, htaken, _, rfl⟩ := take_ok ht
  have hlt := (Array.getElem?_eq_some_iff.mp htaken).1
  have hreceivers : receivers nodes (ops ++ [.take node]) = receivers nodes ops :=
    receivers_concat nodes rfl
  refine ⟨h.kept, hreceivers ▸ h.pendingSize, ?_, ?_, ?_⟩
  · rw [hreceivers, ← h.deliveredSize]
    exact Array.size_setIfInBounds
  · intro v slot hslot
    rw [sentTo_take]
    exact h.pending v slot hslot
  · intro v slot hslot
    rw [due_take]
    by_cases he : node = v
    · subst he
      rw [Array.getElem?_setIfInBounds_self_of_lt hlt] at hslot
      rw [if_pos rfl, ← Option.some.inj hslot]
      exact delivery.delivers_nil
    · rw [Array.getElem?_setIfInBounds_ne he] at hslot
      rw [if_neg he]
      exact h.delivered v slot hslot

/-- Taking for nobody leaves everything as it was. -/
theorem Keeps.miss (h : room.Keeps delivery nodes ops) {node : Nat}
    (hn : room.delivered.size ≤ node) : room.Keeps delivery nodes (ops ++ [.take node]) := by
  have hreceivers : receivers nodes (ops ++ [.take node]) = receivers nodes ops :=
    receivers_concat nodes rfl
  refine ⟨h.kept, hreceivers ▸ h.pendingSize, hreceivers ▸ h.deliveredSize, ?_, ?_⟩
  · intro v slot hslot
    rw [sentTo_take]
    exact h.pending v slot hslot
  · intro v slot hslot
    have hlt := (Array.getElem?_eq_some_iff.mp hslot).1
    have hne : node ≠ v := by omega
    rw [due_take, if_neg hne]
    exact h.delivered v slot hslot

theorem Keeps.release (h : room.Keeps delivery nodes ops) :
    room.release.Keeps delivery nodes (ops ++ [.release]) := by
  have hnone : receivers nodes (ops ++ [.release]) = 0 := receivers_of_release nodes (by simp)
  refine ⟨h.kept, hnone.symm, hnone.symm, ?_, ?_⟩
  · intro node slot hslot
    cases hslot
  · intro node slot hslot
    cases hslot

theorem take_of_lt {node : Nat} (h : node < room.delivered.size) :
    room.take node = .ok ⟨room.delivered[node].toList⟩
      { room with delivered := room.delivered.setIfInBounds node #[] } := by
  simp only [Mailroom.take, Array.getElem?_eq_getElem h]

theorem take_of_le {node : Nat} (h : room.delivered.size ≤ node) :
    room.take node = .error (.targetRange node room.delivered.size) room := by
  simp only [Mailroom.take, Array.getElem?_eq_none h]

theorem send_of_le {target : Nat} (h : room.pending.size ≤ target) (message : M) :
    room.send target message = .error (.targetRange target room.pending.size) room := by
  simp only [Mailroom.send, Array.getElem?_eq_none h]

/-- Whatever is asked of a mailroom, it goes on to hold what the history says, unless a combiner
fails. -/
theorem Keeps.serve (h : room.Keeps delivery nodes ops) (op : MailOp M)
    (calm : ∀ target message, op = .send target message → target < room.pending.size →
      ∃ next, room.send target message = .ok () next) :
    (room.serve op).Keeps delivery nodes (ops ++ [op]) := by
  cases op with
  | send target message =>
    rcases Nat.lt_or_ge target room.pending.size with hlt | hge
    · obtain ⟨next, hs⟩ := calm target message rfl hlt
      simp only [Mailroom.serve, hs]
      exact h.send hs
    · simp only [Mailroom.serve, send_of_le hge]
      exact h.refuse message hge
  | turn => exact h.turn
  | take node =>
    rcases Nat.lt_or_ge node room.delivered.size with hlt | hge
    · have ht := take_of_lt hlt
      simp only [Mailroom.serve, ht]
      exact h.take ht
    · simp only [Mailroom.serve, take_of_le hge]
      exact h.miss hge
  | release => exact h.release

/-- A history in which no combiner fails: every message for a receiver that exists is accepted. -/
def Calm (room : Mailroom M) (ops : List (MailOp M)) : Prop :=
  ∀ earlier target message, earlier ++ [.send target message] <+: ops →
    target < (room.after earlier).pending.size →
      ∃ next, (room.after earlier).send target message = .ok () next

theorem calm_nil (room : Mailroom M) : room.Calm [] := by
  intro earlier target message hle
  simp at hle

theorem calm_concat_iff {op : MailOp M} : room.Calm (ops ++ [op]) ↔ room.Calm ops ∧
    ∀ target message, op = .send target message → target < (room.after ops).pending.size →
      ∃ next, (room.after ops).send target message = .ok () next := by
  constructor
  · intro calm
    refine ⟨fun earlier target message hle => ?_, fun target message hop => ?_⟩
    · exact calm earlier target message (hle.trans (List.prefix_append ops [op]))
    · subst hop
      exact calm ops target message (List.prefix_refl _)
  · rintro ⟨calm, last⟩ earlier target message hle
    rcases List.prefix_concat_iff.mp hle with heq | hle
    · obtain ⟨rfl, hop⟩ := List.append_inj' heq rfl
      exact last target message (List.singleton_inj.mp hop).symm
    · exact calm earlier target message hle

theorem calm_two {first both : Mailroom M} {target : Nat} {a b : M}
    (hfirst : room.send target a = .ok () first) (hboth : first.send target b = .ok () both) :
    room.Calm [.send target a, .send target b, .turn] := by
  have hafter : room.after [.send target a] = first := by
    simp only [Mailroom.after, List.foldl_cons, List.foldl_nil, Mailroom.serve, hfirst]
  have hone : room.Calm ([] ++ [.send target a]) := by
    refine calm_concat_iff.mpr ⟨calm_nil room, ?_⟩
    rintro _ _ ⟨⟩ _
    exact ⟨first, hfirst⟩
  have htwo : room.Calm ([.send target a] ++ [.send target b]) := by
    refine calm_concat_iff.mpr ⟨hone, ?_⟩
    rintro _ _ ⟨⟩ _
    exact ⟨both, by rw [hafter, hboth]⟩
  exact calm_concat_iff.mpr ⟨htwo, by simp⟩

theorem Keeps.after (h : room.Keeps delivery nodes []) (calm : room.Calm ops) :
    (room.after ops).Keeps delivery nodes ops := by
  -- on the history from its end, as requests come
  induction ops using List.reverseRecOn with
  | nil => exact h
  | append_singleton ops op ih =>
    obtain ⟨hearlier, hlast⟩ := calm_concat_iff.mp calm
    rw [after_concat]
    exact (ih hearlier).serve op hlast

theorem serve_delivery (room : Mailroom M) (op : MailOp M) :
    (room.serve op).delivery = room.delivery := by
  cases op with
  | send target message =>
    simp only [Mailroom.serve, Mailroom.send]
    cases room.pending[target]? with
    | none => rfl
    | some slot =>
      dsimp only
      cases room.delivery.deposit message slot <;> rfl
  | turn => rfl
  | take node =>
    simp only [Mailroom.serve, Mailroom.take]
    cases room.delivered[node]? <;> rfl
  | release => rfl

theorem after_delivery (room : Mailroom M) (ops : List (MailOp M)) :
    (room.after ops).delivery = room.delivery := by
  induction ops using List.reverseRecOn with
  | nil => rfl
  | append_singleton ops op ih => rw [after_concat, serve_delivery, ih]

theorem Keeps.taken (h : room.Keeps delivery nodes ops) {node : Nat}
    (hn : node < receivers nodes ops) :
    ∃ received next, room.take node = .ok ⟨received⟩ next ∧
      delivery.Delivers (due node ops) received := by
  have hlt : node < room.delivered.size := by rwa [h.deliveredSize]
  exact ⟨_, _, take_of_lt hlt, h.delivered node _ (Array.getElem?_eq_getElem hlt)⟩

theorem Keeps.take_outside (h : room.Keeps delivery nodes ops) {node : Nat}
    (hn : receivers nodes ops ≤ node) :
    room.take node = .error (.targetRange node (receivers nodes ops)) room := by
  rw [← h.deliveredSize] at hn ⊢
  exact take_of_le hn

theorem Keeps.send_outside (h : room.Keeps delivery nodes ops) {target : Nat}
    (ht : receivers nodes ops ≤ target) (message : M) :
    room.send target message = .error (.targetRange target (receivers nodes ops)) room := by
  rw [← h.pendingSize] at ht ⊢
  exact send_of_le ht message

/-- If messages can always be folded, no combiner fails. -/
theorem calm_of_total (h : room.delivery.Total) (ops : List (MailOp M)) : room.Calm ops := by
  intro earlier target message _ hlt
  refine send_total ?_ hlt message
  rw [after_delivery]
  exact h

end Serving

end Mailroom

/-- However sends, turns, takes and releases follow each other, a mailroom that keeps all messages
hands out for a receiver exactly what was sent to it between the last two turns, in order, and only
once. What is left unread when a second turn comes is gone. For whoever is not a receiver, as
everyone after a release, nothing is accepted or handed out, and nothing changes. However much of
what was handed out has been read, its length tells how many messages are still to come. -/
theorem queue_hands_out_last_period {memory : Memory} {nodes : Nat} {room : Mailroom M}
    (created : Mailroom.create memory .queued nodes = .ok room) (ops : List (MailOp M)) :
    let now := room.after ops
    (∀ node < receivers nodes ops,
      (∃ next, now.take node = .ok ⟨due node ops⟩ next) ∧
      ∀ message, ∃ next, now.send node message = .ok () next) ∧
    (∀ earlier later node, ops = earlier ++ .turn :: later → .turn ∈ later →
      sentTo node later = [] → ∀ messages next, now.take node = .ok messages next →
        messages.waiting = []) ∧
    (∀ node, receivers nodes ops ≤ node →
      now.take node = .error (.targetRange node (receivers nodes ops)) now ∧
      ∀ message, now.send node message = .error (.targetRange node (receivers nodes ops)) now) ∧
    (.release ∈ ops → receivers nodes ops = 0) ∧
    ∀ (messages : Messages M) (count : Nat),
      let rest := (messages.read count).2
      (messages.read count).1 ++ (rest.read rest.length).1 = messages.waiting ∧
        (∀ more, (rest.read more).1.length = min more rest.length) ∧
        (rest.isEmpty = true ↔ rest.length = 0) := by
  intro now
  have hstart : room.Keeps .queued nodes [] := .create created
  have htotal : room.delivery.Total := hstart.kept ▸ trivial
  have hkeeps : now.Keeps .queued nodes ops := hstart.after (Mailroom.calm_of_total htotal ops)
  have htaken : ∀ node < receivers nodes ops, ∃ next, now.take node = .ok ⟨due node ops⟩ next := by
    intro node hn
    obtain ⟨received, next, htake, hdelivers⟩ := hkeeps.taken hn
    have hreceived : received = due node ops := hdelivers
    exact ⟨next, by rw [htake, hreceived]⟩
  refine ⟨fun node hn => ⟨htaken node hn, fun message => ?_⟩, ?_, ?_, ?_, ?_⟩
  · have hlt : node < now.pending.size := by rwa [hkeeps.pendingSize]
    exact Mailroom.send_total (hkeeps.kept ▸ trivial) hlt message
  · intro earlier later node hops hturn hnone messages next htake
    have hn : node < receivers nodes ops := by
      by_contra hge
      rw [hkeeps.take_outside (Nat.le_of_not_lt hge)] at htake
      cases htake
    obtain ⟨next', htake'⟩ := htaken node hn
    rw [htake, hops, due_of_two_turns hturn hnone] at htake'
    cases htake'
    rfl
  · exact fun node hn => ⟨hkeeps.take_outside hn, fun message => hkeeps.send_outside hn message⟩
  · exact receivers_of_release nodes
  · exact Messages.rest_counted

/-- Of two messages for the last of two nodes, one sent before and one after a message for nobody,
both are handed out after a turn; one that is sent later is not. -/
theorem queue_hands_out_two : ∃ (room next : Mailroom Nat),
    Mailroom.create .addressable .queued 2 = .ok room ∧
    (room.after [.send 1 10, .send 7 99, .send 1 11, .turn, .send 1 20]).take 1 =
      .ok ⟨[10, 11]⟩ next := by
  have hcreate : Mailroom.create (M := Nat) .addressable .queued 2 =
      .ok ⟨.queued, #[#[], #[]], #[#[], #[]]⟩ := rfl
  obtain ⟨next, htake⟩ := ((queue_hands_out_last_period hcreate
    [.send 1 10, .send 7 99, .send 1 11, .turn, .send 1 20]).1 1 (by decide)).1
  exact ⟨_, next, hcreate, htake⟩

end BulkSync
