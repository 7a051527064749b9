import BulkSync.Desk

namespace BulkSync

variable {M : Type}

/-- What a receiver is handed when these messages were sent to it, in this order: all of them,
or the one that they fold into. -/
def Delivery.Delivers (delivery : Delivery M) (sent received : List M) : Prop :=
  match delivery with
  | .queued => received = sent
  | .combined combine => ∃ folded, combine.fold sent = .ok folded ∧ received = folded.toList

/-- Receivers whose messages can always be folded. -/
def Delivery.Total : Delivery M → Prop
  | .queued => True
  | .combined combine => ∀ x y, ∃ z, combine x y = .ok z

/-- The pending slot of every receiver holds what was logged for it. -/
def Mailroom.Holds (room : Mailroom M) (log : Nat → List M) : Prop :=
  ∀ node slot, room.pending[node]? = some slot →
    room.delivery.Delivers (log node) slot.toList

/-- Two mailrooms for the same receivers, with the same messages delivered. -/
structure Mailroom.Beside (room other : Mailroom M) : Prop where
  delivery : other.delivery = room.delivery
  pending : other.pending.size = room.pending.size
  delivered : other.delivered = room.delivered

theorem fold_append_absorb {combine : Combiner M} {messages : List M} {total : Option M} {m r : M}
    (hf : combine.fold messages = .ok total) (ha : combine.absorb total m = .ok r) :
    combine.fold (messages ++ [m]) = .ok (some r) := by
  cases messages with
  | nil =>
    cases hf
    cases ha
    rfl
  | cons first rest =>
    simp only [Combiner.fold, bind, Except.bind] at hf
    split at hf
    · cases hf
    next x hx =>
      cases hf
      have hm : combine x m = .ok r := ha
      simp [Combiner.fold, List.foldlM_append, hx, hm, bind, Except.bind, pure, Except.pure]

theorem fold_eq_none {combine : Combiner M} {messages : List M}
    (h : combine.fold messages = .ok none) : messages = [] := by
  cases messages with
  | nil => rfl
  | cons first rest =>
    simp only [Combiner.fold, bind, Except.bind] at h
    split at h <;> cases h

namespace Delivery

theorem delivers_nil (delivery : Delivery M) : delivery.Delivers [] [] := by
  cases delivery with
  | queued => rfl
  | combined combine => exact ⟨none, rfl, rfl⟩

/-- One more message for a receiver is one more message that it will be handed. -/
theorem Delivers.deposit {delivery : Delivery M} {sent : List M} {slot slot' : Array M} {m : M}
    (hd : delivery.Delivers sent slot.toList) (h : delivery.deposit m slot = .ok () slot') :
    delivery.Delivers (sent ++ [m]) slot'.toList := by
  cases delivery with
  | queued =>
    cases h
    have hs : slot.toList = sent := hd
    simp [Delivers, hs]
  | combined combine =>
    obtain ⟨folded, hf, hslot⟩ := hd
    have h0 : slot[0]? = folded := by
      rw [← Array.getElem?_toList, hslot]
      cases folded <;> rfl
    simp only [Delivery.deposit, h0] at h
    split at h
    next r hr =>
      cases h
      exact ⟨some r, fold_append_absorb hf hr, rfl⟩
    next => cases h

theorem Delivers.eq_nil_iff {delivery : Delivery M} {sent received : List M}
    (h : delivery.Delivers sent received) : received = [] ↔ sent = [] := by
  cases delivery with
  | queued =>
    have he : received = sent := h
    rw [he]
  | combined combine =>
    obtain ⟨folded, hf, rfl⟩ := h
    constructor
    · intro he
      cases folded with
      | none => exact fold_eq_none hf
      | some m => cases he
    · rintro rfl
      cases hf
      rfl

end Delivery

namespace Mailroom

theorem Beside.refl (room : Mailroom M) : room.Beside room :=
  ⟨rfl, rfl, rfl⟩

theorem Beside.trans {a b c : Mailroom M} (hab : a.Beside b) (hbc : b.Beside c) : a.Beside c :=
  ⟨hbc.delivery.trans hab.delivery, hbc.pending.trans hab.pending,
    hbc.delivered.trans hab.delivered⟩

theorem send_ok {room room' : Mailroom M} {target : Nat} {m : M}
    (h : room.send target m = .ok () room') :
    ∃ slot slot', room.pending[target]? = some slot ∧
      room.delivery.deposit m slot = .ok () slot' ∧
      room' = { room with pending := room.pending.setIfInBounds target slot' } := by
  unfold Mailroom.send at h
  split at h
  next => cases h
  next slot hslot =>
    dsimp only at h
    split at h
    next slot' hd =>
      cases h
      exact ⟨slot, slot', hslot, hd, by rw [Array.setIfInBounds_setIfInBounds]⟩
    next => cases h

theorem send_beside {room room' : Mailroom M} {target : Nat} {m : M}
    (h : room.send target m = .ok () room') :
    room.Beside room' ∧ target < room.pending.size := by
  obtain ⟨slot, slot', hslot, _, rfl⟩ := send_ok h
  exact ⟨⟨rfl, by simp, rfl⟩, (Array.getElem?_eq_some_iff.mp hslot).1⟩

theorem send_holds {room room' : Mailroom M} {target : Nat} {m : M} {log : Nat → List M}
    (hl : room.Holds log) (h : room.send target m = .ok () room') :
    room'.Holds fun node => log node ++ if target = node then [m] else [] := by
  obtain ⟨slot, slot', hslot, hd, rfl⟩ := send_ok h
  intro node other hother
  by_cases he : target = node
  · subst he
    have hlt := (Array.getElem?_eq_some_iff.mp hslot).1
    simp only [Array.getElem?_setIfInBounds_self_of_lt hlt, Option.some.injEq] at hother
    subst hother
    simpa using (hl target slot hslot).deposit hd
  · simp only [Array.getElem?_setIfInBounds_ne he] at hother
    simpa [he] using hl node other hother

theorem sendAll_beside {room room' : Mailroom M} {targets : List Nat} {m : M}
    (h : room.sendAll m targets = .ok () room') :
    room.Beside room' ∧ ∀ target ∈ targets, target < room.pending.size := by
  induction targets generalizing room with
  | nil => cases h; exact ⟨.refl _, by simp⟩
  | cons target rest ih =>
    simp only [Mailroom.sendAll] at h
    split at h
    next next hsend =>
      obtain ⟨hbeside, hlt⟩ := send_beside hsend
      obtain ⟨hrest, hall⟩ := ih h
      refine ⟨hbeside.trans hrest, ?_⟩
      intro t ht
      rcases List.mem_cons.mp ht with rfl | ht
      · exact hlt
      · have hb := hall t ht
        rwa [hbeside.pending] at hb
    next => cases h

/-- A message sent to a list of targets is logged for each target as often as the list has it. -/
theorem sendAll_holds {room room' : Mailroom M} {targets : List Nat} {m : M}
    {log : Nat → List M} (hl : room.Holds log) (h : room.sendAll m targets = .ok () room') :
    room'.Holds fun node => log node ++ List.replicate (targets.count node) m := by
  induction targets generalizing room log with
  | nil => cases h; simpa using hl
  | cons target rest ih =>
    simp only [Mailroom.sendAll] at h
    split at h
    next next hsend =>
      have hh := ih (send_holds hl hsend) h
      intro node slot hslot
      have hnode := hh node slot hslot
      by_cases he : target = node
      · simpa [he, List.replicate_succ] using hnode
      · simpa [he] using hnode
    next => cases h

/-- Nothing but a combiner keeps a message from being sent to receivers that exist. -/
theorem sendAll_exists (m : M) {targets : List Nat} {room : Mailroom M}
    (h : ∀ target ∈ targets, target < room.pending.size) :
    (∃ room', room.sendAll m targets = .ok () room') ∨
      ∃ f room', room.sendAll m targets = .error f room' ∧
        ∃ combine, room.delivery = .combined combine ∧ ∃ x y, combine x y = .error f := by
  induction targets generalizing room with
  | nil => exact .inl ⟨room, rfl⟩
  | cons target rest ih =>
    have hslot := Array.getElem?_eq_getElem (h target (by simp))
    cases hs : room.send target m with
    | ok u room' =>
      have hb := (send_beside hs).1
      have hrest : ∀ t ∈ rest, t < room'.pending.size := by
        intro t ht
        rw [hb.pending]
        exact h t (List.mem_cons_of_mem _ ht)
      simp only [Mailroom.sendAll, hs]
      rcases ih hrest with hok | ⟨f, room'', hf, combine, hc, hxy⟩
      · exact .inl hok
      · exact .inr ⟨f, room'', hf, combine, by rw [← hc, hb.delivery], hxy⟩
    | error f room' =>
      have htarget := h target (List.mem_cons_self ..)
      refine .inr ⟨f, room', by simp only [Mailroom.sendAll, hs], ?_⟩
      simp only [Mailroom.send, hslot] at hs
      cases hd : room.delivery with
      | queued => simp [hd, Delivery.deposit] at hs
      | combined combine =>
        refine ⟨combine, rfl, ?_⟩
        simp only [hd, Delivery.deposit] at hs
        cases hpending : (room.pending[target])[0]? with
        | none => simp [hpending, Combiner.absorb] at hs
        | some p =>
          cases hcombine : combine p m with
          | ok r => simp [hpending, Combiner.absorb, hcombine] at hs
          | error g =>
            simp only [hpending, Combiner.absorb, hcombine] at hs
            cases hs
            exact ⟨p, m, hcombine⟩

theorem sendAll_total {room : Mailroom M} {targets : List Nat} (ht : room.delivery.Total)
    (h : ∀ target ∈ targets, target < room.pending.size) (m : M) :
    ∃ room', room.sendAll m targets = .ok () room' := by
  rcases sendAll_exists m h with hok | ⟨f, room', -, combine, hc, x, y, hf⟩
  · exact hok
  · rw [hc] at ht
    obtain ⟨z, hz⟩ := ht x y
    rw [hz] at hf
    cases hf

theorem send_total {room : Mailroom M} {target : Nat} (ht : room.delivery.Total)
    (h : target < room.pending.size) (m : M) : ∃ room', room.send target m = .ok () room' := by
  obtain ⟨room', hs⟩ := sendAll_total ht (fun _ hmem => List.mem_singleton.mp hmem ▸ h) m
  simp only [Mailroom.sendAll] at hs
  split at hs
  next sent hsent => exact ⟨sent, hsent⟩
  next => cases hs

theorem create_ok {memory : Memory} {delivery : Delivery M} {nodes : Nat} {room : Mailroom M}
    (h : Mailroom.create memory delivery nodes = .ok room) :
    room = ⟨delivery, Array.replicate nodes #[], Array.replicate nodes #[]⟩ := by
  simp only [Mailroom.create, bind, Except.bind] at h
  split at h
  · cases h
  · split at h
    · cases h
    · cases h
      rfl

theorem turn_holds (room : Mailroom M) : room.turn.Holds fun _ => [] := by
  intro node slot hslot
  simp only [turn, Array.getElem?_map, Option.map_eq_some_iff] at hslot
  obtain ⟨_, _, rfl⟩ := hslot
  exact Delivery.delivers_nil _

theorem take_ok {room room' : Mailroom M} {node : Nat} {messages : Messages M}
    (h : room.take node = .ok messages room') :
    ∃ slot, room.delivered[node]? = some slot ∧ messages = ⟨slot.toList⟩ ∧
      room' = { room with delivered := room.delivered.setIfInBounds node #[] } := by
  unfold Mailroom.take at h
  split at h
  next => cases h
  next slot hslot => cases h; exact ⟨slot, hslot, rfl, rfl⟩

end Mailroom

end BulkSync
