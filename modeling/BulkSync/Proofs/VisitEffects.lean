import BulkSync.Proofs.Visits

namespace BulkSync

variable {M R : Type}

/-- Two states that hold the same for a node: its values, its halt bit and the messages
delivered to it. -/
structure State.AgreeAt (node : Nat) (s t : State M) : Prop where
  values : s.values.AgreeAt node t.values
  bit : s.halted.bit node = t.halted.bit node
  delivered : s.mail.delivered[node]? = t.mail.delivered[node]?

/-- What nothing in a superstep changes before its barrier. -/
structure State.Fits (s t : State M) : Prop where
  delivery : t.mail.delivery = s.mail.delivery
  pending : t.mail.pending.size = s.mail.pending.size
  delivered : t.mail.delivered.size = s.mail.delivered.size
  sound : s.halted.Sound → t.halted.Sound
  nodes : t.halted.nodes = s.halted.nodes
  declared : t.aggregates.declared = s.aggregates.declared
  published : t.aggregates.published = s.aggregates.published

/-- All that the visit of a node can have done, told by the callbacks it ran. -/
structure VisitEffect (superstep task node : Nat) (new : List (Entry M R)) (d e : Desk M) :
    Prop where
  fits : d.state.Fits e.state
  gathered : e.state.aggregates.gathered = d.state.aggregates.gathered
  frame : ∀ other, other ≠ node → d.state.AgreeAt other e.state
  bit : e.state.halted.bit node =
    if new = [] then d.state.halted.bit node else new.any Entry.voted
  holds : ∀ log, d.state.mail.Holds log →
    e.state.mail.Holds fun v => log v ++ new.flatMap (Entry.sentTo v)
  reach : ∀ v, d.state.mail.pending.size ≤ v → new.flatMap (Entry.sentTo v) = []
  signals : e.state.signals = d.state.signals.raiseAll (new.flatMap Entry.raised)
  ended : e.tally.ended = d.tally.ended
  computed : e.tally.computed = d.tally.computed + new.countP fun x => x.task?.isSome
  sent : e.tally.sent = d.tally.sent + (new.map Entry.sends).sum
  partials : ∀ given, (d.state.aggregates.declared.map Aggregator.key).Nodup →
    Totals.Gathers d.state.aggregates.declared given d.tally.partials →
    Totals.Gathers d.state.aggregates.declared
      (fun key => given key ++ new.flatMap (Entry.gave key)) e.tally.partials
  entries : ∀ x ∈ new, x.node? = some node ∧ (x.task? = none ∨ x.task? = some task) ∧
    (x.superstep? = none ∨ x.superstep? = some superstep)

theorem State.AgreeAt.refl (node : Nat) (s : State M) : s.AgreeAt node s :=
  ⟨.refl node s.values, rfl, rfl⟩

theorem State.AgreeAt.trans {node : Nat} {s t u : State M} (hst : s.AgreeAt node t)
    (htu : t.AgreeAt node u) : s.AgreeAt node u :=
  ⟨hst.values.trans htu.values, hst.bit.trans htu.bit, hst.delivered.trans htu.delivered⟩

theorem State.Fits.refl (s : State M) : s.Fits s :=
  ⟨rfl, rfl, rfl, id, rfl, rfl, rfl⟩

theorem State.Fits.trans {s t u : State M} (hst : s.Fits t) (htu : t.Fits u) : s.Fits u where
  delivery := htu.delivery.trans hst.delivery
  pending := htu.pending.trans hst.pending
  delivered := htu.delivered.trans hst.delivered
  sound := fun h => htu.sound (hst.sound h)
  nodes := htu.nodes.trans hst.nodes
  declared := htu.declared.trans hst.declared
  published := htu.published.trans hst.published

theorem State.taken_fits (node : Nat) (s : State M) : s.Fits (s.taken node) :=
  ⟨rfl, rfl, by simp [State.taken], id, rfl, rfl, rfl⟩

theorem State.taken_agreeAt {node other : Nat} (hne : other ≠ node) (s : State M) :
    s.AgreeAt other (s.taken node) :=
  ⟨.refl _ _, rfl, by simp [State.taken, Array.getElem?_setIfInBounds_ne (Ne.symm hne)]⟩

theorem State.woken_fits {node : Nat} {woken : HaltSet} {s : State M}
    (h : s.halted.wake node = .ok () woken) : s.Fits (s.woken node woken) := by
  have htaken := State.taken_fits node s
  refine ⟨htaken.delivery, htaken.pending, htaken.delivered, ?_, ?_, rfl, rfl⟩
  · exact fun hs => (HaltSet.wake_sound hs h).1
  · obtain ⟨_, _, he⟩ := HaltSet.update_ok h
    rw [State.woken_halted, he]

theorem State.woken_agreeAt {node other : Nat} {woken : HaltSet} {s : State M}
    (hne : other ≠ node) (h : s.halted.wake node = .ok () woken) :
    s.AgreeAt other (s.woken node woken) where
  values := .refl other _
  bit := by
    rw [State.woken_halted, HaltSet.wake_bit h]
    simp [hne]
  delivered := (State.taken_agreeAt hne s).delivered

theorem Initialized.ownPerformed {engine : Engine M R} {superstep node : Nat} {s t : State M}
    {inits : List (Entry M R)} (h : Initialized engine superstep node s inits t) :
    t.mail = s.mail ∧ t.halted = s.halted ∧ t.aggregates = s.aggregates ∧
      t.signals = s.signals.raiseAll (inits.flatMap Entry.raised) ∧
      (∀ other, other ≠ node → s.values.AgreeAt other t.values) ∧
      ∀ x ∈ inits, ∃ calls result, x = .init node calls result := by
  cases h with
  | later => exact ⟨rfl, rfl, rfl, rfl, fun other _ => .refl other _, by simp⟩
  | @first calls r t h0 hp =>
    have ho := perform_ownPerformed engine.graph node
      (engine.computation.init node engine.graph.nodes) (s := s) (by rw [hp])
    rw [hp] at ho
    refine ⟨ho.mail, ho.halted, ho.aggregates, ?_, ho.values, ?_⟩
    · simpa [Entry.raised] using ho.signals
    · intro x hx
      exact ⟨calls, .ok r, List.mem_singleton.mp hx⟩

theorem Initialized.fits {engine : Engine M R} {superstep node : Nat} {s t : State M}
    {inits : List (Entry M R)} (h : Initialized engine superstep node s inits t) : s.Fits t := by
  obtain ⟨hmail, hhalted, haggregates, _⟩ := h.ownPerformed
  exact ⟨by rw [hmail], by rw [hmail], by rw [hmail], fun hs => by rwa [hhalted], by rw [hhalted],
    by rw [haggregates], by rw [haggregates]⟩

theorem Initialized.agreeAt {engine : Engine M R} {superstep node other : Nat} {s t : State M}
    {inits : List (Entry M R)} (h : Initialized engine superstep node s inits t)
    (hne : other ≠ node) : s.AgreeAt other t := by
  obtain ⟨hmail, hhalted, _, _, hvalues, _⟩ := h.ownPerformed
  exact ⟨hvalues other hne, by rw [hhalted], by rw [hmail]⟩

theorem Performed.fits {node : Nat} {calls : List (Call (nodeSignature M))} {d e : Desk M}
    (h : Performed node calls d e) : d.state.Fits e.state :=
  ⟨h.mail.delivery, h.mail.pending, by rw [h.mail.delivered], h.sound, h.nodes,
    by rw [h.aggregates], by rw [h.aggregates]⟩

theorem Performed.agreeAt {node other : Nat} {calls : List (Call (nodeSignature M))} {d e : Desk M}
    (h : Performed node calls d e) (hne : other ≠ node) : d.state.AgreeAt other e.state where
  values := h.values other hne
  bit := by
    rw [h.bits]
    simp [hne]
  delivered := by rw [h.mail.delivered]

theorem inits_silent {node : Nat} {inits : List (Entry M R)}
    (h : ∀ x ∈ inits, ∃ calls result, x = .init node calls result) :
    (∀ v, inits.flatMap (Entry.sentTo v) = []) ∧ (inits.map Entry.sends).sum = 0 ∧
      (∀ key, inits.flatMap (Entry.gave key) = []) ∧ inits.any Entry.voted = false ∧
      (inits.countP fun x => x.task?.isSome) = 0 := by
  induction inits with
  | nil => simp
  | cons x rest ih =>
    obtain ⟨calls, result, rfl⟩ := h x (by simp)
    obtain ⟨hsent, hsends, hgave, hvoted, hcount⟩ := ih fun y hy => h y (List.mem_cons_of_mem _ hy)
    refine ⟨?_, ?_, ?_, ?_, ?_⟩
    · intro v
      simp [Entry.sentTo, hsent]
    · simp [Entry.sends, hsends]
    · intro key
      simp [Entry.gave, hgave]
    · simp [Entry.voted, hvoted]
    · rw [List.countP_cons, hcount]
      rfl

/-- Executing the visit of a node changes no value, no halt bit and no delivered message of
another node, and is accounted for by its callbacks. -/
theorem Visited.effect {engine : Engine M R} {superstep task node : Nat} {d e : Desk M}
    {new : List (Entry M R)} (h : Visited engine superstep task node d new e) :
    VisitEffect superstep task node new d e := by
  cases h with
  | asleep =>
    exact {
      fits := State.taken_fits node d.state
      gathered := rfl
      frame := fun other hne => State.taken_agreeAt hne d.state
      bit := rfl
      holds := fun log hl => by
        have hh : (d.state.taken node).mail.Holds log := hl
        simpa using hh
      reach := fun _ _ => rfl
      signals := rfl
      ended := rfl
      computed := rfl
      sent := rfl
      partials := fun given _ hg => by simpa using hg
      entries := by simp }
  | @awake slot woken inits begun calls r e delivered due wake init compute =>
    obtain ⟨hmail, hhalted, haggregates, hsignals, _, hinits⟩ := init.ownPerformed
    simp only [State.woken_halted, State.woken_mail, State.woken_aggregates,
      State.woken_signals] at hmail hhalted haggregates hsignals
    obtain ⟨hsent, hsends, hgave, hvoted, hcount⟩ := inits_silent hinits
    have hp := perform_performed engine.graph node (engine.computation.compute
      ⟨node, superstep, engine.graph.nodes⟩ ⟨slot.toList⟩) (d := ⟨begun, d.tally⟩) (by rw [compute])
    rw [compute] at hp
    exact {
      fits := (State.woken_fits wake).trans (init.fits.trans hp.fits)
      gathered := by rw [hp.aggregates, haggregates]
      frame := fun other hne =>
        (State.woken_agreeAt hne wake).trans ((init.agreeAt hne).trans (hp.agreeAt hne))
      bit := by
        rw [hp.bits]
        simp [hhalted, HaltSet.wake_bit wake, hvoted, Entry.voted]
      holds := fun log hl => by
        have hh := hp.holds log (by rw [hmail]; exact hl)
        simpa [hsent, Entry.sentTo] using hh
      reach := fun v hv => by
        have hh := hp.reach v (by rw [hmail]; exact hv)
        simpa [hsent, Entry.sentTo] using hh
      signals := by
        rw [hp.signals, hsignals, ← raiseAll_append]
        simp [Entry.raised]
      ended := hp.ended
      computed := by
        rw [List.countP_append, hcount, hp.computed]
        simp [Entry.task?]
      sent := by
        rw [List.map_append, List.sum_append, hsends, hp.sent]
        simp [Entry.sends]
      partials := fun given hd hg => by
        have hh := hp.partials given (by rw [haggregates]; exact hd) (by rw [haggregates]; exact hg)
        rw [haggregates] at hh
        simpa [hgave, Entry.gave] using hh
      entries := by
        intro x hx
        rcases List.mem_append.mp hx with hx | hx
        · obtain ⟨calls, result, rfl⟩ := hinits x hx
          exact ⟨rfl, .inl rfl, .inl rfl⟩
        · rw [List.mem_singleton.mp hx]
          exact ⟨rfl, .inr rfl, .inr rfl⟩ }

end BulkSync
