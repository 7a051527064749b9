import BulkSync.Proofs.HaltBits
import BulkSync.Proofs.Performance
import BulkSync.Proofs.Served

namespace BulkSync

variable {M R : Type}

/-- All that a callback can have done in which a node was answered these calls. -/
structure Performed (node : Nat) (calls : List (Call (nodeSignature M))) (d e : Desk M) : Prop where
  mail : d.state.mail.Beside e.state.mail
  holds : ∀ log, d.state.mail.Holds log →
    e.state.mail.Holds fun v => log v ++ calls.flatMap (Call.sentTo v)
  reach : ∀ v, d.state.mail.pending.size ≤ v → calls.flatMap (Call.sentTo v) = []
  sound : d.state.halted.Sound → e.state.halted.Sound
  nodes : e.state.halted.nodes = d.state.halted.nodes
  bits : ∀ v, e.state.halted.bit v =
    (d.state.halted.bit v || (calls.any Call.isVote && decide (v = node)))
  aggregates : e.state.aggregates = d.state.aggregates
  signals : e.state.signals = d.state.signals.raiseAll (calls.flatMap Call.raised)
  values : ∀ other, other ≠ node → d.state.values.AgreeAt other e.state.values
  computed : e.tally.computed = d.tally.computed
  ended : e.tally.ended = d.tally.ended
  sent : e.tally.sent = d.tally.sent + (calls.map Call.sends).sum
  partials : ∀ given, (d.state.aggregates.declared.map Aggregator.key).Nodup →
    Totals.Gathers d.state.aggregates.declared given d.tally.partials →
    Totals.Gathers d.state.aggregates.declared
      (fun key => given key ++ calls.flatMap (Call.gave key)) e.tally.partials

theorem raiseAll_append (signals : Signals) (first later : List Signal) :
    signals.raiseAll (first ++ later) = (signals.raiseAll first).raiseAll later := by
  simp [Signals.raiseAll]

theorem Performed.nil (node : Nat) (d : Desk M) : Performed node [] d d where
  mail := .refl _
  holds := fun log hl => by simpa using hl
  reach := fun _ _ => rfl
  sound := id
  nodes := rfl
  bits := fun v => by simp
  aggregates := rfl
  signals := rfl
  values := fun other _ => .refl other _
  computed := rfl
  ended := rfl
  sent := rfl
  partials := fun given _ hg => by simpa using hg

theorem Performed.snoc {node : Nat} {calls : List (Call (nodeSignature M))}
    {call : Call (nodeSignature M)} {d e e' : Desk M} (h : Performed node calls d e)
    (hs : Served node call e e') : Performed node (calls ++ [call]) d e' := by
  have hsound : e.state.halted.Sound →
      e'.state.halted.Sound ∧ e'.state.halted.nodes = e.state.halted.nodes := by
    intro he
    have hh := hs.halted
    split at hh
    · exact HaltSet.halt_sound he hh
    · rw [hh]; exact ⟨he, rfl⟩
  have hnodes : e'.state.halted.nodes = e.state.halted.nodes := by
    have hh := hs.halted
    split at hh
    · obtain ⟨_, _, he⟩ := HaltSet.update_ok hh
      rw [he]
    · rw [hh]
  have hbits : ∀ v, e'.state.halted.bit v =
      (e.state.halted.bit v || (call.isVote && decide (v = node))) := by
    intro v
    have hh := hs.halted
    split at hh
    next hv => rw [HaltSet.halt_bit hh, hv, Bool.true_and]
    next hv => simp [hh, hv]
  exact {
    mail := h.mail.trans hs.mail
    holds := fun log hl => by simpa using hs.holds _ (h.holds log hl)
    reach := fun v hv => by
      rw [List.flatMap_append, h.reach v hv, List.flatMap_singleton,
        hs.reach v (h.mail.pending ▸ hv)]
      rfl
    sound := fun hd => (hsound (h.sound hd)).1
    nodes := hnodes.trans h.nodes
    bits := fun v => by
      rw [hbits, h.bits, Bool.or_assoc, ← Bool.and_or_distrib_right]
      simp
    aggregates := hs.aggregates.trans h.aggregates
    signals := by rw [hs.signals, h.signals, ← raiseAll_append]; simp
    values := fun other hne => (h.values other hne).trans (hs.values other hne)
    computed := hs.computed.trans h.computed
    ended := hs.ended.trans h.ended
    sent := by rw [hs.sent, h.sent]; simp [Nat.add_assoc]
    partials := fun given hd hg => by
      have hp := hs.partials _ (h.aggregates ▸ hd) (h.aggregates ▸ h.partials given hd hg)
      rw [h.aggregates] at hp
      simpa using hp }

theorem perform_performed (graph : Graph) (node : Nat) (p : NodeProgram M R) {d : Desk M} {r : R}
    (h : (p.perform (nodeHandler graph node) d).result = .ok r) :
    Performed node (p.perform (nodeHandler graph node) d).calls d
      (p.perform (nodeHandler graph node) d).state := by
  refine perform_invariant (I := fun calls e => Performed node calls d e) ?_ p (.nil node d) h
  intro calls e op x e' he hop
  exact he.snoc (nodeHandler_ok hop)

/-- All that a node can have done to itself before it computes for the first time. -/
structure OwnPerformed (node : Nat) (calls : List (Call ownSignature)) (s t : State M) : Prop where
  mail : t.mail = s.mail
  halted : t.halted = s.halted
  aggregates : t.aggregates = s.aggregates
  signals : t.signals = s.signals.raiseAll (calls.flatMap Call.ownRaised)
  values : ∀ other, other ≠ node → s.values.AgreeAt other t.values

theorem OwnPerformed.nil (node : Nat) (s : State M) : OwnPerformed node [] s s :=
  ⟨rfl, rfl, rfl, rfl, fun other _ => .refl other _⟩

theorem perform_ownPerformed (graph : Graph) (node : Nat) (p : OwnProgram R) {s : State M} {r : R}
    (h : (p.perform (ownHandler graph node) s).result = .ok r) :
    OwnPerformed node (p.perform (ownHandler graph node) s).calls s
      (p.perform (ownHandler graph node) s).state := by
  refine perform_invariant (I := fun calls t => OwnPerformed node calls s t) ?_ p (.nil node s) h
  intro calls t op x u ht hop
  have hs := ownHandler_ok hop
  exact {
    mail := hs.mail.trans ht.mail
    halted := hs.halted.trans ht.halted
    aggregates := hs.aggregates.trans ht.aggregates
    signals := by rw [hs.signals, ht.signals, ← raiseAll_append]; simp
    values := fun other hne => (ht.values other hne).trans (hs.values other hne) }

end BulkSync
