import BulkSync.Proofs.Counters
import BulkSync.Proofs.MatchingVisits

namespace BulkSync

variable {M R : Type}

/-- Two engines that let the same computation run over the same graph. -/
structure Twins (engine engine' : Engine M R) : Prop where
  graph : engine'.graph = engine.graph
  computation : engine'.computation = engine.computation
  keeps : engine.computation.Local

/-- Two runs at the same boundary that differ in the order of the pending messages at most. -/
structure Alike (p p' : Progress M R) : Prop where
  values : p'.state.values = p.state.values
  halted : p'.state.halted = p.state.halted
  aggregates : p'.state.aggregates = p.state.aggregates
  signals : p'.state.signals = p.state.signals
  stats : p'.stats = p.stats
  pending : ∀ (v : Nat) (slot slot' : Array M), p.state.mail.pending[v]? = some slot →
    p'.state.mail.pending[v]? = some slot' → slot.toList.Perm slot'.toList

section Rounds

variable {engine engine' : Engine M R} {delivery : Delivery M} {p p' : Progress M R}

/-- At the same boundary a node finds the same in both runs, until it is visited. -/
theorem Alike.matches (ha : Alike p p') (ht : Twins engine engine')
    (hs : Settled engine delivery p) (hs' : Settled engine' delivery p') {v : Nat} {s s' : State M}
    (fits : p.state.turned.Fits s) (fits' : p'.state.turned.Fits s')
    (before : p.state.turned.AgreeAt v s) (before' : p'.state.turned.AgreeAt v s') :
    s.Matches v s' ∧ ∀ slot, s.mail.delivered[v]? = some slot →
      ∃ slot', s'.mail.delivered[v]? = some slot' ∧ slot.toList.Perm slot'.toList := by
  have hturned : p.state.turned.Matches v p'.state.turned := {
    values := by
      rw [show p'.state.turned.values = p.state.turned.values from ha.values]
      exact .refl v _
    bit := by rw [show p'.state.turned.halted = p.state.turned.halted from ha.halted]
    sound := hs.sound
    sound' := hs'.sound
    nodes := congrArg HaltSet.nodes ha.halted
    delivery := hs'.delivery.trans hs.delivery.symm
    pending := by
      have hp : p.state.turned.mail.pending.size = engine.graph.nodes :=
        Array.size_map.trans hs.delivered
      have hp' : p'.state.turned.mail.pending.size = engine'.graph.nodes :=
        Array.size_map.trans hs'.delivered
      rw [hp, hp', ht.graph]
    declared := congrArg Aggregates.declared ha.aggregates
    published := congrArg Aggregates.published ha.aggregates }
  refine ⟨hturned.of_fits fits fits' ?_ ?_, ?_⟩
  · exact before.values.symm.trans (hturned.values.trans before'.values)
  · exact before.bit.symm.trans (hturned.bit.trans before'.bit)
  · intro slot hslot
    have hpending : p.state.mail.pending[v]? = some slot := before.delivered.trans hslot
    have hlt := (Array.getElem?_eq_some_iff.mp hpending).1
    rw [hs.pending] at hlt
    have hlt' : v < p'.state.mail.pending.size := by rw [hs'.pending, ht.graph]; exact hlt
    have hpending' := Array.getElem?_eq_getElem hlt'
    exact ⟨_, before'.delivered.symm.trans hpending', ha.pending v _ _ hpending hpending'⟩

/-- A node that is visited in both runs runs the same callbacks there. -/
theorem Passed.alike (ha : Alike p p') (ht : Twins engine engine')
    (hs : Settled engine delivery p) (hs' : Settled engine' delivery p') {superstep v : Nat}
    {moves moves' : List Move} {es es' own own' : List (Entry M R)} {s s' : State M}
    (h : Passed engine superstep p.state.turned moves es v s own)
    (hv : v ∈ moves.filterMap Move.node?)
    (h' : Passed engine' superstep p'.state.turned moves' es' v s' own') :
    (v ∉ moves'.filterMap Move.node? ∧ own' = [] ∧ p'.state.turned.AgreeAt v s') ∨
      (v ∈ moves'.filterMap Move.node? ∧ own'.map Entry.bare = own.map Entry.bare ∧
        s.values.AgreeAt v s'.values ∧ s.halted.bit v = s'.halted.bit v) := by
  cases h' with
  | unvisited absent agree => exact .inl ⟨absent, rfl, agree⟩
  | @visited task' d' _ e' fits' before' visit' after' _ present' =>
    cases h with
    | unvisited absent => exact absurd hv absent
    | @visited task d _ e fits before visit after _ _ =>
      right
      obtain ⟨hm, hslot⟩ := ha.matches ht hs hs' fits fits' before before'
      obtain ⟨journal', hj', hvisit'⟩ := visit'.ok #[]
      rcases visit.matches ht.graph ht.computation ht.keeps hm hslot task' #[] with
        ⟨new'', e'', hv'', hbare, hme⟩ | ⟨f, work, hw, _⟩
      · obtain ⟨journal'', hj'', hvisit''⟩ := hv''.ok #[]
        rw [hvisit'] at hvisit''
        cases hvisit''
        have hnew : new'' = own' := by simpa [hj''] using hj'
        rw [← hnew]
        exact ⟨node_mem_of_visit present', hbare,
          after.values.symm.trans (hme.values.trans after'.values),
          after.bit.symm.trans (hme.bit.trans after'.bit)⟩
      · rw [hvisit'] at hw
        cases hw

end Rounds

end BulkSync
