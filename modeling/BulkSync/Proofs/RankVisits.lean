import BulkSync.Proofs.Faultless
import BulkSync.Proofs.Ranking

namespace BulkSync

/-- What a node with these neighbors did in a superstep in which it came to a rank. -/
structure Announced (superstep : Nat) (current rank : Float) (row : List Nat)
    (new : List (Entry Float Unit)) : Prop where
  sentTo : ∀ node, new.flatMap (Entry.sentTo node) =
    .replicate (row.count node) (rank / Float.ofNat row.length)
  sends : (new.map Entry.sends).sum = row.length
  gave : new.flatMap (Entry.gave "delta") = if superstep = 0 then [] else [(rank - current).abs]
  raised : new.flatMap Entry.raised = []

/-- A boundary at which no node has halted, and every node holds a rank or is about to be given its
first one. -/
structure Poised (engine : Engine Float Unit) (p : Progress Float Unit) (current : Nat → Float) :
    Prop where
  first : p.stats.size = 0 → ∀ v < engine.graph.nodes,
    p.state.values.admits .double "rank" v = .ok () ∧ current v = initialRank engine.graph.nodes
  later : p.stats.size ≠ 0 → ∀ v < engine.graph.nodes,
    p.state.values.read .double "rank" v = .ok (.ofFloat (current v))
  awake : ∀ v < engine.graph.nodes, p.state.halted.bit v = false

/-- What a graph tells of every node: its neighbors and how many they are. -/
structure Graph.Degrees (graph : Graph) (row : Nat → List Nat) : Prop extends graph.Rows row where
  degree : ∀ u < graph.nodes, graph.degree u = .ok (row u).length

section Visiting

variable {tolerance : Float} {engine : Engine Float Unit} {superstep task node v : Nat}
  {current : Float} {row : List Nat} {rows : Nat → List Nat} {d e : Desk Float}
  {slot : Array Float} {new : List (Entry Float Unit)} {delivery : Delivery Float}
  {p : Progress Float Unit} {rank : Nat → Float}

theorem pageRank_init (hc : engine.computation = pageRank tolerance) :
    engine.computation.init node engine.graph.nodes =
      OwnProgram.writeNumber .double "rank" (initialRank engine.graph.nodes) := by
  rw [hc]
  rfl

/-- A visit leaves a node that has not halted with its next rank, and not halted. -/
theorem rank_visited (hc : engine.computation = pageRank tolerance)
    (hrow : engine.graph.neighbors node = .ok row)
    (hdegree : engine.graph.degree node = .ok row.length) (hsound : d.state.halted.Sound)
    (hnode : node < d.state.halted.nodes) (hawake : d.state.halted.bit node = false)
    (hfirst : superstep = 0 → current = initialRank engine.graph.nodes)
    (hlater : superstep ≠ 0 → d.state.values.read .double "rank" node = .ok (.ofFloat current))
    (hslot : d.state.mail.delivered[node]? = some slot)
    (h : Visited engine superstep task node d new e) :
    e.state.values.read .double "rank" node =
        .ok (.ofFloat (rankAfter engine.graph.nodes superstep slot.toList current)) ∧
      e.state.halted.bit node = false ∧
      Announced superstep current (rankAfter engine.graph.nodes superstep slot.toList current) row
        new := by
  have hbit := h.effect.bit
  cases h with
  | asleep later delivered silent halted =>
    rw [HaltSet.isHalted_eq_bit hsound hnode, hawake] at halted
    cases halted
  | @awake slot' woken inits begun cs u e delivered due wake init compute =>
    rw [hslot] at delivered
    cases delivered
    obtain ⟨hread, hcalm⟩ := init.read_ok (pageRank_init hc) hfirst hlater
    rw [hc] at compute
    obtain ⟨hrank, rfl⟩ := pageRank_compute_ok (d := ⟨begun, d.tally⟩) hread hrow hdegree compute
    obtain ⟨-, -, -, -, -, hinits⟩ := init.ownPerformed
    obtain ⟨hsent, hsends, hgave, hvoted, -⟩ := inits_silent hinits
    generalize rankAfter engine.graph.nodes superstep slot.toList current = rank at *
    obtain ⟨hsilent, hraised⟩ := rankCalls_calm superstep current rank row
    refine ⟨hrank, ?_, ?_, ?_, ?_, ?_⟩
    · rw [hbit, if_neg (by simp), List.any_append, hvoted]
      simp [Entry.voted, hsilent]
    · intro other
      rw [List.flatMap_append, hsent, ← rankCalls_sentTo superstep current rank row other]
      simp [Entry.sentTo]
    · rw [List.map_append, List.sum_append, hsends, ← rankCalls_sends superstep current rank row]
      simp [Entry.sends]
    · rw [List.flatMap_append, hgave, ← rankCalls_gave superstep current rank row]
      simp [Entry.gave]
    · rw [List.flatMap_append, hcalm, List.nil_append, List.flatMap_singleton]
      exact hraised

/-- Whenever a node is visited in the superstep, it comes to its next rank. -/
theorem Poised.visited (h : Poised engine p rank) (hc : engine.computation = pageRank tolerance)
    (hg : engine.graph.Degrees rows) (hs : Settled engine delivery p)
    (hn : v < engine.graph.nodes) (fits : p.state.turned.Fits d.state)
    (before : p.state.turned.AgreeAt v d.state)
    (visit : Visited engine p.stats.size task v d new e) :
    e.state.values.read .double "rank" v =
        .ok (.ofFloat (rankAfter engine.graph.nodes p.stats.size (p.heard v) (rank v))) ∧
      e.state.halted.bit v = false ∧
      Announced p.stats.size (rank v)
        (rankAfter engine.graph.nodes p.stats.size (p.heard v) (rank v)) (rows v) new := by
  obtain ⟨slot, hslot, hheard⟩ := heard_of_slot hs hn
  have hslot' : d.state.mail.delivered[v]? = some slot := before.delivered.symm.trans hslot
  have hnodes : d.state.halted.nodes = engine.graph.nodes := fits.nodes.trans hs.nodes
  have hawake : d.state.halted.bit v = false := before.bit.symm.trans (h.awake v hn)
  rw [← hheard]
  refine rank_visited hc (hg.neighbors v hn) (hg.degree v hn) (fits.sound hs.sound) (hnodes ▸ hn)
    hawake (fun h0 => (h.first h0 v hn).2) (fun h0 => ?_) hslot' visit
  exact (before.values.read .double "rank").symm.trans (h.later h0 v hn)

/-- Nothing keeps the nodes from coming to their next ranks. -/
theorem Poised.unhindered (h : Poised engine p rank)
    (hc : engine.computation = pageRank tolerance) (hg : engine.graph.Degrees rows)
    (hs : Settled engine delivery p) (ht : delivery.Total) : Unhindered engine rows p where
  frugal := by
    intro v hn task d new e fits before visit
    obtain ⟨-, -, hannounced⟩ := h.visited hc hg hs hn fits before visit
    exact Nat.le_of_eq hannounced.sends
  visits := by
    intro v hn task d fits before hlength hroom
    obtain ⟨slot, hslot, -⟩ := heard_of_slot hs hn
    have hdelivery : d.state.mail.delivery = delivery := fits.delivery.trans hs.delivery
    have hpending : d.state.mail.pending.size = engine.graph.nodes :=
      fits.pending.trans (Array.size_map.trans hs.delivered)
    have hdeclared : d.state.aggregates.declared = (pageRank tolerance).aggregators :=
      fits.declared.trans (hs.declared.trans (congrArg Computation.aggregators hc))
    refine visited_of_callbacks (fits.sound hs.sound) (fits.nodes.trans hs.nodes ▸ hn)
      (before.delivered.symm.trans hslot) (fun woken _ => ?_) task
    obtain ⟨inits, begun, hinit⟩ : ∃ inits begun,
        Initialized engine p.stats.size v (d.state.woken v woken) inits begun :=
      Initialized.exists (pageRank_init hc) fun h0 =>
        (before.values.admits .double "rank").symm.trans (h.first h0 v hn).1
    obtain ⟨hread, -⟩ := hinit.read_ok (pageRank_init hc) (fun h0 => (h.first h0 v hn).2)
      fun h0 => (before.values.read .double "rank").symm.trans (h.later h0 v hn)
    obtain ⟨hmail, -, haggregates, -⟩ := hinit.ownPerformed
    have hsend : ∀ m, ∃ mail, begun.mail.sendAll m (rows v) = .ok () mail := by
      refine Mailroom.sendAll_total ?_ ?_
      · rw [hmail]
        exact hdelivery ▸ ht
      · rw [hmail]
        exact fun w hw => hpending ▸ (hg.inside v w hw).2
    rw [hc] at hlength
    obtain ⟨e, cs, hperform⟩ := pageRank_compute_exists p.stats.size slot.toList
      (d := ⟨begun, d.tally⟩) (haggregates ▸ hdeclared) hlength hread (hg.neighbors v hn)
      (hg.degree v hn) hsend hroom
    rw [← hc] at hperform
    exact ⟨inits, begun, e, cs, hinit, hperform⟩
  merges := by
    rw [hc]
    exact pageRank_merges tolerance
  decides := by
    intro t
    rw [hc]
    exact ⟨t, [⟨.aggregated "delta", t.aggregates.value? "delta"⟩], _, rfl⟩

end Visiting

end BulkSync
