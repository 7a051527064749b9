import BulkSync.Proofs.Bookkeeping
import BulkSync.Proofs.NodeOrder
import BulkSync.Proofs.RankVisits

namespace BulkSync

/-- What a superstep did in which every node came from its rank to the next one and told its
neighbors. -/
structure Reranked (engine : Engine Float Unit) (rows : Nat → List Nat) (p q : Progress Float Unit)
    (current next : Nat → Float) : Prop where
  read : ∀ v < engine.graph.nodes, q.state.values.read .double "rank" v = .ok (.ofFloat (next v))
  awake : ∀ v < engine.graph.nodes, q.state.halted.bit v = false
  signals : q.state.signals = p.state.signals
  computed : ∀ v < engine.graph.nodes, computeCount p.stats.size v q.journal.toList = 1
  sends : sendCount p.stats.size q.journal.toList =
    ((List.range engine.graph.nodes).map fun v => (rows v).length).sum
  stats : q.stats = p.stats.push ⟨p.stats.size, engine.graph.nodes,
    ((List.range engine.graph.nodes).map fun v => (rows v).length).sum⟩
  sent : ∀ w, messagesBefore q.stats.size w q.journal.toList =
    (List.range engine.graph.nodes).flatMap fun v =>
      List.replicate ((rows v).count w) (next v / Float.ofNat (rows v).length)
  change : Combiner.max.fold ((List.range engine.graph.nodes).flatMap fun v =>
      if p.stats.size = 0 then [] else [(next v - current v).abs]) =
    .ok (q.state.aggregates.value? "delta")

theorem Reranked.congr {engine : Engine Float Unit} {rows : Nat → List Nat}
    {p q : Progress Float Unit} {current next other : Nat → Float}
    (h : Reranked engine rows p q current next)
    (same : ∀ v < engine.graph.nodes, next v = other v) :
    Reranked engine rows p q current other := by
  have hsame : ∀ v ∈ List.range engine.graph.nodes, next v = other v :=
    fun v hmem => same v (List.mem_range.mp hmem)
  exact { h with
    read := fun v hn => by rw [← same v hn]; exact h.read v hn
    sent := fun w => by
      rw [h.sent w]
      exact List.flatMap_congr fun v hmem => by rw [hsame v hmem]
    change := by
      rw [← h.change]
      exact congrArg _ (List.flatMap_congr fun v hmem => by rw [hsame v hmem]) }

section Stepping

variable {tolerance : Float} {engine : Engine Float Unit} {delivery : Delivery Float}
  {rows : Nat → List Nat} {schedule : Schedule} {p q : Progress Float Unit}
  {current : Nat → Float} {partitions : List Partition} {es : List (Entry Float Unit)}
  {round : Round Float Unit} {calls : List (Call masterSignature)} {stop : Bool} {report : Unit}

/-- The run is ended when the greatest change that was published is below the tolerance. -/
theorem Stepped.rank_decision (hc : engine.computation = pageRank tolerance)
    (h : Stepped engine schedule p partitions es round calls stop report q) :
    q.state = round.state.published ∧
      stop = (q.state.aggregates.value? "delta").any (· < tolerance) := by
  have hperformed := h.consulted.performed
  rw [hc] at hperformed
  have hstate : round.state.published = q.state := congrArg Performance.state hperformed
  have hresult : Except.ok
      ((round.state.published.aggregates.value? "delta").any (· < tolerance), ()) =
        Except.ok (stop, report) := congrArg Performance.result hperformed
  rw [hstate] at hresult
  cases hresult
  exact ⟨hstate.symm, rfl⟩

section Turns

variable (h : Poised engine p current) (hc : engine.computation = pageRank tolerance)
  (hr : engine.Ready delivery) (hs : Settled engine delivery p) (hv : schedule.Valid)
  (hstep : Stepped engine schedule p partitions es round calls stop report q)

include h hc hr hs hv hstep

/-- A superstep brings every node to its next rank. -/
theorem Poised.turn (hg : engine.graph.Degrees rows) {v : Nat} (hn : v < engine.graph.nodes) :
    q.state.values.read .double "rank" v =
        .ok (.ofFloat (rankAfter engine.graph.nodes p.stats.size (p.heard v) (current v))) ∧
      q.state.halted.bit v = false ∧
      Announced p.stats.size (current v)
        (rankAfter engine.graph.nodes p.stats.size (p.heard v) (current v)) (rows v)
        (ownEntries v es) := by
  obtain ⟨_, _, _, fits, before, visit, after, -⟩ := hstep.visited hr hv hn
  obtain ⟨hread, hbit, hannounced⟩ := h.visited hc hg hs hn fits before visit
  obtain ⟨hstate, -⟩ := hstep.rank_decision hc
  rw [hstate]
  exact ⟨(after.values.read .double "rank").symm.trans hread, after.bit.symm.trans hbit,
    hannounced⟩

omit hc in
/-- Every node computes once, since none has halted. -/
theorem Poised.computes_once {v : Nat} (hn : v < engine.graph.nodes) :
    computeCount p.stats.size v q.journal.toList = 1 := by
  have hvoted : votedBefore p.stats.size v p.journal.toList = false :=
    (hs.bit v hn).symm.trans (h.awake v hn)
  rw [hstep.count hr hs hv hn]
  exact if_pos (.inr (.inl hvoted))

/-- A message is sent to every neighbor of every node. -/
theorem Poised.sends_all (hg : engine.graph.Degrees rows) :
    sendCount p.stats.size q.journal.toList =
      ((List.range engine.graph.nodes).map fun v => (rows v).length).sum := by
  have hkey := entry_node_lt hstep.played.effect
    fun u hu => List.mem_range.mp ((hstep.visits hr hv).mem_iff.mp hu)
  rw [hstep.sendCount_eq hs,
    ← sum_groups Entry.node? engine.graph.nodes _ es fun x hx _ => hkey x hx]
  refine congrArg List.sum (List.map_congr_left fun v hmem => ?_)
  exact (h.turn hc hr hs hv hstep hg (List.mem_range.mp hmem)).2.2.sends

/-- What the superstep counts is not cut off. -/
theorem Poised.counts (hg : engine.graph.Degrees rows) (hsmall : engine.graph.nodes < countLimit) :
    q.stats = p.stats.push ⟨p.stats.size, engine.graph.nodes,
      ((List.range engine.graph.nodes).map fun v => (rows v).length).sum⟩ := by
  have hcomputed : round.computed = engine.graph.nodes := by
    have hinside := (hstep.settled hr hs hv).inside
    have honce : ∀ v ∈ List.range engine.graph.nodes,
        computeCount p.stats.size v q.journal.toList = 1 :=
      fun v hmem => h.computes_once hr hs hv hstep (List.mem_range.mp hmem)
    rw [hstep.computed hr hs hv, computations_eq_sum hinside, List.map_congr_left honce]
    simpa using Nat.mod_eq_of_lt hsmall
  have hsent : round.sent =
      ((List.range engine.graph.nodes).map fun v => (rows v).length).sum := by
    rw [hstep.sent hr hs hv, h.sends_all hc hr hs hv hstep hg]
    exact Nat.mod_eq_of_lt hg.small
  rw [hstep.stats, hcomputed, hsent]

/-- A superstep of one task brings every node to its next rank, and adds up what they tell in the
order of the nodes. -/
theorem Poised.reranked (hg : engine.graph.Degrees rows)
    (hsmall : engine.graph.nodes < countLimit) (one : partitions.length ≤ 1) :
    Reranked engine rows p q current fun v =>
      rankAfter engine.graph.nodes p.stats.size (p.heard v) (current v) := by
  have hall : ∀ v ∈ List.range engine.graph.nodes, Announced p.stats.size (current v)
      (rankAfter engine.graph.nodes p.stats.size (p.heard v) (current v)) (rows v)
      (ownEntries v es) :=
    fun v hmem => (h.turn hc hr hs hv hstep hg (List.mem_range.mp hmem)).2.2
  exact {
    read := fun v hn => (h.turn hc hr hs hv hstep hg hn).1
    awake := fun v hn => (h.turn hc hr hs hv hstep hg hn).2.1
    signals := by
      have hcalm : es.flatMap Entry.raised = [] := by
        rw [hstep.flatMap_in_node_order hr hv one]
        exact List.flatMap_eq_nil_iff.mpr fun v hmem => (hall v hmem).raised
      have hsignals := hstep.played.effect.signals
      rw [hcalm] at hsignals
      rw [(hstep.rank_decision hc).1]
      exact hsignals
    computed := fun v hn => h.computes_once hr hs hv hstep hn
    sends := h.sends_all hc hr hs hv hstep hg
    stats := h.counts hc hr hs hv hstep hg hsmall
    sent := by
      intro w
      rw [hstep.messages hs, hstep.flatMap_in_node_order hr hv one]
      exact List.flatMap_congr fun v hmem => (hall v hmem).sentTo w
    -- doubles may not be reordered: one task folds them in the order of the nodes
    change := by
      have hfound : engine.computation.aggregators.find? (fun a => a.key == "delta") =
          some ⟨"delta", Combiner.max⟩ := by
        rw [hc]
        rfl
      have htotal := hstep.total_in_node_order hr hs hv one hfound
      rwa [List.flatMap_congr fun v hmem => (hall v hmem).gave] at htotal }

end Turns

end Stepping

end BulkSync
