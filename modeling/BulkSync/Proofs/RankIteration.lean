import BulkSync.Message
import BulkSync.Proofs.PowerIteration
import BulkSync.Proofs.RankSteps
import BulkSync.Proofs.RelaxedEngines

namespace BulkSync

/-- An engine that ranks the nodes of a graph in one task. -/
structure Ranks (tolerance : Float) (g : Adjacency) (edges : List (Nat × Nat))
    (engine : Engine Float Unit) : Prop where
  graph : engine.graph = g.toGraph
  computation : engine.computation = pageRank tolerance
  holds : g.Holds edges
  ready : engine.Ready (.combined Message.sum)
  one : ∀ partitions, engine.strategy.tasks engine.graph.nodes = .ok partitions →
    partitions.length ≤ 1
  admits : ∀ v < engine.graph.nodes, engine.state.values.admits .double "rank" v = .ok ()

/-- A boundary up to which every superstep let all nodes compute and sent a message along every
edge, and no signal was raised. -/
structure Paced (g : Adjacency) (engine : Engine Float Unit) (p : Progress Float Unit) : Prop where
  signals : p.state.signals = engine.state.signals
  computed : ∀ i < p.stats.size, ∀ v < g.nodes, computeCount i v p.journal.toList = 1
  sends : ∀ i < p.stats.size, sendCount i p.journal.toList = g.relationships
  stats : p.stats.toList =
    (List.range p.stats.size).map fun i => ⟨i, g.nodes, g.relationships⟩

/-- A boundary at which the nodes hold the ranks of so many steps of power iteration, and what they
are given in the next one is on its way to them. -/
structure Iterated (g : Adjacency) (told : List (Nat × Nat)) (step : Nat)
    (p : Progress Float Unit) : Prop where
  size : p.stats.size = step + 1
  read : ∀ v < g.nodes,
    p.state.values.read .double "rank" v = .ok (.ofFloat (powerRank g.nodes told step v))
  sent : ∀ v, messagesBefore p.stats.size v p.journal.toList =
    given told (powerRank g.nodes told step) v
  change : p.state.aggregates.value? "delta" = rankChange g.nodes told step
  awake : ∀ v < g.nodes, p.state.halted.bit v = false

section Running

variable {tolerance : Float} {g : Adjacency} {edges told : List (Nat × Nat)}
  {engine : Engine Float Unit} {schedule : Schedule} {p q : Progress Float Unit} {step : Nat}
  {rank after : Nat → Float} {v : Nat}

theorem Ranks.nodes (h : Ranks tolerance g edges engine) : engine.graph.nodes = g.nodes := by
  rw [h.graph]
  rfl

theorem Ranks.small (h : Ranks tolerance g edges engine) : engine.graph.nodes < countLimit := by
  have hslots := slots_lt h.holds.room
  have hnodes := h.nodes
  omega

theorem Ranks.degrees (h : Ranks tolerance g edges engine) :
    engine.graph.Degrees fun u => outgoing u edges := by
  rw [h.graph]
  exact { h.holds.rows with degree := h.holds.degree }

theorem Ranks.relationships (h : Ranks tolerance g edges engine) :
    ((List.range engine.graph.nodes).map fun u => (outgoing u edges).length).sum =
      g.relationships := by
  rw [h.nodes, h.holds.relationships, ← h.holds.groupStart_nodes]
  rfl

theorem Ranks.poised (h : Ranks tolerance g edges engine) :
    Poised engine ⟨engine.state, #[], #[]⟩ fun _ => initialRank g.nodes where
  first := fun _ v hn => ⟨h.admits v hn, by rw [h.nodes]⟩
  later := fun h0 => absurd rfl h0
  awake := fun v _ => h.ready.awake v

theorem Iterated.poised (hp : Iterated g told step p) (h : Ranks tolerance g edges engine) :
    Poised engine p (powerRank g.nodes told step) where
  first := by
    intro h0
    have hsize := hp.size
    omega
  later := fun _ v hn => hp.read v (h.nodes ▸ hn)
  awake := fun v hn => hp.awake v (h.nodes ▸ hn)

/-- A node is handed the sum of its messages, if there are any. -/
theorem heard_sum (hs : Settled engine (.combined Message.sum) p) (hn : v < engine.graph.nodes) :
    p.heard v = (leftFold (· + ·) (messagesBefore p.stats.size v p.journal.toList)).toList := by
  obtain ⟨slot, hslot, hheard⟩ := heard_of_slot hs hn
  have hdelivers := hs.holds v slot hslot
  dsimp only at hdelivers
  rw [hs.delivery] at hdelivers
  obtain ⟨folded, hfold, hfolded⟩ := hdelivers
  have hsum := fold_eq_leftFold (fun a b : Float => a + b)
    (messagesBefore p.stats.size v p.journal.toList)
  cases hsum.symm.trans hfold
  rw [← hheard, hfolded]

/-- The rank that a node comes to is the next one of power iteration. -/
theorem Iterated.rankAfter_eq (hp : Iterated g told step p) (h : Ranks tolerance g edges engine)
    (hs : Settled engine (.combined Message.sum) p) (hn : v < engine.graph.nodes) :
    rankAfter engine.graph.nodes p.stats.size (p.heard v) (powerRank g.nodes told step v) =
      powerRank g.nodes told (step + 1) v := by
  rw [heard_sum hs hn, hp.sent v, hp.size, h.nodes]
  rfl

section Stepping

variable {partitions : List Partition} {es : List (Entry Float Unit)}
  {round : Round Float Unit} {calls : List (Call masterSignature)} {stop : Bool} {report : Unit}

theorem Ranks.reranked (h : Ranks tolerance g edges engine) (hp : Poised engine p rank)
    (hs : Settled engine (.combined Message.sum) p) (hv : schedule.Valid)
    (hstep : Stepped engine schedule p partitions es round calls stop report q) :
    Reranked engine (fun u => outgoing u edges) p q rank fun v =>
      rankAfter engine.graph.nodes p.stats.size (p.heard v) (rank v) :=
  hp.reranked h.computation h.ready hs hv hstep h.degrees h.small (h.one _ hstep.tasks)

theorem Paced.next (hp : Paced g engine p) (h : Ranks tolerance g edges engine)
    (hq : Reranked engine (fun u => outgoing u edges) p q rank after)
    (hstep : Stepped engine schedule p partitions es round calls stop report q) :
    Paced g engine q := by
  have hafter := hstep.during.after
  have hsize := hstep.size
  exact {
    signals := hq.signals.trans hp.signals
    computed := by
      intro i hi v hn
      rcases Nat.lt_or_eq_of_le (Nat.le_of_lt_succ (hsize ▸ hi)) with hlt | rfl
      · rw [hstep.journal, computeCount_after hafter hlt]
        exact hp.computed i hlt v hn
      · exact hq.computed v (h.nodes ▸ hn)
    sends := by
      intro i hi
      rcases Nat.lt_or_eq_of_le (Nat.le_of_lt_succ (hsize ▸ hi)) with hlt | rfl
      · rw [hstep.journal, sendCount_after hafter hlt]
        exact hp.sends i hlt
      · exact hq.sends.trans h.relationships
    stats := by
      rw [hsize, List.range_succ, List.map_append, ← hp.stats, hq.stats, Array.toList_push,
        h.relationships, h.nodes]
      rfl }

/-- The first superstep leaves the ranks that power iteration starts with. -/
theorem Ranks.first (h : Ranks tolerance g edges engine) (htold : g.edges = .ok told)
    (hv : schedule.Valid)
    (hstep : Stepped engine schedule ⟨engine.state, #[], #[]⟩ partitions es round calls stop report
      q) : Iterated g told 0 q := by
  have hq : Reranked engine (fun u => outgoing u edges) ⟨engine.state, #[], #[]⟩ q
      (fun _ => initialRank g.nodes) (powerRank g.nodes told 0) :=
    (h.reranked h.poised h.ready.settled hv hstep).congr fun v _ => rfl
  have hchange := hq.change
  have hsent := hq.sent
  rw [h.nodes] at hchange hsent
  exact {
    size := hstep.size
    read := fun v hn => hq.read v (h.nodes ▸ hn)
    sent := fun w => (hsent w).trans (given_in_node_order h.holds htold _ w)
    change := by
      -- nothing is contributed in superstep 0, so nothing is published
      have hnone : ((List.range g.nodes).flatMap fun v =>
          if (#[] : Array Stats).size = 0 then []
          else [(powerRank g.nodes told 0 v - initialRank g.nodes).abs]) = [] :=
        List.flatMap_eq_nil_iff.mpr fun v _ => rfl
      rw [hnone] at hchange
      exact (Except.ok.inj hchange).symm
    awake := fun v hn => hq.awake v (h.nodes ▸ hn) }

/-- A superstep does what a step of power iteration does. -/
theorem Iterated.next (hp : Iterated g told step p) (h : Ranks tolerance g edges engine)
    (htold : g.edges = .ok told) (hs : Settled engine (.combined Message.sum) p)
    (hv : schedule.Valid)
    (hstep : Stepped engine schedule p partitions es round calls stop report q) :
    Iterated g told (step + 1) q := by
  have hq : Reranked engine (fun u => outgoing u edges) p q (powerRank g.nodes told step)
      (powerRank g.nodes told (step + 1)) :=
    (h.reranked (hp.poised h) hs hv hstep).congr fun v hn => hp.rankAfter_eq h hs hn
  have hchange := hq.change
  have hsent := hq.sent
  rw [h.nodes] at hchange hsent
  exact {
    size := by rw [hstep.size, hp.size]
    read := fun v hn => hq.read v (h.nodes ▸ hn)
    sent := fun w => (hsent w).trans (given_in_node_order h.holds htold _ w)
    change := by
      have hlater : p.stats.size ≠ 0 := by
        have hsize := hp.size
        omega
      simp only [if_neg hlater, ← List.map_eq_flatMap] at hchange
      have hfold := fold_eq_leftFold (fun a b : Float => if a < b then b else a)
        ((List.range g.nodes).map fun v =>
          (powerRank g.nodes told (step + 1) v - powerRank g.nodes told step v).abs)
      exact Except.ok.inj (hchange.symm.trans hfold)
    awake := fun v hn => hq.awake v (h.nodes ▸ hn) }

end Stepping

end Running

end BulkSync
