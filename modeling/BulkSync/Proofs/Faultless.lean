import BulkSync.Proofs.Counters

namespace BulkSync

variable {M R : Type}

/-- The neighbors of every node of a graph, few enough to be counted. -/
structure Graph.Rows (graph : Graph) (row : Nat → List Nat) : Prop where
  neighbors : ∀ u < graph.nodes, graph.neighbors u = .ok (row u)
  inside : ∀ u, ∀ v ∈ row u, u < graph.nodes ∧ v < graph.nodes
  small : ((List.range graph.nodes).map fun u => (row u).length).sum < countLimit

/-- The messages that a node is going to be handed. -/
def Progress.heard (p : Progress M R) (node : Nat) : List M :=
  (p.state.mail.pending[node]?.getD #[]).toList

/-- A boundary after which nothing can fault. Whatever other nodes have done in the superstep, a
node is visited if there is room for a message to each of its neighbors, and sends no more than
these; totals are merged, and the master callback decides. -/
structure Unhindered (engine : Engine M R) (row : Nat → List Nat) (p : Progress M R) : Prop where
  frugal : ∀ v < engine.graph.nodes, ∀ task d new e, p.state.turned.Fits d.state →
    p.state.turned.AgreeAt v d.state → Visited engine p.stats.size task v d new e →
    (new.map Entry.sends).sum ≤ (row v).length
  visits : ∀ v < engine.graph.nodes, ∀ task d, p.state.turned.Fits d.state →
    p.state.turned.AgreeAt v d.state →
    d.tally.partials.length = engine.computation.aggregators.length →
    d.tally.sent + (row v).length < countLimit →
    ∃ new e, Visited engine p.stats.size task v d new e
  merges : ∀ a ∈ engine.computation.aggregators, ∀ x y, ∃ z, a.combine x y = .ok z
  decides : ∀ s : State M, ∃ t calls answer,
    (engine.computation.master p.stats.size engine.graph.nodes).perform masterHandler s =
      ⟨t, calls, .ok answer⟩

section Playing

variable {engine : Engine M R} {delivery : Delivery M} {schedule : Schedule} {p : Progress M R}
  {row : Nat → List Nat} {moves : List Move} {tasks : Nat} {es : List (Entry M R)}
  {round : Round M R} {v : Nat}

theorem heard_of_slot (hs : Settled engine delivery p) (hn : v < engine.graph.nodes) :
    ∃ slot, p.state.turned.mail.delivered[v]? = some slot ∧ slot.toList = p.heard v := by
  have hlt : v < p.state.mail.pending.size := hs.pending ▸ hn
  refine ⟨p.state.mail.pending[v], Array.getElem?_eq_getElem hlt, ?_⟩
  rw [Progress.heard, Array.getElem?_eq_getElem hlt]
  rfl

/-- No node sends more than one message to each of its neighbors. -/
theorem Unhindered.sends_le (h : Unhindered engine row p)
    (hp : Played engine p.stats.size (.start p.state.turned tasks p.journal) moves es round)
    (hd : (moves.filterMap Move.node?).Nodup) (hn : v < engine.graph.nodes) :
    ((ownEntries v es).map Entry.sends).sum ≤ (row v).length := by
  have hpassed := hp.passed hd v
  generalize ownEntries v es = own at hpassed ⊢
  cases hpassed with
  | unvisited => exact Nat.zero_le _
  | visited fits before visit => exact h.frugal v hn _ _ _ _ fits before visit

theorem Unhindered.sends_lt (h : Unhindered engine row p) (hrow : engine.graph.Rows row)
    (hp : Played engine p.stats.size (.start p.state.turned tasks p.journal) moves es round)
    (hd : (moves.filterMap Move.node?).Nodup)
    (hin : ∀ u ∈ moves.filterMap Move.node?, u < engine.graph.nodes) :
    (es.map Entry.sends).sum < countLimit := by
  have hnode := entry_node_lt hp.effect hin
  rw [← sum_groups Entry.node? engine.graph.nodes _ es fun x hx _ => hnode x hx]
  refine Nat.lt_of_le_of_lt (sum_range_le fun u hu => ?_) hrow.small
  exact h.sends_le hp hd hu

/-- Until a node is visited, there is room for a message to each of its neighbors. -/
theorem Unhindered.room (h : Unhindered engine row p) (hrow : engine.graph.Rows row)
    (hp : Played engine p.stats.size (.start p.state.turned tasks p.journal) moves es round)
    (hd : (moves.filterMap Move.node?).Nodup)
    (hin : ∀ u ∈ moves.filterMap Move.node?, u < engine.graph.nodes)
    (hn : v < engine.graph.nodes) (hnew : v ∉ moves.filterMap Move.node?) :
    (es.map Entry.sends).sum + (row v).length < countLimit := by
  have hnode := entry_node_lt hp.effect hin
  rw [← sum_groups Entry.node? engine.graph.nodes _ es fun x hx _ => hnode x hx]
  refine Nat.lt_of_le_of_lt (sum_range_add_le (b := fun u => (row u).length) hn (fun u hu => ?_) ?_)
    hrow.small
  · exact h.sends_le hp hd hu
  · have hnil := ownEntries_unvisited hp.effect hnew
    exact congrArg (fun own => (own.map Entry.sends).sum) hnil

/-- The visit of a node does not fault. -/
theorem Unhindered.visit (h : Unhindered engine row p) (hrow : engine.graph.Rows row)
    (hr : engine.Ready delivery) (hs : Settled engine delivery p)
    (hp : Played engine p.stats.size (.start p.state.turned tasks p.journal) moves es round)
    (hd : (moves.filterMap Move.node?).Nodup)
    (hin : ∀ u ∈ moves.filterMap Move.node?, u < engine.graph.nodes)
    (hn : v < engine.graph.nodes) (hnew : v ∉ moves.filterMap Move.node?) {task : Nat}
    {tally : Tally} (htally : round.tallies[task]? = some tally) :
    ∃ new e, Visited engine p.stats.size task v ⟨round.state, tally⟩ new e := by
  have hdeclared : p.state.turned.aggregates.declared = engine.computation.aggregators :=
    hs.declared
  have haccounts := hp.tally_accounts (hdeclared ▸ hr.keys) task tally htally
  have hlength := haccounts.partials.length_eq
  rw [hdeclared] at hlength
  -- a task has sent no more than all tasks together
  have hsent : tally.sent ≤ (es.map Entry.sends).sum := by
    rw [haccounts.sent]
    exact sum_withKey_le Entry.task? task _ es
  have hroom := h.room hrow hp hd hin hn hnew
  have hpassed := hp.passed hd v
  generalize ownEntries v es = own at hpassed
  cases hpassed with
  | unvisited absent agree =>
    refine h.visits v hn task _ hp.effect.fits agree hlength ?_
    exact Nat.lt_of_le_of_lt (Nat.add_le_add_right hsent _) hroom
  | visited _ _ _ _ _ present => exact absurd (node_mem_of_visit present) hnew

/-- No move of a superstep faults. -/
theorem Unhindered.move (h : Unhindered engine row p) (hrow : engine.graph.Rows row)
    (hr : engine.Ready delivery) (hs : Settled engine delivery p)
    (hp : Played engine p.stats.size (.start p.state.turned tasks p.journal) moves es round)
    {m : Move} {rest : List Move} (hd : ((moves ++ m :: rest).filterMap Move.node?).Nodup)
    (hin : ∀ u ∈ (moves ++ m :: rest).filterMap Move.node?, u < engine.graph.nodes) (f : Fault) :
    (round.move engine p.stats.size m).faults ≠ [f] := by
  intro hf
  have heffect := hp.effect
  rw [List.filterMap_append] at hd hin
  rw [List.nodup_append] at hd
  cases m with
  | visit task v =>
    obtain ⟨tally, work, htally, hwork⟩ := visit_fault heffect.faults hf
    have hmem : v ∈ (Move.visit task v :: rest).filterMap Move.node? := by simp [Move.node?]
    obtain ⟨new, e, hvisited⟩ := h.visit hrow hr hs hp hd.1
      (fun u hu => hin u (List.mem_append_left _ hu)) (hin v (List.mem_append_right _ hmem))
      (fun hdone => hd.2.2 v hdone v hmem rfl) htally
    obtain ⟨_, _, hok⟩ := hvisited.ok round.journal
    rw [hwork] at hok
    cases hok
  | finish task =>
    obtain ⟨tally, _, hmerge⟩ := finish_fault heffect.faults hf
    have hdeclared : round.state.aggregates.declared = engine.computation.aggregators :=
      heffect.fits.declared.trans hs.declared
    obtain ⟨a, ha, x, y, hcombine⟩ := aggregates_merge_error hmerge
    rw [hdeclared] at ha
    obtain ⟨z, hz⟩ := h.merges a ha x y
    rw [hz] at hcombine
    cases hcombine

/-- The superstep does not fault. -/
theorem Unhindered.superstep (h : Unhindered engine row p) (hrow : engine.graph.Rows row)
    (hr : engine.Ready delivery) (hs : Settled engine delivery p) (hv : schedule.Valid)
    (hsmall : engine.graph.nodes < countLimit) :
    ∃ converged q, engine.superstep schedule p = .ok converged q := by
  obtain ⟨partitions, htasks⟩ := tasks_exist hr.strategy hsmall
  have hi := hv p.stats.size partitions
  have hvisits := visits_perm hr htasks hi
  -- the first move to fault would come after moves that did not, and no such move faults
  have hbad : ∀ done m rest es round f, schedule.moves p.stats.size partitions = done ++ m :: rest →
      Played engine p.stats.size (.start p.state.turned partitions.length p.journal) done es round →
      (round.move engine p.stats.size m).faults = [f] → False := by
    intro done m rest es round f hmoves hp
    rw [hmoves] at hvisits
    exact h.move hrow hr hs hp (hvisits.nodup_iff.mpr List.nodup_range)
      (fun u hu => List.mem_range.mp (hvisits.mem_iff.mp hu)) f
  rcases played_or_fault engine p.stats.size p.state.turned p.journal hi (fun _ => False) hbad with
    ⟨es, hp⟩ | ⟨f, rest, -, hfalse⟩
  · rw [superstep_eq htasks]
    dsimp only
    rw [hp.effect.faults]
    generalize List.foldl _ _ _ = round
    obtain ⟨t, calls, ⟨stop, report⟩, hperformed⟩ := h.decides round.state.published
    have hconsulted : Consulted engine p.stats.size calls stop report
        (round.barrier p.stats.size p.stats)
        ⟨t, (round.barrier p.stats.size p.stats).stats,
          round.journal.push (.master p.stats.size calls (.ok (stop, report)))⟩ :=
      ⟨hperformed, rfl, rfl⟩
    exact ⟨_, _, hconsulted.ok round.isQuiet⟩
  · exact hfalse.elim

end Playing

end BulkSync
