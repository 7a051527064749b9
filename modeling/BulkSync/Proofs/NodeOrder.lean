import BulkSync.Proofs.Contributions
import BulkSync.Proofs.OneTask
import BulkSync.Proofs.OrderedTotals

namespace BulkSync

variable {M R : Type}

/-- One worker that is given a range of nodes has one task at most. -/
theorem one_task {config : Config} {graph : Graph} {strategy : Strategy}
    {partitions : List Partition} (hs : config.strategy graph = .ok strategy)
    (hone : config.concurrency = 1) (hrange : config.partitioning = .range)
    (ht : strategy.tasks graph.nodes = .ok partitions) : partitions.length ≤ 1 := by
  simp only [Config.strategy, hrange, bind_eq_ok_iff] at hs
  obtain ⟨listed, hlisted, hstrategy⟩ := hs
  cases hstrategy
  obtain ⟨-, rfl⟩ := tasks_partitioned_iff.mp ht
  rw [hone] at hlisted
  exact rangePartitions_one hlisted

section Stepping

variable {engine : Engine M R} {delivery : Delivery M} {schedule : Schedule} {p q : Progress M R}
  {partitions : List Partition} {es : List (Entry M R)} {round : Round M R}
  {calls : List (Call masterSignature)} {stop : Bool} {report : R}

/-- The callbacks of one task come in the order of the nodes. -/
theorem Stepped.node_order (hr : engine.Ready delivery) (hv : schedule.Valid)
    (h : Stepped engine schedule p partitions es round calls stop report q)
    (one : partitions.length ≤ 1) :
    es = (List.range engine.graph.nodes).flatMap fun v => ownEntries v es := by
  have hmoves := (hv p.stats.size partitions).eq_sequential one
  have hnodes : (schedule.moves p.stats.size partitions).filterMap Move.node? =
      List.range engine.graph.nodes := by
    rw [hmoves, sequentialMoves_nodes, (tasks_tiles hr.strategy h.tasks).ids, Nat.sub_zero,
      List.range_eq_range']
  have horder := h.played.entries_in_order (hnodes ▸ List.nodup_range)
  rwa [hnodes] at horder

/-- What is read off the callbacks of one task is read off node by node. -/
theorem Stepped.flatMap_in_node_order {α : Type} (hr : engine.Ready delivery)
    (hv : schedule.Valid) (h : Stepped engine schedule p partitions es round calls stop report q)
    (one : partitions.length ≤ 1) (f : Entry M R → List α) :
    es.flatMap f =
      (List.range engine.graph.nodes).flatMap fun v => (ownEntries v es).flatMap f := by
  have horder := congrArg (List.flatMap f) (h.node_order hr hv one)
  rwa [List.flatMap_assoc] at horder

/-- With one task, what is published folds the contributions from the left, in the order of the
nodes. -/
theorem Stepped.total_in_node_order (hr : engine.Ready delivery) (hs : Settled engine delivery p)
    (hv : schedule.Valid) (h : Stepped engine schedule p partitions es round calls stop report q)
    (one : partitions.length ≤ 1) {key : String} {a : Aggregator}
    (found : engine.computation.aggregators.find? (fun a => a.key == key) = some a) :
    a.combine.fold ((List.range engine.graph.nodes).flatMap fun v =>
      (ownEntries v es).flatMap (Entry.gave key)) = .ok (q.state.aggregates.value? key) := by
  have hi := hv p.stats.size partitions
  have hmoves := hi.eq_sequential one
  have hascend : TasksAscend es :=
    h.played.tasksAscend (by rw [hmoves]; exact sequentialMoves_ascend partitions)
  have hparts := h.parts_eq hr hs hv key
  rw [hmoves, sequentialMoves_finishes] at hparts
  have htotal := h.total_eq hr hs hv key
  simp only [Engine.total, found, hparts, bind, Except.bind] at htotal
  rw [Combiner.foldParts_one a.combine (by simpa using one),
    taskGave_in_order key (h.played.tasks_lt hi) hascend,
    h.flatMap_in_node_order hr hv one] at htotal
  exact htotal

end Stepping

end BulkSync
