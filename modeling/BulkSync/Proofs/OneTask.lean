import BulkSync.Proofs.Boundaries
import BulkSync.Proofs.GreedyCuts

namespace BulkSync

/-- A range that is not divided is one partition, if it has nodes at all. -/
theorem rangePartitions_one {nodes : Nat} {ps : List Partition}
    (h : rangePartitions 1 nodes = .ok ps) : ps.length ≤ 1 := by
  rw [rangePartitions_length h]
  exact Nat.min_le_left _ _

theorem degreePartitions_one {g : Adjacency} (made : g.Made) {ps : List Partition}
    (h : degreePartitions g.toGraph 1 = .ok ps) : ps.length ≤ 1 := by
  obtain ⟨degree, told⟩ := made.hasDegrees
  exact degreePartitions_length_le told h

/-- Moves of one task at most have only one order. -/
theorem Interleaves.eq_sequential {partitions : List Partition} {moves : List Move}
    (h : Interleaves partitions moves) (hone : partitions.length ≤ 1) :
    moves = sequentialMoves partitions := by
  cases partitions with
  | nil =>
    cases moves with
    | nil => rfl
    | cons m rest =>
      exact absurd (Interleaves.pending (List.nil_append (m :: rest) ▸ h)).1 (by simp)
  | cons p rest =>
    have hnil : rest = [] := List.eq_nil_of_length_eq_zero (by simpa using hone)
    subst hnil
    have htask : ∀ m ∈ moves, m.task = 0 := by
      intro m hm
      obtain ⟨done, rest, rfl⟩ := List.append_of_mem hm
      have hlt := h.pending.1
      simpa using hlt
    have hall : moves.filter (fun m => m.task == 0) = moves :=
      List.filter_eq_self.mpr fun m hm => by simp [htask m hm]
    rw [← hall, h 0]
    simp [taskMoves, sequentialMoves, Partition.moves]

/-- How one worker orders its moves: it takes the halves of a range from left to right, and the
tasks of a fixed list in any order. -/
def Schedule.Single (schedule : Schedule) (strategy : Strategy) : Prop :=
  schedule.Valid ∧ ∀ threshold, strategy = .workStealing threshold →
    ∀ superstep partitions, schedule.moves superstep partitions = sequentialMoves partitions

/-- However the nodes are divided for one worker, it visits them from the first to the last. -/
theorem single_moves {g : Adjacency} (made : g.Made) {config : Config}
    (hone : config.concurrency = 1) {strategy : Strategy}
    (hs : config.strategy g.toGraph = .ok strategy) {schedule : Schedule}
    (hsingle : schedule.Single strategy) {partitions : List Partition}
    (ht : strategy.tasks g.nodes = .ok partitions) (superstep : Nat) :
    schedule.moves superstep partitions = sequentialMoves partitions := by
  obtain ⟨hvalid, hleft⟩ := hsingle
  rcases config.strategy_cases hs with rfl | ⟨listed, rfl, hlisted⟩
  · exact hleft _ rfl superstep partitions
  · obtain ⟨_, rfl⟩ := tasks_partitioned_iff.mp ht
    rw [hone] at hlisted
    refine (hvalid superstep partitions).eq_sequential ?_
    exact hlisted.elim rangePartitions_one (degreePartitions_one made)

end BulkSync
