import BulkSync.Proofs.Coverage
import BulkSync.Proofs.Interleaving
import BulkSync.Proofs.Weights
import Mathlib.Data.List.Nodup

namespace BulkSync

/-- Partitions none of which is empty. -/
def Filled (ps : List Partition) : Prop :=
  ∀ p ∈ ps, 0 < p.length

theorem Filled.append {ps qs : List Partition} (hp : Filled ps) (hq : Filled qs) :
    Filled (ps ++ qs) := by
  intro p h
  rcases List.mem_append.mp h with h | h
  · exact hp p h
  · exact hq p h

theorem Filled.cons {p : Partition} {ps : List Partition} (hp : 0 < p.length) (h : Filled ps) :
    Filled (p :: ps) :=
  List.forall_mem_cons.mpr ⟨hp, h⟩

theorem filled_nil : Filled [] := by simp [Filled]

theorem leaves_filled {threshold : Nat} {p : Partition} {ps : List Partition}
    (hp : 0 < p.length) (h : p.leaves threshold = .ok ps) : Filled ps := by
  obtain ⟨calls, hcalls, rfl⟩ := leaves_calls h
  exact hcalls.le_length (by omega) hp

section Consecutive

variable {laid : Array Partition} {start : Nat} {lengths : List Nat}

theorem consecutive_filled {ps : List Partition} (hl : Filled laid.toList)
    (hlengths : ∀ length ∈ lengths, 0 < length) (h : consecutive laid start lengths = .ok ps) :
    Filled ps := by
  induction lengths generalizing laid start with
  | nil => cases h; exact hl
  | cons length rest ih =>
    have hpush : Filled (laid.push ⟨start, length⟩).toList := by
      rw [Array.toList_push]
      exact hl.append (filled_nil.cons (hlengths length (by simp)))
    exact ih hpush (fun l hl => hlengths l (List.mem_cons_of_mem _ hl)) (consecutive_cons h)

theorem consecutive_exists (laid : Array Partition) (h : start + lengths.sum < countLimit) :
    ∃ ps, consecutive laid start lengths = .ok ps := by
  induction lengths generalizing laid start with
  | nil => exact ⟨_, rfl⟩
  | cons length rest ih =>
    rw [List.sum_cons] at h
    simp only [consecutive, bind, Except.bind, addCounts_eq_ok_iff.mpr ⟨rfl,
      (show start + length < countLimit by omega)⟩]
    exact ih _ (by omega)

end Consecutive

theorem rangePartitions_filled {workers nodes : Nat} {ps : List Partition}
    (h : rangePartitions workers nodes = .ok ps) : Filled ps := by
  refine consecutive_filled filled_nil ?_ (rangePartitions_ok h)
  intro length hlength
  obtain ⟨i, hi, rfl⟩ := List.mem_map.mp hlength
  have hcount := List.mem_range.mp hi
  have hshare : 1 ≤ nodes / min (max workers 1) nodes :=
    (Nat.one_le_div_iff (by omega)).mpr (Nat.min_le_right _ _)
  omega

/-- The nodes can be divided evenly if there is room for the list. -/
theorem rangePartitions_exists {workers nodes : Nat}
    (room : min (max workers 1) nodes * Partition.size < objectLimit) (hn : nodes < countLimit) :
    ∃ ps, rangePartitions workers nodes = .ok ps := by
  rcases Nat.eq_zero_or_pos (min (max workers 1) nodes) with hnone | hpos
  · exact ⟨[], if_pos hnone⟩
  · rw [rangePartitions_of_pos rfl hpos]
    simp only [bind, Except.bind, makeRoom_eq_ok_iff.mpr room]
    refine consecutive_exists _ ?_
    rw [sum_shares _ _ (by omega)]
    omega

section Cutting

variable {g : Graph} {target remaining node start weight : Nat}

theorem cutByWeight_filled {ps : List Partition} (hs : start ≤ node)
    (h : cutByWeight g target remaining node start weight = .ok ps) : Filled ps := by
  induction remaining generalizing node start weight ps with
  | zero =>
    cases h
    split
    next hlt => exact filled_nil.cons (by dsimp only; omega)
    next => exact filled_nil
  | succ remaining ih =>
    obtain ⟨degree, _, ⟨_, others, hothers, rfl⟩ | ⟨_, hrest⟩⟩ := cutByWeight_succ h
    · exact (ih (Nat.le_refl _) hothers).cons (by dsimp only; omega)
    · exact ih (by omega) hrest

/-- What has been gathered and what the nodes that are left weigh never outgrows a count, so the
nodes can be cut to the end. -/
theorem cutByWeight_exists (degree : Nat → Nat)
    (hd : ∀ u < node + remaining, g.degree u = .ok (degree u))
    (hw : weight + weigh degree (List.range' node remaining) < countLimit) :
    ∃ ps, cutByWeight g target remaining node start weight = .ok ps := by
  induction remaining generalizing node start weight with
  | zero => exact ⟨_, rfl⟩
  | succ remaining ih =>
    rw [List.range'_succ, weigh_cons] at hw
    have hown : addCounts (degree node) 1 = .ok (degree node + 1) :=
      addCounts_eq_ok_iff.mpr ⟨rfl, by omega⟩
    have hgathered : addCounts weight (degree node + 1) = .ok (weight + (degree node + 1)) :=
      addCounts_eq_ok_iff.mpr ⟨rfl, by omega⟩
    simp only [cutByWeight, bind, Except.bind, hd node (by omega), hown, hgathered]
    split
    next =>
      have hrest : ∃ others,
          cutByWeight g target remaining (node + 1) (node + 1) 0 = .ok others :=
        ih (fun u hu => hd u (by omega)) (by omega)
      obtain ⟨others, hothers⟩ := hrest
      exact ⟨_, by rw [hothers]; rfl⟩
    next => exact ih (fun u hu => hd u (by omega)) (by omega)

end Cutting

theorem degreePartitions_filled {g : Graph} {workers : Nat} {ps : List Partition}
    (h : degreePartitions g workers = .ok ps) : Filled ps := by
  rcases degreePartitions_ok h with ⟨_, rfl⟩ | ⟨_, hcut⟩
  · exact filled_nil
  · exact cutByWeight_filled (Nat.le_refl 0) hcut

/-- The nodes can be divided by weight if there is room for the list. -/
theorem degreePartitions_exists {g : Graph} {degree : Nat → Nat} (told : g.HasDegrees degree)
    (small : g.relationships + g.nodes < countLimit) {workers : Nat}
    (room : 0 < g.nodes → makeRoom workers Partition.size = .ok ()) :
    ∃ ps, degreePartitions g workers = .ok ps := by
  unfold degreePartitions
  split
  next => exact ⟨[], rfl⟩
  next hn =>
    have hroom := room (Nat.pos_of_ne_zero hn)
    have htotal : addCounts g.relationships g.nodes = .ok (g.relationships + g.nodes) :=
      addCounts_eq_ok_iff.mpr ⟨rfl, small⟩
    simp only [htotal, bind, Except.bind, hroom]
    refine cutByWeight_exists degree (fun u hu => told.each u (by omega)) ?_
    rw [← List.range_eq_range', told.weigh_nodes, Nat.zero_add]
    exact small

theorem degreePartitions_overflow {g : Graph} {workers : Nat} (hn : g.nodes ≠ 0)
    (large : countLimit ≤ g.relationships + g.nodes) :
    degreePartitions g workers = .error .overflow := by
  have htotal : addCounts g.relationships g.nodes = .error .overflow :=
    if_neg (Nat.not_lt.mpr large)
  simp only [degreePartitions, if_neg hn, htotal, bind, Except.bind]

theorem degreePartitions_without_room {g : Graph} {workers : Nat} (hn : g.nodes ≠ 0)
    (small : g.relationships + g.nodes < countLimit)
    (room : objectLimit ≤ workers * Partition.size) :
    degreePartitions g workers = .error .capacity := by
  have hrefused := makeRoom_eq_error_iff.mpr ⟨rfl, room⟩
  simp only [degreePartitions, if_neg hn, addCounts_eq_ok_iff.mpr ⟨rfl, small⟩, hrefused, bind,
    Except.bind]

theorem tasks_filled {config : Config} {graph : Graph} {strategy : Strategy} {ps : List Partition}
    (hs : config.strategy graph = .ok strategy) (ht : strategy.tasks graph.nodes = .ok ps) :
    Filled ps := by
  rcases config.strategy_cases hs with rfl | ⟨listed, rfl, hlisted⟩
  · simp only [Strategy.tasks] at ht
    split at ht
    next => cases ht; exact filled_nil
    next hn => exact leaves_filled (Nat.pos_of_ne_zero hn) ht
  · obtain ⟨_, rfl⟩ := tasks_partitioned_iff.mp ht
    rcases hlisted with hrange | hdegree
    · exact rangePartitions_filled hrange
    · exact degreePartitions_filled hdegree

/-- The number of partitions a configuration asks room for before it divides the nodes. -/
def Config.listed (config : Config) (nodes : Nat) : Nat :=
  match config.partitioning with
  | .auto => 0
  | .range => min (max config.concurrency 1) nodes
  | .degree => if nodes = 0 then 0 else config.concurrency

section Strategies

variable {g : Adjacency} {config : Config}

theorem strategy_exists (made : g.Made) (small : g.relationships + g.nodes < countLimit)
    (room : config.listed g.nodes * Partition.size < objectLimit) :
    ∃ strategy, config.strategy g.toGraph = .ok strategy := by
  cases hp : config.partitioning with
  | auto => exact ⟨.workStealing config.partitionThreshold, by simp only [Config.strategy, hp]⟩
  | range =>
    have hroom : min (max config.concurrency 1) g.nodes * Partition.size < objectLimit := by
      simpa only [Config.listed, hp] using room
    obtain ⟨ps, hps⟩ := rangePartitions_exists hroom (show g.nodes < countLimit by omega)
    exact ⟨.partitioned ps, by simp only [Config.strategy, hp, Adjacency.toGraph, hps]; rfl⟩
  | degree =>
    have hroom : 0 < g.nodes → makeRoom config.concurrency Partition.size = .ok () := by
      intro hn
      simp only [Config.listed, hp, if_neg (Nat.ne_of_gt hn)] at room
      exact makeRoom_eq_ok_iff.mpr room
    obtain ⟨degree, told⟩ := made.hasDegrees
    obtain ⟨ps, hps⟩ := degreePartitions_exists told small hroom
    exact ⟨.partitioned ps, by simp only [Config.strategy, hp, hps]; rfl⟩

/-- Without room for the list nothing is divided, and that is the only thing that can go wrong. -/
theorem strategy_without_room {graph : Graph}
    (small : graph.relationships + graph.nodes < countLimit)
    (room : objectLimit ≤ config.listed graph.nodes * Partition.size) :
    config.strategy graph = .error .capacity := by
  have hpos : ¬ objectLimit ≤ 0 * Partition.size := by decide
  cases hp : config.partitioning with
  | auto =>
    simp only [Config.listed, hp] at room
    exact absurd room hpos
  | range =>
    simp only [Config.listed, hp] at room
    have hrefused := makeRoom_eq_error_iff.mpr ⟨rfl, room⟩
    have hsome : 0 < min (max config.concurrency 1) graph.nodes := by
      refine Nat.pos_of_ne_zero fun hnone => hpos ?_
      rwa [hnone] at room
    simp only [Config.strategy, hp, rangePartitions_of_pos rfl hsome, hrefused]
    rfl
  | degree =>
    simp only [Config.listed, hp] at room
    split at room
    next => exact absurd room hpos
    next hn =>
      have hrefused := degreePartitions_without_room hn small room
      simp only [Config.strategy, hp, hrefused, bind, Except.bind]

end Strategies

/-- However the nodes of a graph are to be divided, there is a strategy for it as soon as there is
room for the list of partitions, and in every superstep it hands out every node once and nothing
else: its partitions are not empty, have no node in common and reach no further than the nodes, and
in whatever order the tasks move, every node is visited once. -/
theorem tasks_share_nodes {g : Adjacency} (made : g.Made)
    (small : g.relationships + g.nodes < countLimit) (config : Config) :
    (makeRoom (config.listed g.nodes) Partition.size = .error .capacity →
      config.strategy g.toGraph = .error .capacity) ∧
    (makeRoom (config.listed g.nodes) Partition.size = .ok () →
      ∃ strategy ps, config.strategy g.toGraph = .ok strategy ∧
        strategy.tasks g.nodes = .ok ps ∧
        (∀ p ∈ ps, 0 < p.length ∧ p.start + p.length ≤ g.nodes) ∧
        ps.Pairwise (fun p q => p.ids.Disjoint q.ids) ∧
        strategy.handed g.nodes = .ok (ps.flatMap Partition.ids) ∧
        (∀ v, (ps.flatMap Partition.ids).count v = if v < g.nodes then 1 else 0) ∧
        ∀ schedule : Schedule, schedule.Valid → ∀ superstep v,
          ((schedule.moves superstep ps).filterMap Move.node?).count v =
            if v < g.nodes then 1 else 0) := by
  constructor
  · intro hroom
    exact strategy_without_room small (makeRoom_eq_error_iff.mp hroom).2
  · intro hroom
    obtain ⟨strategy, hs⟩ := strategy_exists made small (makeRoom_eq_ok_iff.mp hroom)
    obtain ⟨ps, ht⟩ := tasks_exist hs (show g.nodes < countLimit by omega)
    have htiles : Tiles 0 ps g.nodes := tasks_tiles hs ht
    have hfilled := tasks_filled hs ht
    have hcovers : CoversOnce g.nodes ps := htiles.coversOnce
    have hnodup : (ps.flatMap Partition.ids).Nodup :=
      (coversOnce_iff_perm.mp hcovers).nodup_iff.mpr List.nodup_range
    refine ⟨strategy, ps, hs, ht, fun p hp => ⟨hfilled p hp, ?_⟩, (List.nodup_flatMap.mp hnodup).2,
      ?_, hcovers, fun schedule hv superstep v => ?_⟩
    · have hlast : p.start + p.length - 1 ∈ ps.flatMap Partition.ids := by
        have hlength := hfilled p hp
        exact List.mem_flatMap.mpr ⟨p, hp, List.mem_range'_1.mpr ⟨by omega, by omega⟩⟩
      have hlt := List.mem_range.mp ((coversOnce_iff_perm.mp hcovers).mem_iff.mp hlast)
      omega
    · rw [Strategy.handed_eq]
      exact congrArg _ ht
    · rw [(hv superstep ps).visits.count_eq]
      exact hcovers v

/-- Five nodes, one with three edges, are cut by weight for three workers. -/
theorem tasks_share_five : ∃ g strategy ps,
    Adjacency.ofEdges 5 [(0, 1), (0, 2), (0, 3), (3, 0)] = .ok g ∧
    (⟨3, 9, 1, .degree⟩ : Config).strategy g.toGraph = .ok strategy ∧
    strategy.tasks g.nodes = .ok ps ∧ ps = [⟨0, 1⟩, ⟨1, 3⟩, ⟨4, 1⟩] ∧
    ps.Pairwise (fun p q => p.ids.Disjoint q.ids) ∧
    strategy.handed g.nodes = .ok [0, 1, 2, 3, 4] := by
  have hg : Adjacency.ofEdges 5 [(0, 1), (0, 2), (0, 3), (3, 0)] =
      .ok ⟨#[0, 3, 3, 3, 4, 4], #[1, 2, 3, 0]⟩ := rfl
  obtain ⟨strategy, ps, hs, ht, _, hapart, hhanded, _⟩ :=
    (tasks_share_nodes (.ofEdges hg) (by decide) ⟨3, 9, 1, .degree⟩).2 rfl
  have hstrategy : (⟨3, 9, 1, .degree⟩ : Config).strategy
      (⟨#[0, 3, 3, 3, 4, 4], #[1, 2, 3, 0]⟩ : Adjacency).toGraph =
        .ok (.partitioned [⟨0, 1⟩, ⟨1, 3⟩, ⟨4, 1⟩]) := rfl
  obtain rfl : _ = strategy := Except.ok.inj (hstrategy.symm.trans hs)
  obtain ⟨_, rfl⟩ := tasks_partitioned_iff.mp ht
  exact ⟨_, _, _, hg, hs, ht, rfl, hapart, hhanded⟩

end BulkSync
