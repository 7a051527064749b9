import BulkSync.Proofs.GreedyCuts
import Mathlib.Algebra.Order.Floor.Div

namespace BulkSync

/-- A division of the nodes into ranges of which all but the last carry the target. -/
structure Division (degree : Nat → Nat) (target nodes : Nat) (ps : List Partition) : Prop where
  tiles : Tiles 0 ps nodes
  filled : Filled ps
  loaded : Loaded degree target ps

section Targets

variable {g : Graph} {degree : Nat → Nat} {workers : Nat} {ps : List Partition}

theorem degreePartitions_greedy_ceil (told : g.HasDegrees degree)
    (h : degreePartitions g workers = .ok ps) :
    Greedy degree ((g.relationships + g.nodes) ⌈/⌉ max workers 1) ps := by
  have hgreedy := degreePartitions_greedy told h
  rwa [← Nat.add_sub_assoc (Nat.le_max_right _ _), ← Nat.ceilDiv_eq_add_pred_div] at hgreedy

theorem degreePartitions_division (told : g.HasDegrees degree)
    (h : degreePartitions g workers = .ok ps) :
    Division degree ((g.relationships + g.nodes) ⌈/⌉ max workers 1) g.nodes ps where
  tiles := degreePartitions_tiles h
  filled := degreePartitions_filled h
  loaded := (degreePartitions_greedy_ceil told h).loaded

theorem Division.length_le {qs : List Partition}
    (hq : Division degree ((g.relationships + g.nodes) ⌈/⌉ max workers 1) g.nodes qs)
    (told : g.HasDegrees degree) (h : degreePartitions g workers = .ok ps) :
    qs.length ≤ ps.length :=
  (degreePartitions_greedy_ceil told h).tight.length_ge (degreePartitions_tiles h) hq.tiles
    (Nat.le_refl 0) hq.filled hq.loaded

theorem degreePartitions_length_le_min (told : g.HasDegrees degree)
    (h : degreePartitions g workers = .ok ps) : ps.length ≤ min (max workers 1) g.nodes := by
  have hworkers := degreePartitions_length_le told h
  have hnodes := (degreePartitions_tiles h).length_le (degreePartitions_filled h)
  omega

theorem degreePartitions_weigh_le (told : g.HasDegrees degree)
    (h : degreePartitions g workers = .ok ps) {bound : Nat}
    (hbound : ∀ u < g.nodes, degree u ≤ bound) : g.relationships + g.nodes ≤
      ps.length * ((g.relationships + g.nodes) ⌈/⌉ max workers 1 + bound) := by
  have hids := degreePartitions_ids h
  have hnode : ∀ u ∈ ps.flatMap Partition.ids, degree u ≤ bound := by
    rw [hids]
    exact fun u hu => hbound u (List.mem_range.mp hu)
  have hweigh := (degreePartitions_greedy_ceil told h).tight.weigh_le hnode
  rwa [hids, told.weigh_nodes] at hweigh

end Targets

/-- Nodes divided by their weight: nothing overflows, there are no more ranges than workers, all
but the last carry what falls to a worker, and none would carry it without its last node. -/
theorem degreePartitions_balanced {g : Graph} {degree : Nat → Nat} (told : g.HasDegrees degree)
    (small : g.relationships + g.nodes < countLimit) (workers : Nat)
    (hroom : 0 < g.nodes → makeRoom workers Partition.size = .ok ()) :
    ∃ ps, degreePartitions g workers = .ok ps ∧
      ps.flatMap Partition.ids = List.range g.nodes ∧ (∀ p ∈ ps, 0 < p.length) ∧
      ps.length ≤ max workers 1 ∧
      (∀ p ∈ ps.dropLast,
        (g.relationships + g.nodes) ⌈/⌉ max workers 1 ≤ weigh degree p.ids) ∧
      ∀ p ∈ ps, weigh degree p.ids.dropLast < (g.relationships + g.nodes) ⌈/⌉ max workers 1 := by
  obtain ⟨ps, h⟩ := degreePartitions_exists told small hroom
  have hgreedy := degreePartitions_greedy_ceil told h
  exact ⟨ps, h, degreePartitions_ids h, degreePartitions_filled h,
    degreePartitions_length_le told h, hgreedy.loaded, hgreedy.tight⟩

/-- Five nodes for three workers: three fall to each, and the last range has less. -/
theorem degreePartitions_balanced_five : ∃ g degree ps,
    Adjacency.ofEdges 5 [(0, 1), (0, 2), (0, 3), (3, 0)] = .ok g ∧ g.toGraph.HasDegrees degree ∧
    g.relationships + g.nodes < countLimit ∧ makeRoom 3 Partition.size = .ok () ∧
    degreePartitions g.toGraph 3 = .ok ps ∧ ps = [⟨0, 1⟩, ⟨1, 3⟩, ⟨4, 1⟩] ∧
    3 ≤ weigh degree [0] ∧ 3 ≤ weigh degree [1, 2, 3] ∧ weigh degree [1, 2] < 3 := by
  have hg : Adjacency.ofEdges 5 [(0, 1), (0, 2), (0, 3), (3, 0)] =
      .ok ⟨#[0, 3, 3, 3, 4, 4], #[1, 2, 3, 0]⟩ := rfl
  obtain ⟨degree, told⟩ := (Adjacency.Made.ofEdges hg).hasDegrees
  obtain ⟨ps, h, _, _, _, hloaded, htight⟩ :=
    degreePartitions_balanced told (by decide) 3 fun _ => rfl
  have hps : degreePartitions (⟨#[0, 3, 3, 3, 4, 4], #[1, 2, 3, 0]⟩ : Adjacency).toGraph 3 =
      .ok [⟨0, 1⟩, ⟨1, 3⟩, ⟨4, 1⟩] := rfl
  obtain rfl := Except.ok.inj (h.symm.trans hps)
  exact ⟨_, degree, _, hg, told, by decide, rfl, h, rfl, hloaded ⟨0, 1⟩ (by decide),
    hloaded ⟨1, 3⟩ (by decide), htight ⟨1, 3⟩ (by decide)⟩

/-- How many ranges there are when nodes are divided by their weight. There are none if the weight
cannot be counted or there is no room for as many as there are workers. Otherwise there are at most
as many as there are workers and nodes, and enough for the weight when each has what falls to a
worker and a heaviest node. No division in which all but the last range carry what falls to a worker
has more, so every worker gets a range, as long as there are nodes, if and only if such a division
has one for each. -/
theorem degreePartitions_most_ranges {g : Adjacency} (made : g.Made) (workers : Nat) :
    (0 < g.nodes → countLimit ≤ g.relationships + g.nodes →
      degreePartitions g.toGraph workers = .error .overflow) ∧
    (0 < g.nodes → g.relationships + g.nodes < countLimit →
      makeRoom workers Partition.size = .error .capacity →
      degreePartitions g.toGraph workers = .error .capacity) ∧
    (g.relationships + g.nodes < countLimit →
      (0 < g.nodes → makeRoom workers Partition.size = .ok ()) →
      ∃ degree ps, g.toGraph.HasDegrees degree ∧ degreePartitions g.toGraph workers = .ok ps ∧
        ps.length ≤ min (max workers 1) g.nodes ∧
        (∀ bound, (∀ u < g.nodes, degree u ≤ bound) → g.relationships + g.nodes ≤
          ps.length * ((g.relationships + g.nodes) ⌈/⌉ max workers 1 + bound)) ∧
        Division degree ((g.relationships + g.nodes) ⌈/⌉ max workers 1) g.nodes ps ∧
        (∀ qs, Division degree ((g.relationships + g.nodes) ⌈/⌉ max workers 1) g.nodes qs →
          qs.length ≤ ps.length) ∧
        (ps.length = min (max workers 1) g.nodes ↔
          ∃ qs, Division degree ((g.relationships + g.nodes) ⌈/⌉ max workers 1) g.nodes qs ∧
            qs.length = min (max workers 1) g.nodes)) := by
  refine ⟨fun hn hlarge => ?_, fun hn small hroom => ?_, fun small hroom => ?_⟩
  · exact degreePartitions_overflow (Nat.ne_of_gt hn) hlarge
  · exact degreePartitions_without_room (Nat.ne_of_gt hn) small (makeRoom_eq_error_iff.mp hroom).2
  · obtain ⟨degree, told⟩ := made.hasDegrees
    obtain ⟨ps, h⟩ := degreePartitions_exists told small hroom
    have hle : ps.length ≤ min (max workers 1) g.nodes := degreePartitions_length_le_min told h
    have hdivision := degreePartitions_division told h
    refine ⟨degree, ps, told, h, hle, fun bound hbound => degreePartitions_weigh_le told h hbound,
      hdivision, fun qs hqs => hqs.length_le told h, fun heq => ⟨ps, hdivision, heq⟩, ?_⟩
    rintro ⟨qs, hqs, hcount⟩
    exact Nat.le_antisymm hle (hcount ▸ hqs.length_le told h)

/-- Four nodes, the second with three edges: for three workers there are two ranges, and no division
in which the first ones carry the target has more. -/
theorem degreePartitions_most_ranges_four : ∃ g degree ps,
    Adjacency.ofEdges 4 [(1, 0), (1, 2), (1, 3)] = .ok g ∧ g.relationships + g.nodes < countLimit ∧
    makeRoom 3 Partition.size = .ok () ∧ g.toGraph.HasDegrees degree ∧
    degreePartitions g.toGraph 3 = .ok ps ∧ ps = [⟨0, 2⟩, ⟨2, 2⟩] ∧
    ∀ qs, Division degree 3 4 qs → qs.length ≤ 2 := by
  have hg : Adjacency.ofEdges 4 [(1, 0), (1, 2), (1, 3)] = .ok ⟨#[0, 0, 3, 3, 3], #[0, 2, 3]⟩ := rfl
  obtain ⟨degree, ps, told, h, _, _, _, hmost, _⟩ :=
    (degreePartitions_most_ranges (.ofEdges hg) 3).2.2 (by decide) fun _ => rfl
  have hps : degreePartitions (⟨#[0, 0, 3, 3, 3], #[0, 2, 3]⟩ : Adjacency).toGraph 3 =
      .ok [⟨0, 2⟩, ⟨2, 2⟩] := rfl
  obtain rfl := Except.ok.inj (h.symm.trans hps)
  exact ⟨_, degree, _, hg, by decide, rfl, told, h, rfl, hmost⟩

/-- A worker may go without a range though there are nodes for all: two nodes stay together as the
first one alone is too light, and nine nodes of the same weight, divided evenly among eight
workers, are cut into five. -/
theorem degreePartitions_without_range :
    (∃ g ps, Adjacency.ofEdges 2 [(1, 0)] = .ok g ∧ degreePartitions g.toGraph 2 = .ok ps ∧
      ps.length < min 2 g.nodes) ∧
    ∃ g ps rs, Adjacency.ofEdges 9 [] = .ok g ∧ degreePartitions g.toGraph 8 = .ok ps ∧
      rangePartitions 8 9 = .ok rs ∧ ps.length = 5 ∧ rs.length = 8 ∧ min 8 g.nodes = 8 :=
  ⟨⟨_, _, rfl, rfl, by decide⟩, _, _, _, rfl, rfl, rfl, rfl, rfl, rfl⟩

end BulkSync
