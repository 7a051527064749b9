import BulkSync.Engine
import BulkSync.Proofs.Halvings
import Mathlib.Algebra.BigOperators.Group.List.Basic
import Mathlib.Algebra.GroupWithZero.Nat

namespace BulkSync

/-- Partitions that follow one another from `start` to `stop` without a gap. -/
inductive Tiles : Nat → List Partition → Nat → Prop
  | nil (start : Nat) : Tiles start [] start
  | cons {start length stop : Nat} {rest : List Partition} :
      Tiles (start + length) rest stop → Tiles start (⟨start, length⟩ :: rest) stop

namespace Tiles

theorem append {start middle stop : Nat} {ps qs : List Partition} (hp : Tiles start ps middle)
    (hq : Tiles middle qs stop) : Tiles start (ps ++ qs) stop := by
  induction hp with
  | nil => exact hq
  | cons _ ih => exact .cons (ih hq)

theorem le {start stop : Nat} {ps : List Partition} (h : Tiles start ps stop) : start ≤ stop := by
  induction h with
  | nil => exact Nat.le_refl _
  | cons _ ih => omega

/-- Partitions without a gap have every id between their ends, once and in order. -/
theorem ids {start stop : Nat} {ps : List Partition} (h : Tiles start ps stop) :
    ps.flatMap Partition.ids = List.range' start (stop - start) := by
  induction h with
  | nil => simp
  | @cons start length stop rest hrest ih =>
    have hle := hrest.le
    have hlen : stop - start = length + (stop - (start + length)) := by omega
    rw [List.flatMap_cons, ih, hlen, ← List.range'_append]
    simp [Partition.ids]

/-- A partition starts where the lengths of those before it end. -/
theorem start_eq {start stop i : Nat} {p : Partition} {ps : List Partition}
    (h : Tiles start ps stop) (hp : ps[i]? = some p) :
    p.start = start + ((ps.map Partition.length).take i).sum := by
  induction h generalizing i with
  | nil => simp at hp
  | cons _ ih =>
    cases i with
    | zero =>
      cases Option.some.inj hp
      rw [List.take_zero, List.sum_nil, Nat.add_zero]
    | succ i =>
      rw [List.getElem?_cons_succ] at hp
      rw [ih hp, List.map_cons, List.take_succ_cons, List.sum_cons, Nat.add_assoc]

theorem covered {stop : Nat} {ps : List Partition} (h : Tiles 0 ps stop)
    (hs : stop < countLimit) : Strategy.covered ps = .ok stop := by
  have hlast : ∀ start, Tiles start ps stop → ps ≠ [] →
      ∃ p, ps.getLast? = some p ∧ p.start + p.length = stop := by
    clear h
    induction ps with
    | nil => exact fun _ _ hne => absurd rfl hne
    | cons p rest ih =>
      intro start hp _
      cases hp with
      | @cons _ length _ _ hrest =>
        cases rest with
        | nil => cases hrest; exact ⟨_, rfl, rfl⟩
        | cons q qs =>
          obtain ⟨l, hl, he⟩ := ih _ hrest (by simp)
          exact ⟨l, by rw [List.getLast?_cons_cons]; exact hl, he⟩
  cases ps with
  | nil => cases h; rfl
  | cons p rest =>
    obtain ⟨l, hl, he⟩ := hlast 0 h (by simp)
    unfold Strategy.covered
    rw [hl]
    exact addCounts_eq_ok_iff.mpr ⟨he.symm, by omega⟩

end Tiles

/-- Halving a range again and again leaves no gap. -/
theorem Halves.tiles {threshold : Nat} {p : Partition} {calls : Halving}
    (h : Halves threshold p calls) : Tiles p.start calls.runs (p.start + p.length) := by
  induction h with
  | run => exact .cons (.nil _)
  | @fork p left right _ _ _ ihl ihr =>
    have hstop : p.start + p.length = p.start + p.length / 2 + (p.length - p.length / 2) := by
      omega
    rw [hstop]
    exact ihl.append ihr

theorem leaves_tiles {threshold : Nat} {p : Partition} {ps : List Partition}
    (h : p.leaves threshold = .ok ps) : Tiles p.start ps (p.start + p.length) := by
  obtain ⟨calls, hcalls, rfl⟩ := leaves_calls h
  exact hcalls.tiles

theorem consecutive_cons {laid : Array Partition} {start length : Nat} {rest : List Nat}
    {ps : List Partition} (h : consecutive laid start (length :: rest) = .ok ps) :
    consecutive (laid.push ⟨start, length⟩) (start + length) rest = .ok ps := by
  simp only [consecutive, bind_eq_ok_iff] at h
  obtain ⟨next, hnext, hrest⟩ := h
  obtain ⟨rfl, _⟩ := addCounts_eq_ok_iff.mp hnext
  exact hrest

theorem consecutive_lengths {laid : Array Partition} {start : Nat} {lengths : List Nat}
    {ps : List Partition} (h : consecutive laid start lengths = .ok ps) :
    ps.map Partition.length = laid.toList.map Partition.length ++ lengths := by
  induction lengths generalizing laid start with
  | nil =>
    cases h
    rw [List.append_nil]
  | cons length rest ih => rw [ih (consecutive_cons h)]; simp

theorem consecutive_tiles {laid : Array Partition} {first start : Nat} {lengths : List Nat}
    {ps : List Partition} (hl : Tiles first laid.toList start)
    (h : consecutive laid start lengths = .ok ps) : Tiles first ps (start + lengths.sum) := by
  induction lengths generalizing laid start with
  | nil => cases h; simpa using hl
  | cons length rest ih =>
    have hpush : Tiles first (laid.push ⟨start, length⟩).toList (start + length) := by
      rw [Array.toList_push]
      exact hl.append (.cons (.nil _))
    rw [List.sum_cons, ← Nat.add_assoc]
    exact ih hpush (consecutive_cons h)

/-- The first shares of an even division: each has the base, and one more as long as there is
something extra. -/
theorem sum_first_shares (base extra i : Nat) :
    ((List.range i).map fun j => base + if j < extra then 1 else 0).sum =
      i * base + min i extra := by
  induction i with
  | zero => simp
  | succ i ih =>
    rw [List.range_succ, List.map_append, List.sum_append, ih, Nat.succ_mul]
    simp only [List.map_cons, List.map_nil, List.sum_cons, List.sum_nil]
    split <;> omega

theorem sum_shares (count nodes : Nat) (h : nodes = 0 ∨ count ≠ 0) :
    ((List.range count).map fun i => nodes / count + if i < nodes % count then 1 else 0).sum =
      nodes := by
  rw [sum_first_shares]
  rcases h with rfl | hc
  · simp
  · have hlt := Nat.mod_lt nodes (Nat.pos_of_ne_zero hc)
    have hdiv := Nat.div_add_mod nodes count
    omega

/-- What is divided is divided by a count that is not zero. -/
theorem rangePartitions_of_pos {workers nodes count : Nat}
    (hcount : min (max workers 1) nodes = count) (hpos : 0 < count) :
    rangePartitions workers nodes = (do
      makeRoom count Partition.size
      consecutive #[] 0 ((List.range count).map fun i =>
        nodes / count + if i < nodes % count then 1 else 0)) := by
  simp only [rangePartitions, hcount, if_neg (Nat.ne_of_gt hpos), divideCounts_of_pos hpos]
  rfl

theorem rangePartitions_ok {workers nodes : Nat} {ps : List Partition}
    (h : rangePartitions workers nodes = .ok ps) :
    consecutive #[] 0 ((List.range (min (max workers 1) nodes)).map fun i =>
      nodes / min (max workers 1) nodes +
        if i < nodes % min (max workers 1) nodes then 1 else 0) = .ok ps := by
  rcases Nat.eq_zero_or_pos (min (max workers 1) nodes) with hnone | hpos
  · rw [rangePartitions, if_pos hnone] at h
    rw [hnone]
    exact h
  · rw [rangePartitions_of_pos rfl hpos] at h
    obtain ⟨_, _, hlaid⟩ := bind_eq_ok_iff.mp h
    exact hlaid

theorem rangePartitions_lengths {workers nodes : Nat} {ps : List Partition}
    (h : rangePartitions workers nodes = .ok ps) :
    ps.map Partition.length = (List.range (min (max workers 1) nodes)).map fun i =>
      nodes / min (max workers 1) nodes +
        if i < nodes % min (max workers 1) nodes then 1 else 0 :=
  consecutive_lengths (rangePartitions_ok h)

theorem rangePartitions_length {workers nodes : Nat} {ps : List Partition}
    (h : rangePartitions workers nodes = .ok ps) : ps.length = min (max workers 1) nodes := by
  have hlengths := congrArg List.length (rangePartitions_lengths h)
  rwa [List.length_map, List.length_map, List.length_range] at hlengths

theorem rangePartitions_tiles {workers nodes : Nat} {ps : List Partition}
    (h : rangePartitions workers nodes = .ok ps) : Tiles 0 ps nodes := by
  have ht : Tiles 0 ps _ := consecutive_tiles (.nil 0) (rangePartitions_ok h)
  rwa [sum_shares _ _ (by omega), Nat.zero_add] at ht

/-- A node is the last one of its partition if it brings the weight up to the target. -/
theorem cutByWeight_succ {g : Graph} {target remaining node start weight : Nat}
    {ps : List Partition} (h : cutByWeight g target (remaining + 1) node start weight = .ok ps) :
    ∃ degree, g.degree node = .ok degree ∧
      ((target ≤ weight + (degree + 1) ∧
        ∃ others, cutByWeight g target remaining (node + 1) (node + 1) 0 = .ok others ∧
          ps = ⟨start, node + 1 - start⟩ :: others) ∨
      (weight + (degree + 1) < target ∧
        cutByWeight g target remaining (node + 1) start (weight + (degree + 1)) = .ok ps)) := by
  simp only [cutByWeight, bind_eq_ok_iff] at h
  obtain ⟨degree, hdegree, own, hown, total, htotal, h⟩ := h
  obtain ⟨rfl, _⟩ := addCounts_eq_ok_iff.mp hown
  obtain ⟨rfl, _⟩ := addCounts_eq_ok_iff.mp htotal
  refine ⟨degree, hdegree, ?_⟩
  split at h
  next hfull =>
    obtain ⟨others, hothers, hps⟩ := bind_eq_ok_iff.mp h
    exact .inl ⟨hfull, others, hothers, (Except.ok.inj hps).symm⟩
  next hfull => exact .inr ⟨Nat.lt_of_not_le hfull, h⟩

theorem cutByWeight_tiles {g : Graph} {target remaining node start weight : Nat}
    {ps : List Partition} (hs : start ≤ node)
    (h : cutByWeight g target remaining node start weight = .ok ps) :
    Tiles start ps (node + remaining) := by
  induction remaining generalizing node start weight ps with
  | zero =>
    cases h
    split
    next hlt =>
      have hstop : node + 0 = start + (node - start) := by omega
      rw [hstop]
      exact .cons (.nil _)
    next hge =>
      have he : node + 0 = start := by omega
      rw [he]
      exact .nil _
  | succ remaining ih =>
    have hstop : node + (remaining + 1) = node + 1 + remaining := by omega
    rw [hstop]
    obtain ⟨degree, _, ⟨_, others, hothers, rfl⟩ | ⟨_, hrest⟩⟩ := cutByWeight_succ h
    · have hnext : start + (node + 1 - start) = node + 1 := by omega
      refine .cons ?_
      rw [hnext]
      exact ih (Nat.le_refl _) hothers
    · exact ih (by omega) hrest

theorem degreePartitions_ok {g : Graph} {workers : Nat} {ps : List Partition}
    (h : degreePartitions g workers = .ok ps) :
    (g.nodes = 0 ∧ ps = []) ∨ (g.nodes ≠ 0 ∧
      cutByWeight g ((g.relationships + g.nodes + (max workers 1 - 1)) / max workers 1) g.nodes
        0 0 0 = .ok ps) := by
  unfold degreePartitions at h
  split at h
  next h0 => exact .inl ⟨h0, (Except.ok.inj h).symm⟩
  next hn =>
    simp only [bind_eq_ok_iff] at h
    obtain ⟨total, htotal, _, _, hcut⟩ := h
    obtain ⟨rfl, _⟩ := addCounts_eq_ok_iff.mp htotal
    exact .inr ⟨hn, hcut⟩

theorem degreePartitions_tiles {g : Graph} {workers : Nat} {ps : List Partition}
    (h : degreePartitions g workers = .ok ps) : Tiles 0 ps g.nodes := by
  rcases degreePartitions_ok h with ⟨h0, rfl⟩ | ⟨_, hcut⟩
  · rw [h0]
    exact .nil 0
  · have ht := cutByWeight_tiles (Nat.le_refl 0) hcut
    rwa [Nat.zero_add] at ht

/-- Of a fixed list only the end of its last partition is looked at. -/
theorem tasks_partitioned_iff {ps qs : List Partition} {nodes : Nat} :
    (Strategy.partitioned ps).tasks nodes = .ok qs ↔ Strategy.covered ps = .ok nodes ∧ qs = ps := by
  simp only [Strategy.tasks, bind, Except.bind]
  cases Strategy.covered ps with
  | error f => simp
  | ok stop =>
    by_cases hs : stop = nodes
    · simp [hs, pure, Except.pure, eq_comm]
    · simp [hs]

/-- How the strategy of a configuration comes about. -/
theorem Config.strategy_cases {config : Config} {graph : Graph} {strategy : Strategy}
    (h : config.strategy graph = .ok strategy) :
    strategy = .workStealing config.partitionThreshold ∨
      ∃ ps, strategy = .partitioned ps ∧
        (rangePartitions config.concurrency graph.nodes = .ok ps ∨
          degreePartitions graph config.concurrency = .ok ps) := by
  unfold Config.strategy at h
  split at h
  next => exact .inl (Except.ok.inj h).symm
  next =>
    obtain ⟨ps, hps, hstrategy⟩ := bind_eq_ok_iff.mp h
    exact .inr ⟨ps, (Except.ok.inj hstrategy).symm, .inl hps⟩
  next =>
    obtain ⟨ps, hps, hstrategy⟩ := bind_eq_ok_iff.mp h
    exact .inr ⟨ps, (Except.ok.inj hstrategy).symm, .inr hps⟩

theorem strategy_tiles {config : Config} {graph : Graph} {ps : List Partition}
    (h : rangePartitions config.concurrency graph.nodes = .ok ps ∨
      degreePartitions graph config.concurrency = .ok ps) : Tiles 0 ps graph.nodes :=
  h.elim rangePartitions_tiles degreePartitions_tiles

/-- However the nodes are divided, the tasks of a superstep have every node once. -/
theorem tasks_tiles {config : Config} {graph : Graph} {strategy : Strategy} {ps : List Partition}
    (hs : config.strategy graph = .ok strategy) (ht : strategy.tasks graph.nodes = .ok ps) :
    Tiles 0 ps graph.nodes := by
  rcases config.strategy_cases hs with rfl | ⟨listed, rfl, hlisted⟩
  · simp only [Strategy.tasks] at ht
    split at ht
    next h0 =>
      cases ht
      rw [h0]
      exact .nil 0
    next =>
      have hl := leaves_tiles ht
      rwa [Partition.whole, Nat.zero_add] at hl
  · obtain ⟨_, rfl⟩ := tasks_partitioned_iff.mp ht
    exact strategy_tiles hlisted

/-- A graph with fewer nodes than there are ids can always be divided. -/
theorem tasks_exist {config : Config} {graph : Graph} {strategy : Strategy}
    (hs : config.strategy graph = .ok strategy) (hn : graph.nodes < countLimit) :
    ∃ ps, strategy.tasks graph.nodes = .ok ps := by
  rcases config.strategy_cases hs with rfl | ⟨listed, rfl, hlisted⟩
  · simp only [Strategy.tasks]
    split
    next => exact ⟨[], rfl⟩
    next =>
      refine leaves_exist _ _ ?_
      simpa [Partition.whole] using hn
  · exact ⟨listed, tasks_partitioned_iff.mpr ⟨(strategy_tiles hlisted).covered hn, rfl⟩⟩

end BulkSync
