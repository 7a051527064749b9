import BulkSync.Proofs.Tiling
import Mathlib.Data.List.Perm.Basic

namespace BulkSync

/-- Every node is in one of the partitions, once, and nothing else is in any of them. -/
def CoversOnce (nodes : Nat) (ps : List Partition) : Prop :=
  ∀ v, (ps.flatMap Partition.ids).count v = if v < nodes then 1 else 0

/-- The ids that a superstep hands to its tasks: each task takes down those of its partition. -/
def Strategy.handed (strategy : Strategy) (nodes : Nat) : Except Fault (List Nat) :=
  (strategy.run nodes fun p => .ok p.ids).map List.flatten

section Covering

variable {nodes : Nat} {ps : List Partition}

theorem coversOnce_iff_perm :
    CoversOnce nodes ps ↔ (ps.flatMap Partition.ids).Perm (.range nodes) := by
  rw [List.perm_iff_count]
  refine forall_congr' fun v => ?_
  rw [List.nodup_range.count]
  simp only [List.mem_range]

theorem Tiles.coversOnce (h : Tiles 0 ps nodes) : CoversOnce nodes ps := by
  rw [coversOnce_iff_perm, h.ids, List.range_eq_range', Nat.sub_zero]

theorem Partition.ids_of_isEmpty {p : Partition} (h : p.isEmpty = true) : p.ids = [] := by
  have hlength : p.length = 0 := by simpa [Partition.isEmpty] using h
  rw [Partition.ids, hlength, List.range'_zero]

theorem ids_of_filled (ps : List Partition) :
    (ps.filter fun p => !p.isEmpty).flatMap Partition.ids = ps.flatMap Partition.ids := by
  induction ps with
  | nil => rfl
  | cons p rest ih =>
    cases hp : p.isEmpty with
    | true =>
      rw [List.filter_cons_of_neg (by simp [hp]), ih, List.flatMap_cons,
        Partition.ids_of_isEmpty hp, List.nil_append]
    | false => rw [List.filter_cons_of_pos (by simp [hp]), List.flatMap_cons, List.flatMap_cons, ih]

/-- Partitions that are not empty and together have the ids of a range can be put one after the
other: the one that has the first id comes first. -/
theorem exists_tiling {start count : Nat} (hfilled : ∀ p ∈ ps, 0 < p.length)
    (h : (ps.flatMap Partition.ids).Perm (List.range' start count)) :
    ∃ qs : List Partition, qs.Perm ps ∧ Tiles start qs (start + count) := by
  induction hn : ps.length generalizing ps start count with
  | zero =>
    have hnil : ps = [] := List.eq_nil_of_length_eq_zero hn
    subst hnil
    have hcount : count = 0 := by simpa using h.length_eq.symm
    subst hcount
    exact ⟨[], .refl _, .nil start⟩
  | succ n ih =>
    have hids : ∀ p ∈ ps, ∀ v, p.start ≤ v → v < p.start + p.length →
        start ≤ v ∧ v < start + count := by
      intro p hp v hl hu
      have hv : v ∈ ps.flatMap Partition.ids :=
        List.mem_flatMap.mpr ⟨p, hp, List.mem_range'_1.mpr ⟨hl, hu⟩⟩
      exact List.mem_range'_1.mp (h.mem_iff.mp hv)
    obtain ⟨any, hany⟩ := List.exists_mem_of_length_pos (l := ps) (by omega)
    have hsome := hids any hany any.start (Nat.le_refl _) (by have := hfilled any hany; omega)
    have hfirst : start ∈ ps.flatMap Partition.ids :=
      h.mem_iff.mpr (List.mem_range'_1.mpr ⟨Nat.le_refl _, by omega⟩)
    -- the partition that has the first id begins with it, as no id comes before
    obtain ⟨p, hp, hstart⟩ := List.mem_flatMap.mp hfirst
    obtain ⟨hle, hlt⟩ := List.mem_range'_1.mp hstart
    have hpos := hfilled p hp
    have hbegins := hids p hp p.start (Nat.le_refl _) (by omega)
    have hends := hids p hp (p.start + p.length - 1) (by omega) (by omega)
    have heq : p.start = start := by omega
    have hperm := List.perm_cons_erase hp
    have hsplit : List.range' start count =
        p.ids ++ List.range' (start + p.length) (count - p.length) := by
      have hcount : count = p.length + (count - p.length) := by omega
      rw [Partition.ids, heq, List.range'_append_1, ← hcount]
    have hrest : ((ps.erase p).flatMap Partition.ids).Perm
        (List.range' (start + p.length) (count - p.length)) := by
      refine (List.perm_append_left_iff p.ids).mp ?_
      rw [← hsplit, ← List.flatMap_cons]
      exact (hperm.symm.flatMap_right _).trans h
    obtain ⟨qs, hqs, htiles⟩ := ih (fun q hq => hfilled q (List.mem_of_mem_erase hq)) hrest
      (by rw [List.length_erase_of_mem hp]; omega)
    have hstop : start + p.length + (count - p.length) = start + count := by omega
    rw [hstop] at htiles
    refine ⟨⟨start, p.length⟩ :: qs, ?_, .cons htiles⟩
    have hself : (⟨start, p.length⟩ : Partition) = p := by rw [← heq]
    rw [hself]
    exact (hqs.cons p).trans hperm.symm

/-- What it takes to cover the nodes: but for empty ones, the partitions are the pieces of a tiling
in some order. -/
theorem coversOnce_iff_tiles :
    CoversOnce nodes ps ↔ ∃ qs : List Partition, qs.Perm (ps.filter fun p => !p.isEmpty) ∧
      Tiles 0 qs nodes := by
  constructor
  · intro h
    have hfilled : ∀ p ∈ ps.filter fun p => !p.isEmpty, 0 < p.length := by
      intro p hp
      have hne := (List.mem_filter.mp hp).2
      have hlength : p.length ≠ 0 := by simpa [Partition.isEmpty] using hne
      omega
    have hperm := coversOnce_iff_perm.mp h
    rw [← ids_of_filled, List.range_eq_range'] at hperm
    obtain ⟨qs, hqs, htiles⟩ := exists_tiling hfilled hperm
    rw [Nat.zero_add] at htiles
    exact ⟨qs, hqs, htiles⟩
  · rintro ⟨qs, hqs, htiles⟩
    rw [coversOnce_iff_perm, ← ids_of_filled]
    exact (hqs.symm.flatMap_right _).trans (coversOnce_iff_perm.mp htiles.coversOnce)

end Covering

theorem Strategy.handed_eq (strategy : Strategy) (nodes : Nat) :
    strategy.handed nodes = (strategy.tasks nodes).map fun ps => ps.flatMap Partition.ids := by
  unfold Strategy.handed Strategy.run
  cases strategy.tasks nodes with
  | error f => rfl
  | ok ps =>
    have hrun : (ps.mapM fun p => (.ok p.ids : Except Fault (List Nat))) =
        .ok (ps.map Partition.ids) := List.mapM_pure
    simp only [bind, Except.bind, hrun, Except.map, List.flatMap_def]

theorem handed_partitioned_iff {ps : List Partition} {nodes : Nat} {ids : List Nat} :
    (Strategy.partitioned ps).handed nodes = .ok ids ↔
      Strategy.covered ps = .ok nodes ∧ ids = ps.flatMap Partition.ids := by
  rw [Strategy.handed_eq]
  constructor
  · intro h
    cases htasks : (Strategy.partitioned ps).tasks nodes with
    | error f => rw [htasks] at h; cases h
    | ok qs =>
      rw [htasks] at h
      obtain ⟨hcovered, rfl⟩ := tasks_partitioned_iff.mp htasks
      cases h
      exact ⟨hcovered, rfl⟩
  · rintro ⟨hcovered, rfl⟩
    rw [tasks_partitioned_iff.mpr ⟨hcovered, rfl⟩]
    rfl

/-- What becomes of a fixed list of partitions in a superstep. It is handed out if its last
partition stops where the nodes end. Then every node is handed out once, and no other id, if and
only if the partitions that are not empty are the pieces of a tiling of the nodes in some order.
For partitions that follow one another from the first node on, the end of the last one tells. -/
theorem fixed_partitions_handed_once_iff (ps : List Partition) (nodes : Nat) :
    ((∃ ids, (Strategy.partitioned ps).handed nodes = .ok ids) ↔
      Strategy.covered ps = .ok nodes) ∧
    (∀ ids, (Strategy.partitioned ps).handed nodes = .ok ids →
      ((∀ v, ids.count v = if v < nodes then 1 else 0) ↔
        ∃ qs : List Partition, qs.Perm (ps.filter fun p => !p.isEmpty) ∧ Tiles 0 qs nodes)) ∧
    ∀ stop < countLimit, Tiles 0 ps stop →
      ((∃ ids, (Strategy.partitioned ps).handed nodes = .ok ids ∧
        ∀ v, ids.count v = if v < nodes then 1 else 0) ↔ stop = nodes) := by
  refine ⟨?_, ?_, ?_⟩
  · exact ⟨fun ⟨ids, h⟩ => (handed_partitioned_iff.mp h).1,
      fun h => ⟨_, handed_partitioned_iff.mpr ⟨h, rfl⟩⟩⟩
  · intro ids h
    obtain ⟨_, rfl⟩ := handed_partitioned_iff.mp h
    exact coversOnce_iff_tiles
  · intro stop hstop htiles
    have hcovered := htiles.covered hstop
    constructor
    · rintro ⟨ids, h, _⟩
      have hpassed := (handed_partitioned_iff.mp h).1
      rw [hcovered] at hpassed
      cases hpassed
      rfl
    · rintro rfl
      exact ⟨_, handed_partitioned_iff.mpr ⟨hcovered, rfl⟩, htiles.coversOnce⟩

/-- A list may end where the nodes end and yet leave a node out, have one twice or have ids that
are no nodes. -/
theorem ill_covering_lists_pass :
    (∃ ids, (Strategy.partitioned [⟨0, 2⟩, ⟨4, 2⟩]).handed 6 = .ok ids ∧ ids.count 2 = 0) ∧
    (∃ ids, (Strategy.partitioned [⟨0, 4⟩, ⟨2, 4⟩]).handed 6 = .ok ids ∧ ids.count 2 = 2) ∧
    ∃ ids, (Strategy.partitioned [⟨5, 3⟩, ⟨0, 2⟩]).handed 2 = .ok ids ∧ ids.count 5 = 1 :=
  ⟨⟨_, rfl, rfl⟩, ⟨_, rfl, rfl⟩, ⟨_, rfl, rfl⟩⟩

end BulkSync
