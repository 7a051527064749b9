import BulkSync.Run
import Mathlib.Data.List.Perm.Basic

namespace BulkSync

/-- The task that makes a move. -/
def Move.task : Move → Nat
  | .visit task _ => task
  | .finish task => task

/-- The node that a move visits. -/
def Move.node? : Move → Option Nat
  | .visit _ node => some node
  | .finish _ => none

/-- The task that hands over in a move. -/
def Move.finished? : Move → Option Nat
  | .visit _ _ => none
  | .finish task => some task

section MoveLists

variable (moves : List Move) (task node : Nat)

theorem nodes_visit :
    (moves ++ [Move.visit task node]).filterMap Move.node? =
      moves.filterMap Move.node? ++ [node] := by
  simp [Move.node?]

theorem nodes_finish :
    (moves ++ [Move.finish task]).filterMap Move.node? = moves.filterMap Move.node? := by
  rw [List.filterMap_append]
  exact List.append_nil _

theorem finished_visit :
    (moves ++ [Move.visit task node]).filterMap Move.finished? =
      moves.filterMap Move.finished? := by
  rw [List.filterMap_append]
  exact List.append_nil _

theorem finished_finish :
    (moves ++ [Move.finish task]).filterMap Move.finished? =
      moves.filterMap Move.finished? ++ [task] := by
  simp [Move.finished?]

end MoveLists

/-- What a task does with its partition: its nodes from the first to the last, then it hands
over. -/
def Partition.moves (task : Nat) (p : Partition) : List Move :=
  p.ids.map (.visit task) ++ [.finish task]

/-- The moves of one task. -/
def taskMoves (partitions : List Partition) (task : Nat) : List Move :=
  (partitions[task]?.map (Partition.moves task)).getD []

/-- The moves of all tasks, each in its own order, in any order between different tasks. -/
def Interleaves (partitions : List Partition) (moves : List Move) : Prop :=
  ∀ task, moves.filter (fun m => m.task == task) = taskMoves partitions task

/-- In every superstep each task does what it has to, and nothing else. -/
def Schedule.Valid (schedule : Schedule) : Prop :=
  ∀ superstep partitions, Interleaves partitions (schedule.moves superstep partitions)

theorem Partition.moves_filter (task other : Nat) (p : Partition) :
    (p.moves task).filter (fun m => m.task == other) =
      if task = other then p.moves task else [] := by
  have ht : ∀ m ∈ p.moves task, m.task = task := by
    intro m hm
    rcases List.mem_append.mp hm with hm | hm
    · obtain ⟨node, _, rfl⟩ := List.mem_map.mp hm
      rfl
    · rw [List.mem_singleton.mp hm]
      rfl
  by_cases h : task = other
  · rw [if_pos h]
    exact List.filter_eq_self.mpr fun m hm => by simp [ht m hm, h]
  · rw [if_neg h]
    exact List.filter_eq_nil_iff.mpr fun m hm => by simp [ht m hm, h]

theorem zipIdx_filter (partitions : List Partition) (first task : Nat) :
    (partitions.zipIdx first).filter (fun x => x.2 == task) =
      if first ≤ task then (partitions[task - first]?.map fun p => (p, task)).toList else [] := by
  induction partitions generalizing first with
  | nil => simp
  | cons p rest ih =>
    rw [List.zipIdx_cons]
    rcases Nat.lt_trichotomy first task with h | h | h
    · have hsub : task - first = task - (first + 1) + 1 := by omega
      rw [List.filter_cons_of_neg (by simpa using Nat.ne_of_lt h), ih (first + 1),
        if_pos (by omega), if_pos (by omega), hsub]
      rfl
    · subst h
      rw [List.filter_cons_of_pos (by simp), ih (first + 1), if_neg (by omega),
        if_pos (Nat.le_refl _), Nat.sub_self]
      rfl
    · rw [List.filter_cons_of_neg (by simpa using Nat.ne_of_gt h), ih (first + 1),
        if_neg (by omega), if_neg (by omega)]

/-- Tasks that run one after the other, in whatever order, interleave. -/
theorem taskwise_interleaves {partitions : List Partition} {order : List (Partition × Nat)}
    (h : order.Perm partitions.zipIdx) :
    Interleaves partitions (order.flatMap fun x => x.1.moves x.2) := by
  intro task
  have hkeep : ∀ l : List (Partition × Nat), (l.flatMap fun x => x.1.moves x.2).filter
      (fun m => m.task == task) =
        (l.filter fun x => x.2 == task).flatMap fun x => x.1.moves x.2 := by
    intro l
    induction l with
    | nil => rfl
    | cons x rest ih =>
      rw [List.flatMap_cons, List.filter_append, ih, Partition.moves_filter]
      by_cases hx : x.2 = task
      · rw [if_pos hx, List.filter_cons_of_pos (by simp [hx]), List.flatMap_cons]
      · rw [if_neg hx, List.filter_cons_of_neg (by simp [hx]), List.nil_append]
  have hperm := h.filter fun x => x.2 == task
  rw [zipIdx_filter, if_pos (Nat.zero_le task), Nat.sub_zero] at hperm
  rw [hkeep, taskMoves]
  cases hp : partitions[task]? with
  | none =>
    rw [hp] at hperm
    rw [List.perm_nil.mp hperm]
    rfl
  | some p =>
    rw [hp] at hperm
    rw [List.perm_singleton.mp hperm]
    simp

theorem sequentialMoves_interleaves (partitions : List Partition) :
    Interleaves partitions (sequentialMoves partitions) :=
  taskwise_interleaves (List.Perm.refl partitions.zipIdx)

theorem Partition.moves_nodes (task : Nat) (p : Partition) :
    (p.moves task).filterMap Move.node? = p.ids := by
  rw [Partition.moves, nodes_finish, List.filterMap_map]
  exact List.filterMap_some

/-- One after the other, the tasks visit the nodes of the partitions in their order. -/
theorem sequentialMoves_nodes (partitions : List Partition) :
    (sequentialMoves partitions).filterMap Move.node? = partitions.flatMap Partition.ids := by
  calc (sequentialMoves partitions).filterMap Move.node?
      = partitions.zipIdx.flatMap fun x => (x.1.moves x.2).filterMap Move.node? :=
        List.filterMap_flatMap
    _ = (partitions.zipIdx.map Prod.fst).flatMap Partition.ids := by
        simp only [Partition.moves_nodes, List.flatMap_map]
    _ = partitions.flatMap Partition.ids := by rw [List.zipIdx_map_fst]

theorem sequentialMoves_finishes (partitions : List Partition) :
    (sequentialMoves partitions).filterMap Move.finished? = List.range partitions.length := by
  have hfinish : ∀ x : Partition × Nat, (x.1.moves x.2).filterMap Move.finished? = [x.2] := by
    intro x
    rw [Partition.moves, finished_finish, List.filterMap_map]
    exact congrArg (· ++ [x.2]) (List.filterMap_eq_nil_iff.mpr fun _ _ => rfl)
  calc (sequentialMoves partitions).filterMap Move.finished?
      = partitions.zipIdx.flatMap fun x => (x.1.moves x.2).filterMap Move.finished? :=
        List.filterMap_flatMap
    _ = partitions.zipIdx.map Prod.snd := by
        simp only [hfinish]
        exact List.flatMap_pure_eq_map Prod.snd _
    _ = List.range partitions.length := by
        rw [List.zipIdx_map_snd, List.range_eq_range']

theorem sequential_valid : Schedule.sequential.Valid :=
  fun _ partitions => sequentialMoves_interleaves partitions

/-- The schedule of a single worker that takes the last task first. -/
def Schedule.backward : Schedule :=
  ⟨fun _ partitions => partitions.zipIdx.reverse.flatMap fun x => x.1.moves x.2, fun _ => false⟩

theorem backward_valid : Schedule.backward.Valid :=
  fun _ partitions => taskwise_interleaves partitions.zipIdx.reverse_perm

namespace Interleaves

variable {partitions : List Partition} {moves : List Move}

/-- Every interleaving has the same moves. -/
theorem perm (h : Interleaves partitions moves) : moves.Perm (sequentialMoves partitions) := by
  refine List.perm_iff_count.mpr fun m => ?_
  have hm : ∀ l : List Move, l.count m = (l.filter fun x => x.task == m.task).count m := by
    intro l
    rw [List.count_filter (by simp)]
  rw [hm, hm (sequentialMoves partitions), h, sequentialMoves_interleaves]

/-- Every node of a partition is visited as often as the partitions name it. -/
theorem visits (h : Interleaves partitions moves) :
    (moves.filterMap Move.node?).Perm (partitions.flatMap Partition.ids) :=
  (h.perm.filterMap _).trans (.of_eq (sequentialMoves_nodes partitions))

/-- Every task hands over once. -/
theorem finishes (h : Interleaves partitions moves) :
    (moves.filterMap Move.finished?).Perm (List.range partitions.length) :=
  (h.perm.filterMap _).trans (.of_eq (sequentialMoves_finishes partitions))

/-- A task that makes a move is one of the tasks, and has not handed over before. -/
theorem pending {done rest : List Move} {m : Move}
    (h : Interleaves partitions (done ++ m :: rest)) :
    m.task < partitions.length ∧ Move.finish m.task ∉ done := by
  have hm := h m.task
  rw [List.filter_append, List.filter_cons_of_pos (by simp)] at hm
  unfold taskMoves at hm
  cases hp : partitions[m.task]? with
  | none => simp [hp] at hm
  | some p =>
    refine ⟨(List.getElem?_eq_some_iff.mp hp).1, fun hf => ?_⟩
    -- A task has only visits before its last move, so its hand-over comes after all its others.
    have hvisits : ∀ x ∈ done.filter fun x => x.task == m.task, ∃ node, x = .visit m.task node := by
      intro x hx
      have hd := congrArg List.dropLast hm
      rw [hp, Option.map_some, Option.getD_some, Partition.moves, List.dropLast_concat,
        List.dropLast_append_of_ne_nil (by simp)] at hd
      have hmem : x ∈ p.ids.map (Move.visit m.task) := by
        rw [← hd]
        exact List.mem_append_left _ hx
      obtain ⟨node, _, rfl⟩ := List.mem_map.mp hmem
      exact ⟨node, rfl⟩
    obtain ⟨node, hnode⟩ := hvisits _ (List.mem_filter.mpr ⟨hf, by simp [Move.task]⟩)
    cases hnode

end Interleaves

end BulkSync
