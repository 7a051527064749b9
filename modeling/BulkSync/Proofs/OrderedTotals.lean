import BulkSync.Proofs.TwinTotals

namespace BulkSync

variable {M R : Type}

/-- Entries in ascending order of their tasks. -/
abbrev TasksAscend (es : List (Entry M R)) : Prop :=
  es.Pairwise fun x y => ∀ i j, x.task? = some i → y.task? = some j → i ≤ j

theorem task_unique {x : Entry M R} {task i : Nat}
    (h : x.task? = none ∨ x.task? = some task) (hi : x.task? = some i) : i = task := by
  rcases h with hn | hs
  · rw [hn] at hi
    cases hi
  · rw [hs] at hi
    cases hi
    rfl

/-- When the moves come task by task, so do the callbacks. -/
theorem Played.tasksAscend {engine : Engine M R} {superstep : Nat} {begun round : Round M R}
    {moves : List Move} {es : List (Entry M R)}
    (h : Played engine superstep begun moves es round)
    (hm : moves.Pairwise fun m m' => m.task ≤ m'.task) : TasksAscend es := by
  induction h with
  | start => exact .nil
  | @visit moves es round task node tally new e journal played found working visited written ih =>
    obtain ⟨hbefore, _, hlast⟩ := List.pairwise_append.mp hm
    have hnew := fun x hx => (visited.effect.entries x hx).2.1
    refine List.pairwise_append.mpr ⟨ih hbefore, ?_, ?_⟩
    · refine List.pairwise_of_forall_mem_list fun x hx y hy i j hi hj => ?_
      have hi := task_unique (hnew x hx) hi
      have hj := task_unique (hnew y hy) hj
      omega
    · intro x hx y hy i j hi hj
      obtain ⟨other, v, hmove, _, hother, _⟩ := played.effect.entries x hx
      have hle : other ≤ task := hlast _ hmove (.visit task node) (by simp)
      have hi := task_unique hother hi
      have hj := task_unique (hnew y hy) hj
      omega
  | finish played found working merged ih =>
    exact ih (List.pairwise_append.mp hm).1

theorem sequentialMoves_ascend (partitions : List Partition) :
    (sequentialMoves partitions).Pairwise fun m m' => m.task ≤ m'.task := by
  have htask : ∀ (p : Partition) (task : Nat), ∀ m ∈ p.moves task, m.task = task := by
    intro p task m hm
    rcases List.mem_append.mp hm with hm | hm
    · obtain ⟨node, _, rfl⟩ := List.mem_map.mp hm
      rfl
    · rw [List.mem_singleton.mp hm]
      rfl
  suffices h : ∀ first, ((partitions.zipIdx first).flatMap fun x => x.1.moves x.2).Pairwise
      fun m m' => m.task ≤ m'.task from h 0
  induction partitions with
  | nil => exact fun _ => .nil
  | cons p rest ih =>
    intro first
    rw [List.zipIdx_cons, List.flatMap_cons]
    refine List.pairwise_append.mpr ⟨?_, ih (first + 1), ?_⟩
    · refine List.pairwise_of_forall_mem_list fun m hm m' hm' => ?_
      have hm := htask p first m hm
      have hm' := htask p first m' hm'
      omega
    · intro m hm m' hm'
      obtain ⟨⟨q, task⟩, hq, hmoves⟩ := List.mem_flatMap.mp hm'
      have hge := List.mem_zipIdx hq
      have hm := htask p first m hm
      have hm' := htask q task m' hmoves
      omega

/-- What the tasks gave, one task after the other, is what the callbacks gave in their order. -/
theorem taskGave_in_order {tasks : Nat} {es : List (Entry M R)} (key : String)
    (ht : ∀ x ∈ es, x.task? = none ∨ ∃ task < tasks, x.task? = some task)
    (ho : TasksAscend es) :
    ((List.range tasks).map fun task => taskGave task key es).flatten =
      es.flatMap (Entry.gave key) := by
  have hgroups := groups_in_order Entry.task? tasks _ (task_of_mem ht) (ho.filter _)
  simp only [taskEntries_of_tasks] at hgroups
  rw [← List.flatMap_def, ← gave_of_tasks key es, ← hgroups, List.flatMap_assoc]
  rfl

/-- Executing the same contributions in the same order leads to the same totals, however they are
divided into tasks. -/
theorem Round.Accounts.gathered_eq_in_order {declared : List Aggregator} {tasks tasks' : Nat}
    {es es' : List (Entry M R)} {round round' : Round M R}
    (hd : (declared.map Aggregator.key).Nodup) (ha : ∀ a ∈ declared, a.combine.Associative)
    (h : round.Accounts declared (List.range tasks) es)
    (h' : round'.Accounts declared (List.range tasks') es')
    (ht : ∀ x ∈ es, x.task? = none ∨ ∃ task < tasks, x.task? = some task)
    (ht' : ∀ x ∈ es', x.task? = none ∨ ∃ task < tasks', x.task? = some task)
    (ho : TasksAscend es) (ho' : TasksAscend es')
    (hgave : ∀ key, es.flatMap (Entry.gave key) = es'.flatMap (Entry.gave key)) :
    round.state.aggregates.gathered = round'.state.aggregates.gathered := by
  refine h.gathered_ext hd h' fun a hmem ps qs t u hp hq hps hqs => ?_
  refine fold_parts_eq_of_flatten (ha a hmem) ?_ hp hq hps hqs
  rw [taskGave_in_order a.key ht ho, taskGave_in_order a.key ht' ho', hgave]

end BulkSync
