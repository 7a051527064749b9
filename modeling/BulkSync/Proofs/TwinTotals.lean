import BulkSync.Proofs.Combining
import BulkSync.Proofs.Tallies

namespace BulkSync

variable {M R : Type}

theorem totals_ext {declared : List Aggregator} {totals totals' : Totals}
    (hd : (declared.map Aggregator.key).Nodup) (hl : totals.length = declared.length)
    (hl' : totals'.length = declared.length)
    (h : ∀ a ∈ declared, Totals.value? a.key declared totals =
      Totals.value? a.key declared totals') : totals = totals' := by
  induction declared generalizing totals totals' with
  | nil => rw [List.length_eq_zero_iff.mp hl, List.length_eq_zero_iff.mp hl']
  | cons a rest ih =>
    obtain ⟨hfresh, hd'⟩ := List.nodup_cons.mp hd
    cases totals with
    | nil => cases hl
    | cons total totals =>
      cases totals' with
      | nil => cases hl'
      | cons total' totals' =>
        have hhead := h a (by simp)
        rw [Totals.value?_cons_self, Totals.value?_cons_self] at hhead
        have hrest : totals = totals' := by
          refine ih hd' (Nat.succ.inj hl) (Nat.succ.inj hl') fun b hb => ?_
          have hne : a.key ≠ b.key := by
            intro hh
            exact hfresh (hh ▸ List.mem_map_of_mem hb)
          have hb' := h b (List.mem_cons_of_mem _ hb)
          rwa [Totals.value?_cons_of_ne hne, Totals.value?_cons_of_ne hne] at hb'
        rw [hhead, hrest]

/-- Only entries of tasks give anything. -/
theorem gave_of_tasks (key : String) (es : List (Entry M R)) :
    (es.filter fun x => x.task?.isSome).flatMap (Entry.gave key) = es.flatMap (Entry.gave key) := by
  induction es with
  | nil => rfl
  | cons x rest ih =>
    cases hx : x.task? with
    | none =>
      rw [List.flatMap_cons, (entry_without_task hx).2.2, List.nil_append,
        List.filter_cons_of_neg (by simp [hx]), ih]
    | some t =>
      rw [List.flatMap_cons, List.filter_cons_of_pos (by simp [hx]), List.flatMap_cons, ih]

theorem taskEntries_of_tasks (task : Nat) (es : List (Entry M R)) :
    taskEntries task (es.filter fun x => x.task?.isSome) = taskEntries task es := by
  unfold taskEntries withKey
  rw [List.filter_filter]
  refine List.filter_congr fun x _ => ?_
  cases x.task? <;> simp

theorem task_of_mem {tasks : Nat} {es : List (Entry M R)}
    (ht : ∀ x ∈ es, x.task? = none ∨ ∃ task < tasks, x.task? = some task) :
    ∀ x ∈ es.filter (fun x => x.task?.isSome), ∃ task < tasks, x.task? = some task := by
  intro x hx
  obtain ⟨hmem, hsome⟩ := List.mem_filter.mp hx
  rcases ht x hmem with hn | hs
  · rw [hn] at hsome
    cases hsome
  · exact hs

/-- What all tasks gave under a key is what all callbacks gave under it. -/
theorem taskGave_perm {finished : List Nat} {tasks : Nat} {es : List (Entry M R)} (key : String)
    (hf : finished.Perm (List.range tasks))
    (ht : ∀ x ∈ es, x.task? = none ∨ ∃ task < tasks, x.task? = some task) :
    (finished.flatMap fun task => taskGave task key es).Perm (es.flatMap (Entry.gave key)) := by
  have hgroups := groups_perm Entry.task? tasks _ (task_of_mem ht)
  simp only [taskEntries_of_tasks] at hgroups
  rw [← gave_of_tasks key es]
  refine ((hf.flatMap_right _).trans (.of_eq ?_)).trans (hgroups.flatMap_right _)
  rw [List.flatMap_assoc]
  rfl

/-- The totals of two rounds are the same, if for every aggregator the totals of the tasks fold to
the same. -/
theorem Round.Accounts.gathered_ext {declared : List Aggregator} {finished finished' : List Nat}
    {es es' : List (Entry M R)} {round round' : Round M R}
    (hd : (declared.map Aggregator.key).Nodup)
    (h : round.Accounts declared finished es) (h' : round'.Accounts declared finished' es')
    (heq : ∀ a ∈ declared, ∀ ps qs t u,
      List.Forall₂ (fun l t => a.combine.fold l = .ok t)
        (finished.map fun task => taskGave task a.key es) ps →
      List.Forall₂ (fun l t => a.combine.fold l = .ok t)
        (finished'.map fun task => taskGave task a.key es') qs →
      a.combine.fold (ps.filterMap id) = .ok t → a.combine.fold (qs.filterMap id) = .ok u →
      t = u) :
    round.state.aggregates.gathered = round'.state.aggregates.gathered := by
  obtain ⟨parts, hparts, hg⟩ := h.gathered
  obtain ⟨parts', hparts', hg'⟩ := h'.gathered
  refine totals_ext hd hg.length_eq hg'.length_eq fun a ha => ?_
  refine heq a ha _ _ _ _ (taskGave_values hd ha hparts) (taskGave_values hd ha hparts') ?_ ?_
  · rw [List.filterMap_map]
    exact hg.value? hd ha
  · rw [List.filterMap_map]
    exact hg'.value? hd ha

/-- Executing the same contributions in different tasks and orders leads to the same totals. -/
theorem Round.Accounts.gathered_eq {declared : List Aggregator} {finished finished' : List Nat}
    {tasks tasks' : Nat} {es es' : List (Entry M R)} {round round' : Round M R}
    (hd : (declared.map Aggregator.key).Nodup) (hl : ∀ a ∈ declared, a.combine.Lawful)
    (h : round.Accounts declared finished es) (h' : round'.Accounts declared finished' es')
    (hf : finished.Perm (List.range tasks)) (hf' : finished'.Perm (List.range tasks'))
    (ht : ∀ x ∈ es, x.task? = none ∨ ∃ task < tasks, x.task? = some task)
    (ht' : ∀ x ∈ es', x.task? = none ∨ ∃ task < tasks', x.task? = some task)
    (hgave : ∀ key, (es.flatMap (Entry.gave key)).Perm (es'.flatMap (Entry.gave key))) :
    round.state.aggregates.gathered = round'.state.aggregates.gathered := by
  refine h.gathered_ext hd h' fun a ha ps qs t u hp hq hps hqs => ?_
  have hflat : (finished.map fun task => taskGave task a.key es).flatten.Perm
      (finished'.map fun task => taskGave task a.key es').flatten := by
    rw [← List.flatMap_def, ← List.flatMap_def]
    exact (taskGave_perm a.key hf ht).trans
      ((hgave a.key).trans (taskGave_perm a.key hf' ht').symm)
  exact fold_parts_eq (hl a ha) hflat hp hq hps hqs

end BulkSync
