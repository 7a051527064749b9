import BulkSync.Proofs.Grouping
import BulkSync.Proofs.Rounds

namespace BulkSync

variable {M R : Type}

/-- The entries of the nodes that a task let compute. -/
abbrev taskEntries (task : Nat) (es : List (Entry M R)) : List (Entry M R) :=
  withKey Entry.task? task es

def taskGave (task : Nat) (key : String) (es : List (Entry M R)) : List Float :=
  (taskEntries task es).flatMap (Entry.gave key)

/-- A tally that accounts for the entries of its task. -/
structure Tally.Accounts (declared : List Aggregator) (task : Nat) (es : List (Entry M R))
    (tally : Tally) : Prop where
  computed : tally.computed = (taskEntries task es).length
  sent : tally.sent = ((taskEntries task es).map Entry.sends).sum
  partials : tally.partials.Gathers declared fun key => taskGave task key es

/-- A round that accounts for the tasks that have handed over. -/
structure Round.Accounts (declared : List Aggregator) (finished : List Nat)
    (es : List (Entry M R)) (round : Round M R) : Prop where
  computed : round.computed =
    (finished.map fun task => (taskEntries task es).length).sum % countLimit
  sent : round.sent =
    (finished.map fun task => ((taskEntries task es).map Entry.sends).sum).sum % countLimit
  gathered : ∃ parts : List Totals,
    List.Forall₂ (fun task part => Totals.Gathers declared (fun key => taskGave task key es) part)
      finished parts ∧
    Totals.Gathers declared (fun key => parts.filterMap (Totals.value? key declared))
      round.state.aggregates.gathered

/-- The total of each task folds what the task gave. -/
theorem taskGave_values {declared : List Aggregator} {tasks : List Nat} {es : List (Entry M R)}
    {parts : List Totals} {a : Aggregator} (hd : (declared.map Aggregator.key).Nodup)
    (ha : a ∈ declared)
    (h : List.Forall₂ (fun task part =>
      Totals.Gathers declared (fun key => taskGave task key es) part) tasks parts) :
    List.Forall₂ (fun given total => a.combine.fold given = .ok total)
      (tasks.map fun task => taskGave task a.key es)
      (parts.map (Totals.value? a.key declared)) := by
  induction h with
  | nil => exact .nil
  | cons hpart _ ih => exact .cons (Totals.Gathers.value? hd hpart ha) ih

/-- Only a node that computes sends messages and contributes to aggregates. -/
theorem entry_without_task {x : Entry M R} (h : x.task? = none) :
    x.sends = 0 ∧ (∀ node, x.sentTo node = []) ∧ ∀ key, x.gave key = [] := by
  cases x with
  | compute => cases h
  | init => exact ⟨rfl, fun _ => rfl, fun _ => rfl⟩
  | master => exact ⟨rfl, fun _ => rfl, fun _ => rfl⟩
  | close => exact ⟨rfl, fun _ => rfl, fun _ => rfl⟩

theorem taskEntries_new {task : Nat} {new : List (Entry M R)}
    (h : ∀ x ∈ new, x.task? = none ∨ x.task? = some task) :
    (taskEntries task new).length = new.countP (fun x => x.task?.isSome) ∧
      ((taskEntries task new).map Entry.sends).sum = (new.map Entry.sends).sum ∧
      ∀ key, taskGave task key new = new.flatMap (Entry.gave key) := by
  induction new with
  | nil => exact ⟨rfl, rfl, fun _ => rfl⟩
  | cons x rest ih =>
    obtain ⟨hlength, hsends, hgave⟩ := ih fun y hy => h y (List.mem_cons_of_mem _ hy)
    unfold taskGave at hgave ⊢
    rcases h x (by simp) with hx | hx
    · obtain ⟨hxsends, _, hxgave⟩ := entry_without_task hx
      have hcons : taskEntries task (x :: rest) = taskEntries task rest :=
        List.filter_cons_of_neg (by simp [hx])
      rw [hcons, hlength, hsends]
      exact ⟨by simp [hx], by simp [hxsends], fun key => by simp [hxgave, hgave]⟩
    · have hcons : taskEntries task (x :: rest) = x :: taskEntries task rest :=
        List.filter_cons_of_pos (by simp [hx])
      rw [hcons, List.length_cons, hlength, List.map_cons, List.sum_cons, hsends]
      exact ⟨by simp [hx], by simp, fun key => by simp [hgave]⟩

theorem taskEntries_other {task other : Nat} {new : List (Entry M R)} (hne : other ≠ task)
    (h : ∀ x ∈ new, x.task? = none ∨ x.task? = some task) : taskEntries other new = [] := by
  refine withKey_other fun x hx => ?_
  rcases h x hx with hx | hx
  · simp [hx]
  · simpa [hx] using Ne.symm hne

theorem taskEntries_append (task : Nat) (es new : List (Entry M R)) :
    taskEntries task (es ++ new) = taskEntries task es ++ taskEntries task new :=
  withKey_append ..

theorem taskEntries_append_other {task other : Nat} (es : List (Entry M R))
    {new : List (Entry M R)} (hne : other ≠ task)
    (h : ∀ x ∈ new, x.task? = none ∨ x.task? = some task) :
    taskEntries other (es ++ new) = taskEntries other es := by
  rw [taskEntries_append, taskEntries_other hne h, List.append_nil]

/-- The visit of a node keeps the account of its own task. -/
theorem Tally.Accounts.visit {declared : List Aggregator} {superstep task node : Nat}
    {es new : List (Entry M R)} {d e : Desk M} (h : d.tally.Accounts declared task es)
    (hdeclared : d.state.aggregates.declared = declared)
    (hd : (declared.map Aggregator.key).Nodup) (hv : VisitEffect superstep task node new d e) :
    e.tally.Accounts declared task (es ++ new) := by
  obtain ⟨hlength, hsends, hgave⟩ := taskEntries_new fun x hx => (hv.entries x hx).2.1
  have happend := taskEntries_append task es new
  subst hdeclared
  exact {
    computed := by
      rw [hv.computed, happend, List.length_append, hlength, ← h.computed]
    sent := by
      rw [hv.sent, happend, List.map_append, List.sum_append, hsends, ← h.sent]
    partials := by
      refine (hv.partials _ hd h.partials).congr fun a _ => ?_
      rw [← hgave, taskGave, happend, List.flatMap_append]
      rfl }

/-- The visit of a node keeps the accounts of all other tasks. -/
theorem Tally.Accounts.append {declared : List Aggregator} {task other : Nat}
    {es new : List (Entry M R)} {tally : Tally} (h : tally.Accounts declared other es)
    (hne : other ≠ task) (hnew : ∀ x ∈ new, x.task? = none ∨ x.task? = some task) :
    tally.Accounts declared other (es ++ new) := by
  have hsame := taskEntries_append_other es hne hnew
  exact ⟨by rw [hsame, h.computed], by rw [hsame, h.sent],
    by simpa only [taskGave, hsame] using h.partials⟩

theorem Played.tally_accounts {engine : Engine M R} {superstep tasks : Nat} {s : State M}
    {journal : Array (Entry M R)} {moves : List Move} {es : List (Entry M R)} {round : Round M R}
    (hd : (s.aggregates.declared.map Aggregator.key).Nodup)
    (h : Played engine superstep (.start s tasks journal) moves es round) :
    ∀ (task : Nat) (tally : Tally), round.tallies[task]? = some tally →
      tally.Accounts s.aggregates.declared task es := by
  induction h with
  | start =>
    intro task tally ht
    simp only [Round.start, Array.getElem?_replicate] at ht
    split at ht
    next =>
      cases ht
      exact ⟨rfl, rfl, Totals.blank_gathers _⟩
    next => cases ht
  | @visit moves es round task node tally new e journal played found working visited written ih =>
    intro t other ht
    have hv := visited.effect
    by_cases he : task = t
    · subst he
      have hlt := (Array.getElem?_eq_some_iff.mp found).1
      simp only [Array.getElem?_setIfInBounds_self_of_lt hlt, Option.some.injEq] at ht
      rw [← ht]
      exact (ih task tally found).visit played.effect.fits.declared hd hv
    · simp only [Array.getElem?_setIfInBounds_ne he] at ht
      exact (ih t other ht).append (Ne.symm he) fun x hx => (hv.entries x hx).2.1
  | @finish moves es round task tally aggregates played found working merged ih =>
    intro t other ht
    by_cases he : task = t
    · subst he
      have hlt := (Array.getElem?_eq_some_iff.mp found).1
      simp only [Array.getElem?_setIfInBounds_self_of_lt hlt, Option.some.injEq] at ht
      obtain ⟨hcomputed, hsent, hpartials⟩ := ih task tally found
      rw [← ht]
      exact ⟨hcomputed, hsent, hpartials⟩
    · simp only [Array.getElem?_setIfInBounds_ne he] at ht
      exact ih t other ht

/-- A task that works on has not handed over. -/
theorem Played.not_finished {engine : Engine M R} {superstep tasks task : Nat} {s : State M}
    {journal : Array (Entry M R)} {moves : List Move} {es : List (Entry M R)} {round : Round M R}
    (h : Played engine superstep (.start s tasks journal) moves es round) {tally : Tally}
    (found : round.tallies[task]? = some tally) (working : tally.ended = false) :
    task ∉ moves.filterMap Move.finished? := by
  intro ht
  obtain ⟨m, hm, hf⟩ := List.mem_filterMap.mp ht
  cases m with
  | visit => cases hf
  | finish u =>
    cases hf
    have hended := (h.ended.2 _ _ found).mpr hm
    rw [working] at hended
    cases hended

/-- Entries of tasks that still work do not change the accounts of the round. -/
theorem Round.Accounts.append {declared : List Aggregator} {finished : List Nat}
    {es new : List (Entry M R)} {round next : Round M R} (h : round.Accounts declared finished es)
    (hsame : ∀ t ∈ finished, taskEntries t (es ++ new) = taskEntries t es)
    (computed : next.computed = round.computed) (sent : next.sent = round.sent)
    (gathered : next.state.aggregates.gathered = round.state.aggregates.gathered) :
    next.Accounts declared finished (es ++ new) := by
  obtain ⟨hcomputed, hsent, parts, hparts, hgathered⟩ := h
  refine ⟨?_, ?_, parts, ?_, ?_⟩
  · rw [List.map_congr_left fun t ht => by rw [hsame t ht], computed]
    exact hcomputed
  · rw [List.map_congr_left fun t ht => by rw [hsame t ht], sent]
    exact hsent
  · refine List.forall₂_iff_get.mpr ⟨hparts.length_eq, fun i h₁ h₂ => ?_⟩
    have hget := List.Forall₂.get hparts h₁ h₂
    simpa only [taskGave, hsame _ (List.get_mem _ _)] using hget
  · rw [gathered]
    exact hgathered

/-- What has been handed over is what the tasks did that have handed over. -/
theorem Played.round_accounts {engine : Engine M R} {superstep tasks : Nat} {s : State M}
    {journal : Array (Entry M R)} {moves : List Move} {es : List (Entry M R)} {round : Round M R}
    (hd : (s.aggregates.declared.map Aggregator.key).Nodup)
    (hb : s.aggregates.gathered = Totals.blank s.aggregates.declared)
    (h : Played engine superstep (.start s tasks journal) moves es round) :
    round.Accounts s.aggregates.declared (moves.filterMap Move.finished?) es := by
  induction h with
  | start =>
    refine ⟨rfl, rfl, [], .nil, ?_⟩
    rw [show (Round.start s tasks journal).state = s from rfl, hb]
    exact Totals.blank_gathers _
  | @visit moves es round task node tally new e journal played found working visited written ih =>
    have hv := visited.effect
    rw [finished_visit]
    refine ih.append (fun t ht => ?_) rfl rfl hv.gathered
    refine taskEntries_append_other es ?_ fun x hx => (hv.entries x hx).2.1
    rintro rfl
    exact played.not_finished found working ht
  | @finish moves es round task tally aggregates played found working merged ih =>
    obtain ⟨hcomputed, hsent, parts, hparts, hgathered⟩ := ih
    have htally := played.tally_accounts hd task tally found
    obtain ⟨_, _, hmerge⟩ := aggregates_merge_ok merged
    have hdeclared : round.state.aggregates.declared = s.aggregates.declared :=
      played.effect.fits.declared
    rw [hdeclared] at hmerge
    rw [finished_finish]
    refine ⟨?_, ?_, parts ++ [tally.partials],
      List.rel_append hparts (.cons htally.partials .nil), ?_⟩
    · rw [List.map_append, List.sum_append]
      simp only [List.map_cons, List.map_nil, List.sum_cons, List.sum_nil]
      rw [hcomputed, htally.computed, Nat.mod_add_mod, Nat.add_zero]
    · rw [List.map_append, List.sum_append]
      simp only [List.map_cons, List.map_nil, List.sum_cons, List.sum_nil]
      rw [hsent, htally.sent, Nat.mod_add_mod, Nat.add_zero]
    · have hg := Totals.merge_gathers hd hgathered htally.partials.length_eq hmerge
      refine hg.congr fun a _ => ?_
      rw [List.filterMap_append]
      cases hvalue : Totals.value? a.key s.aggregates.declared tally.partials <;> simp [hvalue]

/-- Once all tasks have handed over, the counters of the round count all of its callbacks. -/
theorem Round.Accounts.counted {declared : List Aggregator} {finished : List Nat} {tasks : Nat}
    {es : List (Entry M R)} {round : Round M R} (h : round.Accounts declared finished es)
    (hf : finished.Perm (List.range tasks))
    (ht : ∀ x ∈ es, x.task? = none ∨ ∃ task < tasks, x.task? = some task) :
    round.computed = es.countP (fun x => x.task?.isSome) % countLimit ∧
      round.sent = (es.map Entry.sends).sum % countLimit := by
  have hsum : ∀ w : Entry M R → Nat, (∀ x, x.task? = none → w x = 0) →
      (finished.map fun task => ((taskEntries task es).map w).sum).sum = (es.map w).sum := by
    intro w hw
    rw [(hf.map _).sum_eq]
    refine sum_groups Entry.task? tasks w es fun x hx hne => ?_
    rcases ht x hx with hn | ⟨task, hlt, hs⟩
    · exact absurd (hw x hn) hne
    · exact ⟨task, hlt, hs⟩
  have hcomputed : ∀ task, (taskEntries task es).length =
      ((taskEntries task es).map fun x => if x.task?.isSome then 1 else 0).sum := by
    intro task
    rw [← countP_eq_sum, eq_comm, List.countP_eq_length]
    intro x hx
    have hkey := (List.mem_filter.mp hx).2
    rw [eq_of_beq hkey]
    rfl
  constructor
  · rw [h.computed, List.map_congr_left fun task _ => hcomputed task, countP_eq_sum,
      hsum _ fun x hx => by simp [hx]]
  · rw [h.sent, hsum _ fun x hx => (entry_without_task hx).1]

end BulkSync
