import BulkSync.Proofs.Counters
import BulkSync.Proofs.TwinTotals

namespace BulkSync

variable {M R : Type}

/-- What a node contributed under a key in a superstep, in order. -/
def contributed (superstep node : Nat) (key : String) (journal : List (Entry M R)) : List Float :=
  (journal.filter (Entry.isCompute superstep node)).flatMap (Entry.gave key)

/-- All that was contributed under a key in a superstep. -/
def contributions (superstep : Nat) (key : String) (journal : List (Entry M R)) : List Float :=
  (journal.filter fun entry => entry.superstep? == some superstep).flatMap (Entry.gave key)

/-- What the nodes of a partition contributed, one node after the other. -/
def Partition.contributed (superstep : Nat) (key : String) (journal : List (Entry M R))
    (p : Partition) : List Float :=
  p.ids.flatMap fun node => BulkSync.contributed superstep node key journal

/-- The partitions of a superstep in the order in which their tasks hand over. -/
def Schedule.handOvers (schedule : Schedule) (superstep : Nat) (partitions : List Partition) :
    List Partition :=
  ((schedule.moves superstep partitions).filterMap Move.finished?).filterMap fun task =>
    partitions[task]?

/-- What was contributed under a key in a superstep, partition by partition. -/
def Engine.parts (engine : Engine M R) (schedule : Schedule) (superstep : Nat) (key : String)
    (journal : List (Entry M R)) : Except Fault (List (List Float)) := do
  let partitions ← engine.strategy.tasks engine.graph.nodes
  return (schedule.handOvers superstep partitions).map
    (Partition.contributed superstep key journal)

/-- Folds each part from the left, and then what the parts come to. -/
def Combiner.foldParts (combine : Combiner M) (parts : List (List M)) :
    Except Fault (Option M) := do
  let totals ← parts.mapM combine.fold
  combine.fold (totals.filterMap id)

/-- What the contributions of a superstep under a key come to: those of each partition from the
left, in the order of its nodes, and then what the partitions came to, in the order in which they
handed over. -/
def Engine.total (engine : Engine M R) (schedule : Schedule) (superstep : Nat) (key : String)
    (journal : List (Entry M R)) : Except Fault (Option Float) :=
  match engine.computation.aggregators.find? fun a => a.key == key with
  | none => .ok none
  | some a => do
    let parts ← engine.parts schedule superstep key journal
    a.combine.foldParts parts

/-- The total of the superstep before; before superstep 0 there is none. -/
def Engine.totalBefore (engine : Engine M R) (schedule : Schedule) :
    (superstep : Nat) → (key : String) → List (Entry M R) → Except Fault (Option Float)
  | 0, _, _ => .ok none
  | superstep + 1, key, journal => engine.total schedule superstep key journal

theorem Combiner.foldParts_ok {combine : Combiner M} {parts : List (List M)}
    {totals : List (Option M)} {total : Option M}
    (each : List.Forall₂ (fun part total => combine.fold part = .ok total) parts totals)
    (all : combine.fold (totals.filterMap id) = .ok total) :
    combine.foldParts parts = .ok total := by
  have hparts : parts.mapM combine.fold = .ok totals := by
    clear all
    induction each with
    | nil => rfl
    | cons head _ ih => rw [List.mapM_cons, head, ih]; rfl
  rw [Combiner.foldParts, hparts]
  exact all

/-- What there is only one part of comes to what its members fold into. -/
theorem Combiner.foldParts_one (combine : Combiner M) {parts : List (List M)}
    (hone : parts.length ≤ 1) : combine.foldParts parts = combine.fold parts.flatten := by
  match parts, hone with
  | [], _ => rfl
  | [part], _ =>
    rw [List.flatten_singleton]
    cases hfold : combine.fold part with
    | error f => simp only [Combiner.foldParts, List.mapM_cons, hfold, bind, Except.bind]
    | ok total =>
      refine Combiner.foldParts_ok (.cons hfold .nil) ?_
      cases total <;> rfl

section Readings

variable {superstep i node : Nat} {key : String} {old new es : List (Entry M R)}

theorem filter_isCompute (i node : Nat) (es : List (Entry M R)) :
    es.filter (Entry.isCompute i node) =
      ownEntries node (es.filter fun x => x.superstep? == some i) := by
  rw [ownEntries, withKey, List.filter_filter]
  exact List.filter_congr fun x _ => Bool.and_comm _ _

theorem contributed_after (h : After superstep new) (hi : i < superstep) :
    contributed i node key (old ++ new) = contributed i node key old := by
  rw [contributed, contributed, filter_isCompute, filter_isCompute, List.filter_append,
    superstep_filter_after h hi, List.append_nil]

theorem contributions_after (h : After superstep new) (hi : i < superstep) :
    contributions i key (old ++ new) = contributions i key old := by
  rw [contributions, contributions, List.filter_append, superstep_filter_after h hi,
    List.append_nil]

theorem parts_after {engine : Engine M R} {schedule : Schedule} (h : After superstep new)
    (hi : i < superstep) :
    engine.parts schedule i key (old ++ new) = engine.parts schedule i key old := by
  have hsame : Partition.contributed i key (old ++ new) = Partition.contributed i key old := by
    funext p
    exact List.flatMap_congr fun node _ => contributed_after h hi
  rw [Engine.parts, Engine.parts, hsame]

theorem total_after {engine : Engine M R} {schedule : Schedule} (h : After superstep new)
    (hi : i < superstep) :
    engine.total schedule i key (old ++ new) = engine.total schedule i key old := by
  rw [Engine.total, Engine.total, parts_after h hi]

theorem totalBefore_after {engine : Engine M R} {schedule : Schedule} (h : After superstep new)
    (hi : i ≤ superstep) :
    engine.totalBefore schedule i key (old ++ new) = engine.totalBefore schedule i key old := by
  cases i with
  | zero => rfl
  | succ i => exact total_after h hi

theorem gave_during (h : During superstep es) :
    (es.filter fun x => x.superstep? == some superstep).flatMap (Entry.gave key) =
      es.flatMap (Entry.gave key) := by
  induction es with
  | nil => rfl
  | cons x rest ih =>
    have hrest := ih fun y hy => h y (List.mem_cons_of_mem _ hy)
    rw [List.flatMap_cons, ← hrest]
    rcases h x (by simp) with hx | hx
    · have hgave : x.gave key = [] := by
        cases x with
        | compute => cases hx
        | _ => rfl
      rw [List.filter_cons_of_neg (by simp [hx]), hgave, List.nil_append]
    · rw [List.filter_cons_of_pos (by simp [hx]), List.flatMap_cons]

/-- What a superstep contributed is what its callbacks contributed. -/
theorem contributions_during (ho : Before superstep old) (h : During superstep es) :
    contributions superstep key (old ++ es) = es.flatMap (Entry.gave key) := by
  rw [contributions, List.filter_append, superstep_filter_before ho, List.nil_append,
    gave_during h]

theorem contributed_during (ho : Before superstep old) (h : During superstep es) :
    contributed superstep node key (old ++ es) = (ownEntries node es).flatMap (Entry.gave key) := by
  have hown : During superstep (ownEntries node es) := fun x hx => h x (List.mem_filter.mp hx).1
  rw [contributed, filter_isCompute, List.filter_append, superstep_filter_before ho,
    List.nil_append, ← gave_during hown, ownEntries, ownEntries, withKey, withKey,
    List.filter_filter, List.filter_filter]
  refine congrArg _ (List.filter_congr fun x _ => ?_)
  exact Bool.and_comm _ _

end Readings

/-- What a task gave is what the nodes that it visited gave, in the order of its visits. -/
theorem Played.taskGave_visits {engine : Engine M R} {superstep : Nat} {begun round : Round M R}
    {moves : List Move} {es : List (Entry M R)}
    (h : Played engine superstep begun moves es round)
    (hd : (moves.filterMap Move.node?).Nodup) (task : Nat) (key : String) :
    taskGave task key es = ((moves.filter fun m => m.task == task).filterMap Move.node?).flatMap
      fun node => (ownEntries node es).flatMap (Entry.gave key) := by
  induction h with
  | start => rfl
  | @visit moves es round other node tally new e journal played found working visited written ih =>
    rw [nodes_visit, List.nodup_append] at hd
    obtain ⟨hd, _, hfresh⟩ := hd
    have htasks : ∀ x ∈ new, x.task? = none ∨ x.task? = some other :=
      fun x hx => (visited.effect.entries x hx).2.1
    have habsent : node ∉ moves.filterMap Move.node? := fun hm => hfresh node hm node (by simp) rfl
    obtain ⟨hown, hothers⟩ := ownEntries_visit played.effect visited.effect habsent
    have hflat : ((moves.filter fun m => m.task == task).filterMap Move.node?).flatMap
          (fun v => (ownEntries v (es ++ new)).flatMap (Entry.gave key)) =
        ((moves.filter fun m => m.task == task).filterMap Move.node?).flatMap
          fun v => (ownEntries v es).flatMap (Entry.gave key) :=
      List.flatMap_congr fun v hv => by
        rw [hothers v ((List.filter_sublist.filterMap _).subset hv)]
    by_cases ht : other = task
    · subst ht
      have happend : taskGave other key (es ++ new) =
          taskGave other key es ++ taskGave other key new := by
        rw [taskGave, taskEntries_append, List.flatMap_append]
        rfl
      rw [happend, ih hd, (taskEntries_new htasks).2.2, List.filter_append,
        List.filter_cons_of_pos (by simp [Move.task]), List.filter_nil, nodes_visit,
        List.flatMap_append, hflat, List.flatMap_singleton, hown]
    · have hsame : taskGave task key (es ++ new) = taskGave task key es := by
        unfold taskGave
        rw [taskEntries_append_other es (Ne.symm ht) htasks]
      rw [hsame, ih hd, List.filter_append, List.filter_cons_of_neg (by simpa [Move.task] using ht),
        List.filter_nil, List.append_nil, hflat]
  | @finish moves es round other tally aggregates played found working merged ih =>
    rw [nodes_finish] at hd
    have hsame : ((moves ++ [Move.finish other]).filter fun m => m.task == task).filterMap
        Move.node? = (moves.filter fun m => m.task == task).filterMap Move.node? := by
      rw [List.filter_append]
      by_cases ht : other = task
      · rw [List.filter_cons_of_pos (by simp [Move.task, ht])]
        exact nodes_finish _ other
      · rw [List.filter_cons_of_neg (by simpa [Move.task] using ht), List.filter_nil,
          List.append_nil]
    rw [hsame]
    exact ih hd

theorem Interleaves.task_nodes {partitions : List Partition} {moves : List Move} {task : Nat}
    {p : Partition} (h : Interleaves partitions moves) (hp : partitions[task]? = some p) :
    (moves.filter fun m => m.task == task).filterMap Move.node? = p.ids := by
  rw [h task, taskMoves, hp, Option.map_some, Option.getD_some, Partition.moves_nodes]

section Stepping

variable {engine : Engine M R} {delivery : Delivery M} {schedule : Schedule} {p q : Progress M R}
  {partitions : List Partition} {es : List (Entry M R)} {round : Round M R}
  {calls : List (Call masterSignature)} {stop : Bool} {report : R}

/-- The parts of a superstep are what its tasks gave, in the order in which they handed over. -/
theorem Stepped.parts_eq (hr : engine.Ready delivery) (hs : Settled engine delivery p)
    (hv : schedule.Valid)
    (h : Stepped engine schedule p partitions es round calls stop report q) (key : String) :
    engine.parts schedule p.stats.size key q.journal.toList = .ok
      (((schedule.moves p.stats.size partitions).filterMap Move.finished?).map
        fun task => taskGave task key es) := by
  have hi := hv p.stats.size partitions
  have hd : ((schedule.moves p.stats.size partitions).filterMap Move.node?).Nodup :=
    (h.visits hr hv).nodup_iff.mpr List.nodup_range
  have hpart : ∀ task ∈ (schedule.moves p.stats.size partitions).filterMap Move.finished?,
      partitions[task]?.map (Partition.contributed p.stats.size key q.journal.toList) =
        some (taskGave task key es) := by
    intro task htask
    have hlt := List.mem_range.mp (hi.finishes.mem_iff.mp htask)
    have hget : partitions[task]? = some partitions[task] := List.getElem?_eq_getElem hlt
    have hnode : ∀ node, contributed p.stats.size node key q.journal.toList =
        (ownEntries node es).flatMap (Entry.gave key) := by
      intro node
      rw [h.journal, contributed_during hs.before h.during, ownEntries_master]
    rw [hget, Option.map_some, h.played.taskGave_visits hd, hi.task_nodes hget,
      Partition.contributed]
    simp only [hnode]
  rw [Engine.parts, h.tasks]
  refine congrArg Except.ok ?_
  rw [Schedule.handOvers, List.map_filterMap, List.filterMap_congr hpart]
  exact congrFun List.filterMap_eq_map _

theorem Stepped.contributions_eq (hs : Settled engine delivery p)
    (h : Stepped engine schedule p partitions es round calls stop report q) (key : String) :
    contributions p.stats.size key q.journal.toList = es.flatMap (Entry.gave key) := by
  rw [h.journal, contributions_during hs.before h.during, List.flatMap_append]
  exact List.append_nil _

/-- What is published at the barrier of a superstep is what its contributions come to. -/
theorem Stepped.total_eq (hr : engine.Ready delivery) (hs : Settled engine delivery p)
    (hv : schedule.Valid)
    (h : Stepped engine schedule p partitions es round calls stop report q) (key : String) :
    engine.total schedule p.stats.size key q.journal.toList =
      .ok (q.state.aggregates.value? key) := by
  have haggregates : q.state.aggregates = round.state.aggregates.publish :=
    h.consulted.directed.aggregates
  have hdeclared : round.state.aggregates.declared = engine.computation.aggregators :=
    h.played.effect.fits.declared.trans hs.declared
  have hvalue : q.state.aggregates.value? key =
      Totals.value? key engine.computation.aggregators round.state.aggregates.gathered := by
    rw [haggregates, ← hdeclared]
    rfl
  rw [hvalue, Engine.total]
  split
  next hfind =>
    have hnone : ∀ a ∈ engine.computation.aggregators, a.key ≠ key := fun a ha => by
      simpa using List.find?_eq_none.mp hfind a ha
    rw [Totals.value?_undeclared hnone]
  next a hfind =>
    have ha : a ∈ engine.computation.aggregators := List.mem_of_find?_eq_some hfind
    have hkey : a.key = key := by simpa using List.find?_some hfind
    subst hkey
    obtain ⟨parts, hparts, hgathered⟩ := (h.played.accounts hr hs).gathered
    have hall := hgathered.value? hr.keys ha
    rw [h.parts_eq hr hs hv]
    refine Combiner.foldParts_ok (taskGave_values hr.keys ha hparts) ?_
    rw [List.filterMap_map]
    exact hall

end Stepping

end BulkSync
