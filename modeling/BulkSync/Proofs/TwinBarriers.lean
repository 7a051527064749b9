import BulkSync.Proofs.TwinRounds
import BulkSync.Proofs.TwinTotals

namespace BulkSync

variable {M R : Type}

theorem raise_comm (a b : Signal) (signals : Signals) :
    (signals.raise a).raise b = (signals.raise b).raise a := by
  unfold Signals.raise
  by_cases h : a.id = b.id
  · simp [h]
  · simp only
    rw [Array.setIfInBounds_comm _ _ h]

theorem raiseAll_perm {l m : List Signal} (h : l.Perm m) (signals : Signals) :
    signals.raiseAll l = signals.raiseAll m := by
  induction h generalizing signals with
  | nil => rfl
  | cons a _ ih => exact ih (signals.raise a)
  | swap a b l =>
    have hcomm : Signals.raiseAll (b :: a :: l) signals = Signals.raiseAll (a :: b :: l) signals :=
      congrArg (Signals.raiseAll l) (raise_comm b a signals)
    exact hcomm
  | trans _ _ ih ih' => exact (ih signals).trans (ih' signals)

/-- Whatever is told by an entry without its task and its messages is told the same by lists that
are permutations without them. -/
theorem flatMap_of_bare {α : Type} {f : Entry M R → List α} (hf : ∀ x, f x.bare = f x)
    {es es' : List (Entry M R)} (h : (es.map Entry.bare).Perm (es'.map Entry.bare)) :
    (es.flatMap f).Perm (es'.flatMap f) := by
  have hb : ∀ l : List (Entry M R), l.flatMap f = (l.map Entry.bare).flatMap f := by
    intro l
    rw [List.flatMap_map]
    exact List.flatMap_congr fun x _ => (hf x).symm
  rw [hb, hb es']
  exact h.flatMap_right f

theorem sum_of_bare {w : Entry M R → Nat} (hw : ∀ x, w x.bare = w x)
    {es es' : List (Entry M R)} (h : (es.map Entry.bare).Perm (es'.map Entry.bare)) :
    (es.map w).sum = (es'.map w).sum := by
  have hb : ∀ l : List (Entry M R), l.map w = (l.map Entry.bare).map w := by
    intro l
    rw [List.map_map]
    exact List.map_congr_left fun x _ => (hw x).symm
  rw [hb, hb es']
  exact (h.map w).sum_eq

section Rounds

variable {engine engine' : Engine M R} {delivery : Delivery M} {p p' q : Progress M R}
  {schedule : Schedule} {partitions partitions' : List Partition} {es es' : List (Entry M R)}
  {round round' : Round M R} {calls : List (Call masterSignature)} {stop : Bool} {report : R}
  {moves' : List Move}

/-- Both runs run the same callbacks in a superstep, in some order. -/
theorem Stepped.bare_perm (ha : Alike p p') (ht : Twins engine engine')
    (hr : engine.Ready delivery) (hr' : engine'.Ready delivery) (hv : schedule.Valid)
    (hs : Settled engine delivery p) (hs' : Settled engine' delivery p')
    (h : Stepped engine schedule p partitions es round calls stop report q)
    (htasks : engine'.strategy.tasks engine'.graph.nodes = .ok partitions')
    (hi : Interleaves partitions' moves')
    (h' : Played engine' p.stats.size (.start p'.state.turned partitions'.length p'.journal)
      moves' es' round') :
    (es.map Entry.bare).Perm (es'.map Entry.bare) := by
  have hvisits := h.visits hr hv
  have hvisits' := visits_perm hr' htasks hi
  rw [ht.graph] at hvisits'
  have hnode := entry_node_lt h.played.effect fun u hu => List.mem_range.mp (hvisits.mem_iff.mp hu)
  have hnode' := entry_node_lt h'.effect fun u hu => List.mem_range.mp (hvisits'.mem_iff.mp hu)
  have hperm := (groups_perm Entry.node? engine.graph.nodes es hnode).map Entry.bare
  have hperm' := (groups_perm Entry.node? engine.graph.nodes es' hnode').map Entry.bare
  refine hperm.symm.trans (.trans (.of_eq ?_) hperm')
  rw [List.map_flatMap, List.map_flatMap]
  refine List.flatMap_congr fun v hmem => ?_
  exact (h.twin_node ha ht hr hr' hv hs hs' htasks hi h' (List.mem_range.mp hmem)).1.symm

/-- At the end of a superstep every node has the same values and the same halt bit in both runs. -/
theorem Stepped.twin_states (ha : Alike p p') (ht : Twins engine engine')
    (hr : engine.Ready delivery) (hr' : engine'.Ready delivery) (hv : schedule.Valid)
    (hs : Settled engine delivery p) (hs' : Settled engine' delivery p')
    (h : Stepped engine schedule p partitions es round calls stop report q)
    (htasks : engine'.strategy.tasks engine'.graph.nodes = .ok partitions')
    (hi : Interleaves partitions' moves')
    (h' : Played engine' p.stats.size (.start p'.state.turned partitions'.length p'.journal)
      moves' es' round') :
    round.state.values = round'.state.values ∧ round.state.halted = round'.state.halted := by
  have hvisits := h.visits hr hv
  have hvisits' := visits_perm hr' htasks hi
  rw [ht.graph] at hvisits'
  have hpassed := h.played.passed (hvisits.nodup_iff.mpr List.nodup_range)
  have hpassed' := h'.passed (hvisits'.nodup_iff.mpr List.nodup_range)
  have hfits := h.played.effect.fits
  have hfits' := h'.effect.fits
  have hinside := fun v (hn : v < engine.graph.nodes) =>
    (h.twin_node ha ht hr hr' hv hs hs' htasks hi h' hn).2
  have houtside : ∀ {engine : Engine M R} {moves : List Move} {es own : List (Entry M R)}
      {v : Nat} {s t : State M}, Passed engine p.stats.size s moves es v t own →
      v ∉ moves.filterMap Move.node? → s.AgreeAt v t := by
    intro engine moves es own v s t hp habsent
    cases hp with
    | unvisited _ agree => exact agree
    | visited _ _ _ _ _ present => exact absurd (node_mem_of_visit present) habsent
  constructor
  · refine ValueStore.eq_of_agreeAt fun v => ?_
    by_cases hn : v < engine.graph.nodes
    · exact (hinside v hn).1
    · have habsent : v ∉ List.range engine.graph.nodes := fun hmem => hn (List.mem_range.mp hmem)
      have hagree := houtside (hpassed v) (mt hvisits.mem_iff.mp habsent)
      have hagree' := houtside (hpassed' v) (mt hvisits'.mem_iff.mp habsent)
      have hsame : p.state.turned.values.AgreeAt v p'.state.turned.values := by
        rw [show p'.state.turned.values = p.state.turned.values from ha.values]
        exact .refl v _
      exact hagree.values.symm.trans (hsame.trans hagree'.values)
  · have hnodes : round.state.halted.nodes = engine.graph.nodes := hfits.nodes.trans hs.nodes
    have hnodes' : round'.state.halted.nodes = engine.graph.nodes :=
      (hfits'.nodes.trans hs'.nodes).trans (congrArg Graph.nodes ht.graph)
    refine HaltSet.ext_of_bits (hfits.sound hs.sound) (hfits'.sound hs'.sound)
      (hnodes.trans hnodes'.symm) fun v hn => (hinside v (hnodes ▸ hn)).2

/-- Two runs that are alike at a boundary are alike at the next barrier. -/
theorem Stepped.twin_barrier (ha : Alike p p') (ht : Twins engine engine')
    (hr : engine.Ready delivery) (hr' : engine'.Ready delivery) (hv : schedule.Valid)
    (hs : Settled engine delivery p) (hs' : Settled engine' delivery p')
    (hla : ∀ a ∈ engine.computation.aggregators, a.combine.Lawful) (hld : delivery.Lawful)
    (h : Stepped engine schedule p partitions es round calls stop report q)
    (htasks : engine'.strategy.tasks engine'.graph.nodes = .ok partitions')
    (hi : Interleaves partitions' moves')
    (h' : Played engine' p.stats.size (.start p'.state.turned partitions'.length p'.journal)
      moves' es' round') :
    Alike (round.barrier p.stats.size p.stats) (round'.barrier p.stats.size p'.stats) ∧
      round'.isQuiet = round.isQuiet := by
  have hbare := h.bare_perm ha ht hr hr' hv hs hs' htasks hi h'
  obtain ⟨hvalues, hhalted⟩ := h.twin_states ha ht hr hr' hv hs hs' htasks hi h'
  have heffect := h.played.effect
  have heffect' := h'.effect
  have hmoves := hv p.stats.size partitions
  obtain ⟨hcomputed, hsent⟩ := h.played.counted hr hs hmoves
  obtain ⟨hcomputed', hsent'⟩ := h'.counted hr' hs' hi
  have hsentEq : round'.sent = round.sent := by
    rw [hsent, hsent', sum_of_bare bare_sends hbare]
  have hcomputedEq : round'.computed = round.computed := by
    rw [hcomputed, hcomputed', countP_eq_sum, countP_eq_sum,
      sum_of_bare (fun x => by rw [bare_task_isSome]) hbare]
  have hdeclared : round'.state.aggregates.declared = round.state.aggregates.declared :=
    heffect'.fits.declared.trans
      ((congrArg Aggregates.declared ha.aggregates).trans heffect.fits.declared.symm)
  have hgathered : round.state.aggregates.gathered = round'.state.aggregates.gathered := by
    have haccounts' := h'.accounts hr' hs'
    rw [ht.computation] at haccounts'
    exact (h.played.accounts hr hs).gathered_eq hr.keys hla haccounts' hmoves.finishes hi.finishes
      (h.played.tasks_lt hmoves) (h'.tasks_lt hi)
      fun key => flatMap_of_bare (fun x => bare_gave x key) hbare
  refine ⟨{
    values := hvalues.symm
    halted := hhalted.symm
    aggregates := ?_
    signals := ?_
    stats := ?_
    pending := ?_ }, ?_⟩
  · change round'.state.aggregates.publish = round.state.aggregates.publish
    simp only [Aggregates.publish, hdeclared, hgathered]
  · change round'.state.signals = round.state.signals
    rw [heffect.signals, heffect'.signals,
      show (Round.start p'.state.turned partitions'.length p'.journal).state.signals =
        p.state.signals from ha.signals]
    exact raiseAll_perm (flatMap_of_bare bare_raised hbare).symm _
  · simp only [Round.barrier, ha.stats, hsentEq, hcomputedEq]
  · intro v slot slot' hslot hslot'
    have hh := heffect.holds _ (Mailroom.turn_holds p.state.mail) v slot hslot
    have hh' := heffect'.holds _ (Mailroom.turn_holds p'.state.mail) v slot' hslot'
    have hdelivery : round.state.mail.delivery = delivery :=
      heffect.fits.delivery.trans hs.delivery
    have hdelivery' : round'.state.mail.delivery = delivery :=
      heffect'.fits.delivery.trans hs'.delivery
    rw [hdelivery] at hh
    rw [hdelivery'] at hh'
    exact delivers_perm hld (flatMap_of_bare (fun x => bare_sentTo x v) hbare) hh hh'
  · unfold Round.isQuiet
    rw [hsentEq, hhalted]

end Rounds

end BulkSync
