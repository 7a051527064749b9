import BulkSync.Proofs.MatchingRounds

namespace BulkSync

variable {M R : Type}

/-- Lists that are the same but for tasks and messages send the same. -/
theorem sends_of_bare {es es' : List (Entry M R)} (h : es'.map Entry.bare = es.map Entry.bare) :
    (es'.map Entry.sends).sum = (es.map Entry.sends).sum := by
  have hb : ∀ l : List (Entry M R), l.map Entry.sends = (l.map Entry.bare).map Entry.sends := by
    intro l
    rw [List.map_map]
    exact List.map_congr_left fun x _ => (bare_sends x).symm
  rw [hb, hb es, h]

section Rounds

variable {engine engine' : Engine M R} {delivery : Delivery M} {p p' q : Progress M R}
  {schedule schedule' : Schedule} {partitions partitions' : List Partition}
  {es es' : List (Entry M R)} {round round' : Round M R} {calls : List (Call masterSignature)}
  {stop : Bool} {report : R}

/-- Until a node is visited in the second run, there is room for all it sent in the first. -/
theorem Stepped.twin_sends_le (ha : Alike p p') (ht : Twins engine engine')
    (hr : engine.Ready delivery) (hv : schedule.Valid) (hs : Settled engine delivery p)
    (hs' : Settled engine' delivery p')
    (h : Stepped engine schedule p partitions es round calls stop report q) {done : List Move}
    {tasks : Nat} (h' : Played engine' p.stats.size (.start p'.state.turned tasks p'.journal) done
      es' round') (hd : (done.filterMap Move.node?).Nodup)
    (hin : ∀ v ∈ done.filterMap Move.node?, v < engine.graph.nodes) {v : Nat}
    (hn : v < engine.graph.nodes) (hnew : v ∉ done.filterMap Move.node?) :
    (es'.map Entry.sends).sum + ((ownEntries v es).map Entry.sends).sum ≤
      (es.map Entry.sends).sum := by
  have hvisits := h.visits hr hv
  have hnode := entry_node_lt h.played.effect fun u hu => List.mem_range.mp (hvisits.mem_iff.mp hu)
  have hnode' := entry_node_lt h'.effect hin
  rw [← sum_groups Entry.node? engine.graph.nodes _ es fun x hx _ => hnode x hx,
    ← sum_groups Entry.node? engine.graph.nodes _ es' fun x hx _ => hnode' x hx]
  have hown : ∀ u < engine.graph.nodes, ((ownEntries u es').map Entry.sends).sum = 0 ∨
      u ∈ done.filterMap Move.node? ∧
      ((ownEntries u es').map Entry.sends).sum = ((ownEntries u es).map Entry.sends).sum := by
    intro u hu
    have hpassed := h.played.passed (hvisits.nodup_iff.mpr List.nodup_range) u
    have hmem := hvisits.mem_iff.mpr (List.mem_range.mpr hu)
    have hpassed' := h'.passed hd u
    rcases hpassed.alike ha ht hs hs' hmem hpassed' with ⟨_, hnil, _⟩ | ⟨hdone, hbare, _⟩
    · exact .inl (by rw [hnil]; rfl)
    · exact .inr ⟨hdone, sends_of_bare hbare⟩
  -- the second run sent as much as the first at the nodes it has visited, at others nothing yet
  refine sum_range_add_le (b := fun u => ((ownEntries u es).map Entry.sends).sum) hn
    (fun u hu => ?_) ?_
  · rcases hown u hu with h0 | ⟨_, he⟩
    · exact h0 ▸ Nat.zero_le _
    · exact Nat.le_of_eq he
  · rcases hown v hn with h0 | ⟨hm, _⟩
    · exact h0
    · exact absurd hm hnew

/-- A visit in the second run fails only by a combiner. -/
theorem Stepped.twin_visit (ha : Alike p p') (ht : Twins engine engine')
    (hr : engine.Ready delivery) (hv : schedule.Valid) (hs : Settled engine delivery p)
    (hs' : Settled engine' delivery p')
    (h : Stepped engine schedule p partitions es round calls stop report q)
    (hsmall : (es.map Entry.sends).sum < countLimit) {done : List Move} {tasks : Nat}
    (h' : Played engine' p.stats.size (.start p'.state.turned tasks p'.journal) done es' round')
    (hd : (done.filterMap Move.node?).Nodup)
    (hin : ∀ u ∈ done.filterMap Move.node?, u < engine.graph.nodes) {task v : Nat}
    (hn : v < engine.graph.nodes) (hnew : v ∉ done.filterMap Move.node?) {tally : Tally}
    {f : Fault} {work : Work M R} (htally : round'.tallies[task]? = some tally)
    (hwork : Work.visit engine' p.stats.size task v ⟨⟨round'.state, tally⟩, round'.journal⟩ =
      .error f work) : FoldFault engine.computation.aggregators delivery f := by
  have hfits : p'.state.turned.Fits round'.state := h'.effect.fits
  have hdeclared : p'.state.turned.aggregates.declared = engine.computation.aggregators :=
    hs'.declared.trans (congrArg Computation.aggregators ht.computation)
  have hkeys : (p'.state.turned.aggregates.declared.map Aggregator.key).Nodup :=
    hdeclared ▸ hr.keys
  have hvisits := h.visits hr hv
  have hvisited := hvisits.mem_iff.mpr (List.mem_range.mpr hn)
  have hpassed := h.played.passed (hvisits.nodup_iff.mpr List.nodup_range) v
  have hagree : p'.state.turned.AgreeAt v round'.state := by
    rcases hpassed.alike ha ht hs hs' hvisited (h'.passed hd v) with ⟨_, _, hagree⟩ | ⟨hdone, _⟩
    · exact hagree
    · exact absurd hdone hnew
  have hroom := h.twin_sends_le ha ht hr hv hs hs' h' hd hin hn hnew
  generalize ownEntries v es = own at hpassed hroom
  cases hpassed with
  | unvisited absent => exact absurd hvisited absent
  | @visited task₁ d _ e fits before visit after _ _ =>
    obtain ⟨hm, hslot⟩ := ha.matches ht hs hs' fits hfits before hagree
    have hm' : d.state.Matches v (⟨round'.state, tally⟩ : Desk M).state := hm
    rcases visit.matches ht.graph ht.computation ht.keeps hm' hslot task round'.journal with
      ⟨new', e', hv', _⟩ | ⟨g, work', hwork', hrefuse⟩
    · obtain ⟨_, _, hok⟩ := hv'.ok round'.journal
      rw [hwork] at hok
      cases hok
    · rw [hwork] at hwork'
      cases hwork'
      have haccounts := h'.tally_accounts hkeys task tally htally
      unfold Desk.Refuses at hrefuse
      rw [show (⟨round'.state, tally⟩ : Desk M).state = round'.state from rfl,
        hfits.declared, hdeclared, hfits.delivery,
        show p'.state.turned.mail.delivery = delivery from hs'.delivery] at hrefuse
      rcases hrefuse with hfold | hcount | hlength
      · exact hfold
      · have hsent : tally.sent ≤ (es'.map Entry.sends).sum := by
          rw [haccounts.sent]
          exact sum_withKey_le Entry.task? task _ es'
        have htotal : countLimit ≤ tally.sent + (own.map Entry.sends).sum := hcount
        omega
      · rw [hdeclared] at haccounts
        exact absurd haccounts.partials.length_eq hlength

/-- The second run plays all moves of the superstep too, or a combiner fails in it. -/
theorem Stepped.twin_round (ha : Alike p p') (ht : Twins engine engine')
    (hr : engine.Ready delivery) (hr' : engine'.Ready delivery) (hv : schedule.Valid)
    (hs : Settled engine delivery p) (hs' : Settled engine' delivery p')
    (h : Stepped engine schedule p partitions es round calls stop report q)
    (hsmall : (es.map Entry.sends).sum < countLimit) {moves' : List Move}
    (htasks : engine'.strategy.tasks engine'.graph.nodes = .ok partitions')
    (hi : Interleaves partitions' moves') :
    (∃ es', Played engine' p.stats.size (.start p'.state.turned partitions'.length p'.journal)
        moves' es' (moves'.foldl (Round.move engine' p.stats.size)
          (.start p'.state.turned partitions'.length p'.journal))) ∨
      ∃ f rest, (moves'.foldl (Round.move engine' p.stats.size)
        (.start p'.state.turned partitions'.length p'.journal)).faults = f :: rest ∧
          FoldFault engine.computation.aggregators delivery f := by
  have hvisits' := visits_perm hr' htasks hi
  rw [ht.graph] at hvisits'
  refine played_or_fault engine' p.stats.size p'.state.turned p'.journal hi _ ?_
  intro done m rest es' round' f hmoves hp hf
  have heffect := hp.effect
  have hnodup := hvisits'.nodup_iff.mpr List.nodup_range
  have hrange : ∀ u ∈ moves'.filterMap Move.node?, u < engine.graph.nodes :=
    fun u hu => List.mem_range.mp (hvisits'.mem_iff.mp hu)
  rw [hmoves, List.filterMap_append] at hnodup hrange
  rw [List.nodup_append] at hnodup
  -- the first fault is the one of the move that comes after those that were played
  cases m with
  | visit task v =>
    obtain ⟨tally, work, htally, hwork⟩ := visit_fault heffect.faults hf
    have hmem : v ∈ (Move.visit task v :: rest).filterMap Move.node? := by simp [Move.node?]
    exact h.twin_visit ha ht hr hv hs hs' hsmall hp hnodup.1
      (fun u hu => hrange u (List.mem_append_left _ hu)) (hrange v (List.mem_append_right _ hmem))
      (fun hdone => hnodup.2.2 v hdone v hmem rfl) htally hwork
  | finish task =>
    obtain ⟨tally, _, hmerge⟩ := finish_fault heffect.faults hf
    have hdeclared : round'.state.aggregates.declared = engine.computation.aggregators :=
      (heffect.fits.declared.trans hs'.declared).trans
        (congrArg Computation.aggregators ht.computation)
    exact .inl (hdeclared ▸ aggregates_merge_error hmerge)

/-- When both runs have executed a superstep, they have run the same callbacks at every node and
left the same values and the same halt bit there. -/
theorem Stepped.twin_node (ha : Alike p p') (ht : Twins engine engine')
    (hr : engine.Ready delivery) (hr' : engine'.Ready delivery) (hv : schedule.Valid)
    (hs : Settled engine delivery p) (hs' : Settled engine' delivery p')
    (h : Stepped engine schedule p partitions es round calls stop report q) {moves' : List Move}
    (htasks : engine'.strategy.tasks engine'.graph.nodes = .ok partitions')
    (hi : Interleaves partitions' moves')
    (h' : Played engine' p.stats.size (.start p'.state.turned partitions'.length p'.journal)
      moves' es' round') {v : Nat} (hn : v < engine.graph.nodes) :
    (ownEntries v es').map Entry.bare = (ownEntries v es).map Entry.bare ∧
      round.state.values.AgreeAt v round'.state.values ∧
      round.state.halted.bit v = round'.state.halted.bit v := by
  have hvisits := h.visits hr hv
  have hvisits' := visits_perm hr' htasks hi
  rw [ht.graph] at hvisits'
  have hmem := List.mem_range.mpr hn
  have hpassed := h.played.passed (hvisits.nodup_iff.mpr List.nodup_range) v
  have hpassed' := h'.passed (hvisits'.nodup_iff.mpr List.nodup_range) v
  rcases hpassed.alike ha ht hs hs' (hvisits.mem_iff.mpr hmem) hpassed' with
    ⟨habsent, _⟩ | ⟨_, hsame⟩
  · exact absurd (hvisits'.mem_iff.mpr hmem) habsent
  · exact hsame

end Rounds

end BulkSync
