import BulkSync.Proofs.Independence
import BulkSync.Proofs.OneTask
import BulkSync.Proofs.RegroupedRounds

namespace BulkSync

variable {M R : Type}

/-- Two runs at a boundary that differ only in which task visited which node. -/
structure Progress.Same (p p' : Progress M R) : Prop where
  state : p'.state = p.state
  stats : p'.stats = p.stats
  journal : p'.journal.toList.map Entry.untasked = p.journal.toList.map Entry.untasked

/-- Lists that differ only in tasks tell the same of whatever is not about tasks. -/
theorem flatMap_of_untasked {α : Type} {f : Entry M R → List α} (hf : ∀ x, f x.untasked = f x)
    {es es' : List (Entry M R)} (h : es'.map Entry.untasked = es.map Entry.untasked) :
    es'.flatMap f = es.flatMap f := by
  have hb : ∀ l : List (Entry M R), l.flatMap f = (l.map Entry.untasked).flatMap f := by
    intro l
    rw [List.flatMap_map]
    exact List.flatMap_congr fun x _ => (hf x).symm
  rw [hb, hb es, h]

theorem sum_of_untasked {w : Entry M R → Nat} (hw : ∀ x, w x.untasked = w x)
    {es es' : List (Entry M R)} (h : es'.map Entry.untasked = es.map Entry.untasked) :
    (es'.map w).sum = (es.map w).sum := by
  have hb : ∀ l : List (Entry M R), l.map w = (l.map Entry.untasked).map w := by
    intro l
    rw [List.map_map]
    exact List.map_congr_left fun x _ => (hw x).symm
  rw [hb, hb es, h]

section Rounds

variable {engine engine' : Engine M R} {delivery : Delivery M} {p p' q : Progress M R}
  {schedule schedule' : Schedule} {partitions partitions' : List Partition}
  {es es' : List (Entry M R)}
  {round round' : Round M R} {calls : List (Call masterSignature)} {stop : Bool} {report : R}

/-- A visit in the second run fails only by a combiner of an aggregator. -/
theorem Stepped.regroup_visit (hsame : p.Same p') (hg : engine'.graph = engine.graph)
    (hc : engine'.computation = engine.computation) (hr : engine.Ready delivery)
    (hs : Settled engine delivery p)
    (h : Stepped engine schedule p partitions es round calls stop report q)
    (hsmall : (es.map Entry.sends).sum < countLimit) {done : List Move} {tasks : Nat}
    (h' : Played engine' p.stats.size (.start p'.state.turned tasks p'.journal) done es' round')
    {before after : List Nat} {task v : Nat}
    (hn : (schedule.moves p.stats.size partitions).filterMap Move.node? = before ++ v :: after)
    (hdone : done.filterMap Move.node? = before) {tally : Tally} {f : Fault} {work : Work M R}
    (htally : round'.tallies[task]? = some tally)
    (hwork : Work.visit engine' p.stats.size task v ⟨⟨round'.state, tally⟩, round'.journal⟩ =
      .error f work) : ∃ a ∈ engine.computation.aggregators, a.combine.Faults f := by
  obtain ⟨first, task₁, middle, tally₁, earlier, new, e, later, hplayed, hfirst, hvisited, hes⟩ :=
    h.played.split hn
  obtain ⟨hearlier, totals, hstate⟩ := hplayed.regroup hg hc
    ⟨p.state.aggregates.gathered, by rw [hsame.state]; rfl⟩ h' (hdone.trans hfirst.symm)
  have hdeclared : middle.state.aggregates.declared = engine.computation.aggregators :=
    hplayed.effect.fits.declared.trans hs.declared
  rw [hstate] at hwork
  rcases hvisited.regroup hg hc task totals tally round'.journal with
    ⟨new', tally', hvisited', _⟩ | ⟨g, work', hwork', hrefuse⟩
  · obtain ⟨_, _, hok⟩ := hvisited'.ok round'.journal
    rw [hwork] at hok
    cases hok
  · rw [hwork] at hwork'
    cases hwork'
    have hkeys : (p'.state.turned.aggregates.declared.map Aggregator.key).Nodup := by
      rw [hsame.state]
      exact hs.declared.symm ▸ hr.keys
    have haccounts := h'.tally_accounts hkeys task tally htally
    have hdeclared' : p'.state.turned.aggregates.declared = engine.computation.aggregators := by
      rw [hsame.state]
      exact hs.declared
    rcases hrefuse with hfold | hcount | hlength
    · exact hdeclared ▸ hfold
    · -- what the task has sent so far, the first run has sent before this node
      have hsent : tally.sent ≤ (es'.map Entry.sends).sum := by
        rw [haccounts.sent]
        exact sum_withKey_le Entry.task? task _ es'
      rw [sum_of_untasked untasked_sends hearlier] at hsent
      rw [hes, List.map_append, List.map_append, List.sum_append, List.sum_append] at hsmall
      omega
    · have hpartials := haccounts.partials.length_eq
      rw [hdeclared'] at hpartials
      exact absurd (hpartials.trans (by rw [← hdeclared])) hlength

/-- The second run plays all moves of the superstep too, or a combiner of an aggregator fails. -/
theorem Stepped.regroup_round (hsame : p.Same p') (hg : engine'.graph = engine.graph)
    (hc : engine'.computation = engine.computation) (hr : engine.Ready delivery)
    (hs : Settled engine delivery p)
    (h : Stepped engine schedule p partitions es round calls stop report q)
    (hsmall : (es.map Entry.sends).sum < countLimit) {moves' : List Move}
    (hi : Interleaves partitions' moves')
    (hn : moves'.filterMap Move.node? =
      (schedule.moves p.stats.size partitions).filterMap Move.node?) :
    (∃ es', Played engine' p.stats.size (.start p'.state.turned partitions'.length p'.journal)
        moves' es' (moves'.foldl (Round.move engine' p.stats.size)
          (.start p'.state.turned partitions'.length p'.journal))) ∨
      ∃ f rest, (moves'.foldl (Round.move engine' p.stats.size)
        (.start p'.state.turned partitions'.length p'.journal)).faults = f :: rest ∧
          ∃ a ∈ engine.computation.aggregators, a.combine.Faults f := by
  refine played_or_fault engine' p.stats.size p'.state.turned p'.journal hi _ ?_
  intro done m rest es' round' f hmoves hp hf
  cases m with
  | visit task v =>
    obtain ⟨tally, work, htally, hwork⟩ := visit_fault hp.effect.faults hf
    rw [hmoves, List.filterMap_append] at hn
    exact h.regroup_visit hsame hg hc hr hs hsmall hp hn.symm rfl htally hwork
  | finish task =>
    obtain ⟨tally, _, hmerge⟩ := finish_fault hp.effect.faults hf
    have hdeclared : round'.state.aggregates.declared = engine.computation.aggregators := by
      refine hp.effect.fits.declared.trans ?_
      rw [show (Round.start p'.state.turned partitions'.length p'.journal).state.aggregates =
        p.state.aggregates by rw [← hsame.state]; rfl]
      exact hs.declared
    exact hdeclared ▸ aggregates_merge_error hmerge

/-- At the barrier both runs have come to the same, because an aggregate does not depend on how its
contributions are divided into tasks. -/
theorem Stepped.regroup_barrier (hsame : p.Same p') (hg : engine'.graph = engine.graph)
    (hc : engine'.computation = engine.computation) (hr : engine.Ready delivery)
    (hr' : engine'.Ready delivery) (hs : Settled engine delivery p)
    (hs' : Settled engine' delivery p')
    (ha : ∀ a ∈ engine.computation.aggregators, a.combine.Associative)
    (h : Stepped engine schedule p partitions es round calls stop report q)
    (hm : schedule.moves p.stats.size partitions = sequentialMoves partitions)
    (h' : Played engine' p.stats.size (.start p'.state.turned partitions'.length p'.journal)
      (sequentialMoves partitions') es' round')
    (hn : (sequentialMoves partitions').filterMap Move.node? =
      (sequentialMoves partitions).filterMap Move.node?) :
    (round.barrier p.stats.size p.stats).Same (round'.barrier p.stats.size p'.stats) ∧
      round'.isQuiet = round.isQuiet := by
  have hplayed := h.played
  rw [hm] at hplayed
  have hi := sequentialMoves_interleaves partitions
  have hi' := sequentialMoves_interleaves partitions'
  obtain ⟨hes, totals, hstate⟩ := hplayed.regroup hg hc
    ⟨p.state.aggregates.gathered, by rw [hsame.state]; rfl⟩ h' hn
  obtain ⟨hcomputed, hsent⟩ := hplayed.counted hr hs hi
  obtain ⟨hcomputed', hsent'⟩ := h'.counted hr' hs' hi'
  have hsentEq : round'.sent = round.sent := by
    rw [hsent, hsent', sum_of_untasked untasked_sends hes]
  have hcomputedEq : round'.computed = round.computed := by
    rw [hcomputed, hcomputed', countP_eq_sum, countP_eq_sum,
      sum_of_untasked (fun x => by rw [untasked_task_isSome]) hes]
  have hgathered : round.state.aggregates.gathered = round'.state.aggregates.gathered := by
    have haccounts := hplayed.accounts hr hs
    have haccounts' := h'.accounts hr' hs'
    rw [sequentialMoves_finishes] at haccounts haccounts'
    rw [hc] at haccounts'
    exact haccounts.gathered_eq_in_order hr.keys ha haccounts' (hplayed.tasks_lt hi)
      (h'.tasks_lt hi') (hplayed.tasksAscend (sequentialMoves_ascend _))
      (h'.tasksAscend (sequentialMoves_ascend _))
      fun key => (flatMap_of_untasked (fun x => untasked_gave x key) hes).symm
  have hstates : round'.state = round.state := by
    rw [hstate] at hgathered ⊢
    have htotals : totals = round.state.aggregates.gathered := hgathered.symm
    rw [htotals]
    rfl
  refine ⟨⟨?_, ?_, ?_⟩, ?_⟩
  · simp only [Round.barrier, hstates]
  · simp only [Round.barrier, hsame.stats, hsentEq, hcomputedEq]
  · have hj : round.journal.toList = p.journal.toList ++ es := hplayed.effect.journal
    have hj' : round'.journal.toList = p'.journal.toList ++ es' := h'.effect.journal
    simp only [Round.barrier, hj, hj', List.map_append, hsame.journal, hes]
  · unfold Round.isQuiet
    rw [hsentEq, hstates]

end Rounds

section Runs

variable {engine engine' : Engine M R} {delivery : Delivery M} {p p' q : Progress M R}
  {schedule schedule' : Schedule} {partitions : List Partition} {es : List (Entry M R)}
  {round : Round M R} {calls : List (Call masterSignature)} {stop : Bool} {report : R}

/-- Two engines of one computation over one graph, each of which runs its tasks from left to
right. -/
structure LeftToRight (engine engine' : Engine M R) (schedule schedule' : Schedule) : Prop where
  graph : engine'.graph = engine.graph
  computation : engine'.computation = engine.computation
  valid : schedule.Valid
  valid' : schedule'.Valid
  moves : ∀ {partitions}, engine.strategy.tasks engine.graph.nodes = .ok partitions →
    ∀ superstep, schedule.moves superstep partitions = sequentialMoves partitions
  moves' : ∀ {partitions}, engine'.strategy.tasks engine.graph.nodes = .ok partitions →
    ∀ superstep, schedule'.moves superstep partitions = sequentialMoves partitions

/-- From the same state the master callback does the same. -/
theorem Consulted.same {b b' : Progress M R} {superstep : Nat} (hb : b.Same b')
    (hg : engine'.graph = engine.graph) (hc : engine'.computation = engine.computation)
    (h : Consulted engine superstep calls stop report b q) (quiet : Bool) :
    ∃ q', engine'.consult superstep quiet b' = .ok (stop || quiet) q' ∧ q.Same q' := by
  have hc' : Consulted engine' superstep calls stop report b' ⟨q.state, b'.stats,
      b'.journal.push (.master superstep calls (.ok (stop, report)))⟩ :=
    ⟨by rw [hg, hc, hb.state]; exact h.performed, rfl, rfl⟩
  refine ⟨_, hc'.ok quiet, rfl, hb.stats.trans h.stats.symm, ?_⟩
  rw [h.journal, Array.toList_push, Array.toList_push, List.map_append, List.map_append,
    hb.journal]

/-- A superstep that one run executes the other one executes too, with the same outcome, or a
combiner of an aggregator fails in it. -/
theorem Stepped.regroup (ht : LeftToRight engine engine' schedule schedule') (hsame : p.Same p')
    (hr : engine.Ready delivery) (hr' : engine'.Ready delivery) (hs : Settled engine delivery p)
    (hs' : Settled engine' delivery p')
    (ha : ∀ a ∈ engine.computation.aggregators, a.combine.Associative)
    (hn : engine.graph.nodes < countLimit)
    (h : Stepped engine schedule p partitions es round calls stop report q)
    (hsmall : sendCount p.stats.size q.journal.toList < countLimit) :
    (∃ q', engine'.superstep schedule' p' = .ok (stop || round.isQuiet) q' ∧ q.Same q') ∨
      ∃ f q', engine'.superstep schedule' p' = .error f q' ∧
        ∃ a ∈ engine.computation.aggregators, a.combine.Faults f := by
  obtain ⟨partitions', htasks⟩ := tasks_exist hr'.strategy (by rw [ht.graph]; exact hn)
  have hm := ht.moves h.tasks p.stats.size
  have hm' := ht.moves' (ht.graph ▸ htasks) p.stats.size
  have hnodes : (sequentialMoves partitions').filterMap Move.node? =
      (sequentialMoves partitions).filterMap Move.node? := by
    rw [sequentialMoves_nodes, sequentialMoves_nodes, (tasks_tiles hr.strategy h.tasks).ids,
      (tasks_tiles hr'.strategy htasks).ids, ht.graph]
  have hsends : (es.map Entry.sends).sum < countLimit := by rwa [← h.sendCount_eq hs]
  rw [superstep_eq htasks, hsame.stats, hm']
  dsimp only
  rcases h.regroup_round hsame ht.graph ht.computation hr hs hsends
    (sequentialMoves_interleaves partitions') (by rw [hm, hnodes]) with
    ⟨es', hp'⟩ | ⟨f, rest, hf, hfold⟩
  · obtain ⟨hbarrier, hquiet⟩ := h.regroup_barrier hsame ht.graph ht.computation hr hr' hs hs' ha
      hm hp' hnodes
    obtain ⟨q', hq', hend⟩ := h.consulted.same hbarrier ht.graph ht.computation round.isQuiet
    rw [hp'.effect.faults, hquiet]
    rw [hsame.stats] at hq'
    exact .inl ⟨q', hq', hend⟩
  · rw [hf]
    exact .inr ⟨f, _, rfl, hfold⟩

/-- Runs of a single worker that have come to the same at a boundary come to the same in the end, or
a combiner of an aggregator fails. -/
theorem same_advance {remaining : Nat} {status : Status}
    (ht : LeftToRight engine engine' schedule schedule') (hsame : p.Same p')
    (hw : engine'.watched = engine.watched) (hi : schedule'.interrupts = schedule.interrupts)
    (hr : engine.Ready delivery) (hr' : engine'.Ready delivery) (hs : Settled engine delivery p)
    (hs' : Settled engine' delivery p')
    (ha : ∀ a ∈ engine.computation.aggregators, a.combine.Associative)
    (hn : engine.graph.nodes < countLimit)
    (h : engine.advance schedule remaining p = .ok status q)
    (hsmall : ∀ i, sendCount i q.journal.toList < countLimit) :
    (∃ q', engine'.advance schedule' remaining p' = .ok status q' ∧ q.Same q') ∨
      ∃ f q', engine'.advance schedule' remaining p' = .error f q' ∧
        ∃ a ∈ engine.computation.aggregators, a.combine.Faults f := by
  have hends := advance_simulates engine engine' schedule schedule'
    (fun r => ∀ i, sendCount i r.journal.toList < countLimit)
    (fun r r' => r.Same r' ∧ Settled engine delivery r ∧ Settled engine' delivery r')
    (fun f => ∃ a ∈ engine.computation.aggregators, a.combine.Faults f)
    (fun _ _ _ => sends_before ht.valid) (fun r r' hrel => ?_)
    (fun r r' converged next hrel hstep hnext => ?_) ⟨hsame, hs, hs'⟩ h hsmall
  · rcases hends with ⟨q', hq', hsame', _⟩ | hfault
    · exact .inl ⟨q', hq', hsame'⟩
    · exact .inr hfault
  · unfold Engine.isCancelled
    rw [hrel.1.state, hw, hi, hrel.1.stats]
  · obtain ⟨hsame, hs, hs'⟩ := hrel
    obtain ⟨_, _, _, _, _, _, hstepped, rfl⟩ := superstep_ok ht.valid hstep
    rcases hstepped.regroup ht hsame hr hr' hs hs' ha hn (hnext _) with
      ⟨next', hstep', hsame'⟩ | hfault
    · obtain ⟨_, _, _, _, _, _, hstepped', _⟩ := superstep_ok ht.valid' hstep'
      exact .inl ⟨next', hstep', hsame', hstepped.settled hr hs ht.valid,
        hstepped'.settled hr' hs' ht.valid'⟩
    · exact .inr hfault

end Runs

/-- A run of a single worker does not depend on how the nodes are divided. With one worker, a graph
made of edges and associative aggregators, if one run ends without a fault and sends fewer messages
in a superstep than there are counts, every other one in which no combiner of an aggregator fails
runs the same callbacks on the same messages in the same order, and ends with the same result and
halt bits. -/
theorem single_worker_independent {memory : Memory} {g : Adjacency} {config config' : Config}
    {computation : Computation M R} {delivery : Delivery M} {engine engine' : Engine M R}
    (made : g.Made)
    (built : Engine.Built memory g.toGraph config computation delivery engine)
    (built' : Engine.Built memory g.toGraph config' computation delivery engine')
    (one : config.concurrency = 1) (one' : config'.concurrency = 1)
    (cap : config'.maxSupersteps = config.maxSupersteps)
    (watched : engine'.watched = engine.watched)
    (signals : engine'.state.signals = engine.state.signals)
    (associative : ∀ a ∈ computation.aggregators, a.combine.Associative)
    {schedule schedule' : Schedule} (single : schedule.Single engine.strategy)
    (single' : schedule'.Single engine'.strategy)
    (interrupts : schedule'.interrupts = schedule.interrupts) {result : RunResult}
    (finished : (engine.runWith schedule).result = .ok result)
    (counted : ∀ superstep,
      sendCount superstep (engine.runWith schedule).progress.journal.toList < countLimit)
    (calm : ∀ f, (engine'.runWith schedule').result = .error f →
      ¬ ∃ a ∈ computation.aggregators, a.combine.Faults f) :
    (engine'.runWith schedule').result = .ok result ∧
      (engine'.runWith schedule').progress.state.halted =
        (engine.runWith schedule).progress.state.halted ∧
      (engine'.runWith schedule').progress.journal.toList.map Entry.untasked =
        (engine.runWith schedule).progress.journal.toList.map Entry.untasked := by
  obtain ⟨hgraph, hconfig, hcomputation⟩ := built.parts
  obtain ⟨hgraph', hconfig', hcomputation'⟩ := built'.parts
  have hr := built.ready
  have hr' := built'.ready
  have hstrategy := hr.strategy
  have hstrategy' := hr'.strategy
  rw [hgraph, hconfig] at hstrategy
  rw [hgraph', hconfig'] at hstrategy'
  have ht : LeftToRight engine engine' schedule schedule' := {
    graph := hgraph'.trans hgraph.symm
    computation := hcomputation'.trans hcomputation.symm
    valid := single.1
    valid' := single'.1
    moves := fun htasks superstep =>
      single_moves made one hstrategy single (by rw [hgraph] at htasks; exact htasks) superstep
    moves' := fun htasks superstep =>
      single_moves made one' hstrategy' single' (by rw [hgraph] at htasks; exact htasks) superstep }
  have hnodes : engine.graph.nodes < countLimit := by
    obtain ⟨edges, hg⟩ := made.holds
    have hlt := slots_lt hg.room
    rw [hgraph]
    exact Nat.lt_of_succ_lt hlt
  have hstart : Progress.Same (⟨engine.state, #[], #[]⟩ : Progress M R)
      ⟨engine'.state, #[], #[]⟩ := by
    have hstate : engine'.state = engine.state.withMail engine'.state.mail :=
      (built.alike built' signals).eq_withMail
    have hmail : engine'.state.mail = engine.state.mail := by
      rw [hr.mail, hr'.mail, hgraph, hgraph']
    refine ⟨?_, rfl, rfl⟩
    rw [hstate, hmail]
    rfl
  obtain ⟨q, _, hadvance, hjournal, hresult⟩ := runWith_ok finished
  have hcap : engine'.config.maxSupersteps = engine.config.maxSupersteps := by
    rw [hconfig, hconfig', cap]
  have hsmall : ∀ i, sendCount i q.journal.toList < countLimit := by
    intro i
    have hi := counted i
    rw [hjournal, sendCount_append] at hi
    omega
  rcases same_advance ht hstart watched interrupts hr hr' hr.settled hr'.settled
    (hcomputation ▸ associative) hnodes hadvance hsmall with
    ⟨q', hadvance', hsame⟩ | ⟨f, q', hadvance', hfold⟩
  · have hjournal' : (engine'.runWith schedule').progress.journal.toList =
        q'.journal.toList ++ [.close] := by
      simp only [Engine.runWith, hcap, hadvance', Engine.finish, Progress.release_journal,
        Progress.close_journal, Array.toList_push]
    refine ⟨?_, ?_, ?_⟩
    · rw [hresult]
      simp only [Engine.runWith, hcap, hadvance', Engine.finish, hsame.state, hsame.stats]
    · simp only [Engine.runWith, hcap, hadvance, hadvance', Engine.finish,
        Progress.release_halted, Progress.close_state, hsame.state]
    · rw [hjournal, hjournal', List.map_append, List.map_append, hsame.journal]
  · rw [hcomputation] at hfold
    refine absurd hfold (calm f ?_)
    simp only [Engine.runWith, hcap, hadvance']
    rfl

/-- Labelling that also makes known which node computed first. -/
def orderedComponents : Computation Int64 Unit :=
  { components with
    aggregators := [⟨"first", .first⟩]
    compute := fun place messages => do
      NodeProgram.aggregate "first" (Float.ofNat place.node)
      components.compute place messages }

/-- Labelling three nodes in a row comes to the same for one worker that takes all nodes as one
partition and for one that halves them down to single nodes. -/
theorem single_worker_in_a_row : ∃ (engine engine' : Engine Int64 Unit) (result : RunResult),
    Engine.Built .addressable threeInARow ⟨1, 9, 1, .degree⟩ orderedComponents .queued engine ∧
    Engine.Built .addressable threeInARow ⟨1, 9, 1, .auto⟩ orderedComponents .queued engine' ∧
    (engine.runWith .backward).result = .ok result ∧ result.ran = 4 ∧
    (engine'.runWith .sequential).result = .ok result := by
  have hcheck : (Engine.create (R := Unit) .addressable .none threeInARow ⟨1, 9, 1, .degree⟩
      orderedComponents .queued).toOption.any (fun engine =>
        (engine.runWith .backward).result.toOption.any fun result =>
          decide (result.ran = 4 ∧ ((engine.runWith .backward).progress.journal.toList.map
            Entry.sends).sum < countLimit)) = true := by
    decide +kernel
  have hcheck' : (Engine.create (R := Unit) .addressable .none threeInARow ⟨1, 9, 1, .auto⟩
      orderedComponents .queued).toOption.any (fun _ => true) = true := by
    decide +kernel
  have hmade : (⟨#[0, 1, 3, 4], #[1, 0, 2, 1]⟩ : Adjacency).Made :=
    .ofEdges (show Adjacency.ofEdges 3 [(0, 1), (1, 0), (1, 2), (2, 1)] = .ok _ from rfl)
  have hfirst : ∀ a ∈ orderedComponents.aggregators, a.combine.Associative := by
    intro a ha
    rw [List.mem_singleton.mp ha]
    exact associative_total_iff.mpr fun _ _ _ => rfl
  obtain ⟨engine, hcreate, hrun⟩ := exists_of_any hcheck
  obtain ⟨result, hresult, hcheck⟩ := exists_of_any hrun
  obtain ⟨hran, hsmall⟩ := of_decide_eq_true hcheck
  obtain ⟨engine', hcreate', _⟩ := exists_of_any hcheck'
  obtain ⟨_, _, _, _, strategy, _, _, _, _, _, hstrategy, _, rfl⟩ := engine_create_ok hcreate
  obtain ⟨_, _, _, _, _, _, _, _, _, _, _, _, rfl⟩ := engine_create_ok hcreate'
  have hsingle : Schedule.backward.Single strategy := by
    refine ⟨backward_valid, fun threshold h => ?_⟩
    cases hstrategy
    cases h
  have hsame := single_worker_independent hmade (.create hcreate) (.create hcreate') rfl rfl rfl rfl
    rfl hfirst hsingle ⟨sequential_valid, fun _ _ _ _ => rfl⟩ rfl hresult
    (fun superstep => Nat.lt_of_le_of_lt (sendCount_le superstep _) hsmall) ?_
  · exact ⟨_, _, result, .create hcreate, .create hcreate', hresult, hran, hsame.1⟩
  · rintro f _ ⟨a, ha, x, y, hfault⟩
    rw [List.mem_singleton.mp ha] at hfault
    cases hfault

end BulkSync
