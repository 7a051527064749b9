import BulkSync.Proofs.ComponentLabels
import BulkSync.Proofs.TwinBarriers

namespace BulkSync

variable {M R : Type}

section Twins

variable {engine engine' : Engine M R} {delivery : Delivery M} {p p' q : Progress M R}
  {schedule schedule' : Schedule} {partitions : List Partition} {es : List (Entry M R)}
  {round : Round M R} {calls : List (Call masterSignature)} {stop : Bool} {report : R}

theorem Alike.eq_withMail (h : Alike p p') : p'.state = p.state.withMail p'.state.mail := by
  obtain ⟨⟨values, halted, mail, aggregates, signals⟩, stats, journal⟩ := p'
  have hvalues : values = p.state.values := h.values
  have hhalted : halted = p.state.halted := h.halted
  have haggregates : aggregates = p.state.aggregates := h.aggregates
  have hsignals : signals = p.state.signals := h.signals
  rw [hvalues, hhalted, haggregates, hsignals]
  rfl

/-- Runs that are alike at a barrier are alike after the master callback. -/
theorem Consulted.twin {b b' : Progress M R} {superstep : Nat} (ha : Alike b b')
    (ht : Twins engine engine') (h : Consulted engine superstep calls stop report b q)
    (quiet : Bool) :
    ∃ q', engine'.consult superstep quiet b' = .ok (stop || quiet) q' ∧ Alike q q' := by
  have hmail : q.state.mail = b.state.mail := h.directed.mail
  have hstate := ha.eq_withMail
  have hp : (engine'.computation.master superstep engine'.graph.nodes).perform masterHandler
      b'.state = ⟨q.state.withMail b'.state.mail, calls, .ok (stop, report)⟩ := by
    rw [hstate, ht.computation, ht.graph, perform_withMail, h.performed]
    rfl
  have hc : Consulted engine' superstep calls stop report b' ⟨q.state.withMail b'.state.mail,
      b'.stats, b'.journal.push (.master superstep calls (.ok (stop, report)))⟩ :=
    ⟨hp, rfl, rfl⟩
  refine ⟨_, hc.ok quiet, rfl, rfl, rfl, rfl, ha.stats.trans h.stats.symm, ?_⟩
  intro v slot slot' hslot hslot'
  rw [hmail] at hslot
  exact ha.pending v slot slot' hslot hslot'

/-- A superstep that one run executes the other one executes too, and stays alike, or a combiner
fails in it. -/
theorem Stepped.twin (ha : Alike p p') (ht : Twins engine engine') (hr : engine.Ready delivery)
    (hr' : engine'.Ready delivery) (hv : schedule.Valid) (hv' : schedule'.Valid)
    (hs : Settled engine delivery p) (hs' : Settled engine' delivery p')
    (hla : ∀ a ∈ engine.computation.aggregators, a.combine.Lawful) (hld : delivery.Lawful)
    (hn : engine.graph.nodes < countLimit)
    (h : Stepped engine schedule p partitions es round calls stop report q)
    (hsmall : sendCount p.stats.size q.journal.toList < countLimit) :
    (∃ q', engine'.superstep schedule' p' = .ok (stop || round.isQuiet) q' ∧ Alike q q') ∨
      ∃ f q', engine'.superstep schedule' p' = .error f q' ∧
        FoldFault engine.computation.aggregators delivery f := by
  obtain ⟨partitions', htasks⟩ := tasks_exist hr'.strategy (by rw [ht.graph]; exact hn)
  have hi := hv' p.stats.size partitions'
  have hsends : (es.map Entry.sends).sum < countLimit := by rwa [← h.sendCount_eq hs]
  rw [superstep_eq htasks, show p'.stats.size = p.stats.size by rw [ha.stats]]
  dsimp only
  rcases h.twin_round ha ht hr hr' hv hs hs' hsends htasks hi with ⟨es', hp'⟩ | ⟨f, rest, hf, hfold⟩
  · obtain ⟨hbarrier, hquiet⟩ := h.twin_barrier ha ht hr hr' hv hs hs' hla hld htasks hi hp'
    obtain ⟨q', hq', halike⟩ := h.consulted.twin hbarrier ht round.isQuiet
    have hfaults := hp'.effect.faults
    rw [hfaults, hquiet]
    exact .inl ⟨q', hq', halike⟩
  · rw [hf]
    exact .inr ⟨f, _, rfl, hfold⟩

/-- What a run has sent in a superstep it had sent at most at a boundary before. -/
theorem sends_before (hv : schedule.Valid) {converged : Bool}
    (h : engine.superstep schedule p = .ok converged q)
    (hq : ∀ i, sendCount i q.journal.toList < countLimit) :
    ∀ i, sendCount i p.journal.toList < countLimit := by
  intro i
  obtain ⟨_, _, _, _, _, _, hs, _⟩ := superstep_ok hv h
  have hi := hq i
  rw [hs.journal, sendCount_append] at hi
  omega

/-- Runs that are alike at a boundary are alike when they end, or a combiner fails. -/
theorem twin_advance {remaining : Nat} {status : Status} (ha : Alike p p')
    (ht : Twins engine engine') (hw : engine'.watched = engine.watched)
    (hi : schedule'.interrupts = schedule.interrupts) (hr : engine.Ready delivery)
    (hr' : engine'.Ready delivery) (hv : schedule.Valid) (hv' : schedule'.Valid)
    (hs : Settled engine delivery p) (hs' : Settled engine' delivery p')
    (hla : ∀ a ∈ engine.computation.aggregators, a.combine.Lawful) (hld : delivery.Lawful)
    (hn : engine.graph.nodes < countLimit)
    (h : engine.advance schedule remaining p = .ok status q)
    (hsmall : ∀ i, sendCount i q.journal.toList < countLimit) :
    (∃ q', engine'.advance schedule' remaining p' = .ok status q' ∧ Alike q q') ∨
      ∃ f q', engine'.advance schedule' remaining p' = .error f q' ∧
        FoldFault engine.computation.aggregators delivery f := by
  have hends := advance_simulates engine engine' schedule schedule'
    (fun r => ∀ i, sendCount i r.journal.toList < countLimit)
    (fun r r' => Alike r r' ∧ Settled engine delivery r ∧ Settled engine' delivery r')
    (FoldFault engine.computation.aggregators delivery) (fun _ _ _ => sends_before hv)
    (fun r r' hrel => ?_) (fun r r' converged next hrel hstep hnext => ?_) ⟨ha, hs, hs'⟩ h hsmall
  · rcases hends with ⟨q', hq', ha', _⟩ | hfault
    · exact .inl ⟨q', hq', ha'⟩
    · exact .inr hfault
  · unfold Engine.isCancelled
    rw [hrel.1.signals, hw, hi, hrel.1.stats]
  · obtain ⟨ha, hs, hs'⟩ := hrel
    obtain ⟨_, _, _, _, _, _, hstepped, rfl⟩ := superstep_ok hv hstep
    rcases hstepped.twin ha ht hr hr' hv hv' hs hs' hla hld hn (hnext _) with
      ⟨next', hstep', ha'⟩ | hfault
    · obtain ⟨_, _, _, _, _, _, hstepped', _⟩ := superstep_ok hv' hstep'
      exact .inl ⟨next', hstep', ha', hstepped.settled hr hs hv, hstepped'.settled hr' hs' hv'⟩
    · exact .inr hfault

end Twins

/-- Engines of one computation over one graph, with the same signals raised, start alike. -/
theorem Engine.Built.alike {memory : Memory} {graph : Graph} {config config' : Config}
    {computation : Computation M R} {delivery delivery' : Delivery M} {engine engine' : Engine M R}
    (h : Engine.Built memory graph config computation delivery engine)
    (h' : Engine.Built memory graph config' computation delivery' engine')
    (signals : engine'.state.signals = engine.state.signals) :
    Alike (⟨engine.state, #[], #[]⟩ : Progress M R) ⟨engine'.state, #[], #[]⟩ := by
  obtain ⟨hgraph, _, hcomputation⟩ := h.parts
  obtain ⟨hgraph', _, hcomputation'⟩ := h'.parts
  obtain ⟨schema, hschema, hvalues, hhalted⟩ := h.beginning
  obtain ⟨schema', hschema', hvalues', hhalted'⟩ := h'.beginning
  rw [hschema] at hschema'
  cases hschema'
  rw [hvalues] at hvalues'
  rw [hhalted] at hhalted'
  have haggregates : engine'.state.aggregates = engine.state.aggregates :=
    h'.ready.aggregates.trans (by rw [hcomputation', ← hcomputation]; exact h.ready.aggregates.symm)
  refine ⟨(Except.ok.inj hvalues').symm, (Except.ok.inj hhalted').symm, haggregates, signals, rfl,
    ?_⟩
  intro v slot slot' hslot hslot'
  simp only [h.ready.mail, h'.ready.mail, hgraph, hgraph'] at hslot hslot'
  rw [hslot] at hslot'
  cases hslot'
  exact .refl _

/-- The result of a run does not depend on how the nodes are divided into tasks or in which order
the tasks move: if one run ends without a fault and sends fewer messages in a superstep than there
are counts, every other one whose combiners do not fail ends with the same values, halt bits,
supersteps, status, aggregates and statistics. -/
theorem result_independent {memory : Memory} {graph : Graph} {config config' : Config}
    {computation : Computation M R} {delivery : Delivery M} {engine engine' : Engine M R}
    (built : Engine.Built memory graph config computation delivery engine)
    (built' : Engine.Built memory graph config' computation delivery engine')
    (small : graph.relationships + graph.nodes < countLimit)
    (cap : config'.maxSupersteps = config.maxSupersteps)
    (watched : engine'.watched = engine.watched)
    (signals : engine'.state.signals = engine.state.signals)
    (keeps : computation.Local)
    (lawful : ∀ a ∈ computation.aggregators, a.combine.Lawful) (lawful' : delivery.Lawful)
    {schedule schedule' : Schedule} (valid : schedule.Valid) (valid' : schedule'.Valid)
    (interrupts : schedule'.interrupts = schedule.interrupts) {result : RunResult}
    (finished : (engine.runWith schedule).result = .ok result)
    (counted : ∀ superstep,
      sendCount superstep (engine.runWith schedule).progress.journal.toList < countLimit)
    (calm : ∀ f, (engine'.runWith schedule').result = .error f →
      ¬ FoldFault computation.aggregators delivery f) :
    (engine'.runWith schedule').result = .ok result ∧
      (engine'.runWith schedule').progress.state.halted =
        (engine.runWith schedule).progress.state.halted := by
  obtain ⟨hgraph, hconfig, hcomputation⟩ := built.parts
  obtain ⟨hgraph', hconfig', hcomputation'⟩ := built'.parts
  have hr := built.ready
  have hr' := built'.ready
  have ht : Twins engine engine' :=
    ⟨hgraph'.trans hgraph.symm, hcomputation'.trans hcomputation.symm, hcomputation ▸ keeps⟩
  obtain ⟨q, _, hadvance, hjournal, hresult⟩ := runWith_ok finished
  have hcap : engine'.config.maxSupersteps = engine.config.maxSupersteps := by
    rw [hconfig, hconfig', cap]
  have hsmall : ∀ i, sendCount i q.journal.toList < countLimit := by
    intro i
    have hi := counted i
    rw [hjournal, sendCount_append] at hi
    omega
  have hadvances := twin_advance (built.alike built' signals) ht watched interrupts hr hr' valid
    valid' hr.settled hr'.settled (hcomputation ▸ lawful) lawful' (by rw [hgraph]; omega) hadvance
    hsmall
  rw [hcomputation] at hadvances
  rcases hadvances with ⟨q', hadvance', ha⟩ | ⟨f, q', hadvance', hfold⟩
  · have hhalted : (engine.runWith schedule).progress.state.halted = q.state.halted := by
      simp only [Engine.runWith, hadvance]
      rfl
    rw [hhalted, hresult]
    simp only [Engine.runWith, hcap, hadvance']
    refine ⟨?_, ha.halted⟩
    simp only [Engine.finish, ha.values, ha.stats, ha.aggregates]
  · refine absurd hfold (calm f ?_)
    simp only [Engine.runWith, hcap, hadvance']
    rfl

/-- Components of three nodes in a row, labels being combined: two workers that share the nodes and
work one after the other come to the same result as tasks split as finely as can be that work from
the last one to the first. -/
theorem result_independent_in_a_row : ∃ (engine engine' : Engine Int64 Unit) (result : RunResult),
    Engine.Built .addressable threeInARow ⟨2, 9, 1, .range⟩ components (.combined .min) engine ∧
    Engine.Built .addressable threeInARow ⟨3, 9, 1, .auto⟩ components (.combined .min) engine' ∧
    (engine.runWith .sequential).result = .ok result ∧ result.ran = 4 ∧
    (engine'.runWith .backward).result = .ok result := by
  have hcheck : (Engine.create (R := Unit) .addressable .none threeInARow ⟨2, 9, 1, .range⟩
      components (.combined .min)).toOption.any (fun engine =>
        (engine.runWith .sequential).result.toOption.any fun result =>
          decide (result.ran = 4 ∧ ((engine.runWith .sequential).progress.journal.toList.map
            Entry.sends).sum < countLimit)) = true := by
    decide +kernel
  have hcheck' : (Engine.create (R := Unit) .addressable .none threeInARow ⟨3, 9, 1, .auto⟩
      components (.combined .min)).toOption.any (fun _ => true) = true := by
    decide +kernel
  obtain ⟨engine, hcreate, hrun⟩ := exists_of_any hcheck
  obtain ⟨result, hresult, hcheck⟩ := exists_of_any hrun
  obtain ⟨hran, hsmall⟩ := of_decide_eq_true hcheck
  obtain ⟨engine', hcreate', _⟩ := exists_of_any hcheck'
  obtain ⟨_, _, _, _, _, _, _, _, _, _, _, _, rfl⟩ := engine_create_ok hcreate
  obtain ⟨_, _, _, _, _, _, _, _, _, _, _, _, rfl⟩ := engine_create_ok hcreate'
  have hsame := result_independent (.create hcreate) (.create hcreate') (by decide) rfl rfl rfl
    components_local (by simp [components]) minimum_lawful sequential_valid backward_valid rfl
    hresult (fun superstep => Nat.lt_of_le_of_lt (sendCount_le superstep _) hsmall) ?_
  · exact ⟨_, _, result, .create hcreate, .create hcreate', hresult, hran, hsame.1⟩
  · rintro f _ (⟨a, ha, _⟩ | ⟨combine, hcombine, x, y, hfault⟩)
    · cases ha
    · cases hcombine
      cases hfault

end BulkSync
