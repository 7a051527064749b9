import BulkSync.Proofs.Independence
import BulkSync.Proofs.MergingRounds

namespace BulkSync

variable {M R : Type}

/-- Two runs at a boundary that differ only in how the messages are kept. -/
inductive Progress.Merges (combine : Combiner M) (p : Progress M R) : Progress M R → Prop
  | intro {mail journal} (h : p.state.mail.Merges combine mail) :
    Merges combine p ⟨p.state.withMail mail, p.stats, journal⟩

section Runs

variable {combine : Combiner M} {engine engine' : Engine M R} {schedule : Schedule}
  {p p' : Progress M R}

theorem Merging.consult (hm : Merging combine engine engine') (h : p.Merges combine p')
    (superstep : Nat) (quiet : Bool) :
    Outcome.Paired (fun converged q converged' q' => converged' = converged ∧ q.Merges combine q')
      combine.Faults (engine.consult superstep quiet p) (engine'.consult superstep quiet p') := by
  obtain ⟨s, stats, journal⟩ := p
  cases h with | @intro mail journal' hmail
  have hdirected := fun a => perform_directed (a := a)
    (engine.computation.master superstep engine.graph.nodes) (s := s)
  dsimp only [Engine.consult]
  rw [hm.graph, hm.computation, perform_withMail]
  generalize (engine.computation.master superstep engine.graph.nodes).perform masterHandler s =
    performance at hdirected
  obtain ⟨t, calls, result⟩ := performance
  cases result with
  | ok answer =>
    obtain ⟨stop, report⟩ := answer
    exact .ok ⟨rfl, ⟨(hdirected _ rfl).mail ▸ hmail⟩⟩
  | error f => exact .error ..

variable (schedule) in
/-- A superstep ends the same in both runs, unless the combiner fails in it. -/
theorem Merging.superstep (hm : Merging combine engine engine') (h : p.Merges combine p') :
    Outcome.Paired (fun converged q converged' q' => converged' = converged ∧ q.Merges combine q')
      combine.Faults (engine.superstep schedule p) (engine'.superstep schedule p') := by
  have htasks : engine'.strategy.tasks engine'.graph.nodes =
      engine.strategy.tasks engine.graph.nodes := by rw [hm.strategy, hm.graph]
  cases ht : engine.strategy.tasks engine.graph.nodes with
  | error f =>
    obtain ⟨s, stats, journal⟩ := p
    obtain ⟨s', stats', journal'⟩ := p'
    simp only [Engine.superstep, htasks, ht]
    exact .error ..
  | ok partitions =>
    have hstats : p'.stats = p.stats := by
      cases h
      rfl
    rw [superstep_eq ht, superstep_eq (htasks.trans ht), hstats]
    have hstart : (Round.start p.state.turned partitions.length p.journal).Abreast combine
        (.start p'.state.turned partitions.length p'.journal) := by
      obtain ⟨hmail⟩ := h
      exact .merges ⟨rfl, hmail.turn⟩
    have hround := hstart.moves p.stats.size hm
      (schedule.moves p.stats.size partitions)
    dsimp only
    generalize List.foldl (Round.move engine p.stats.size) _ _ = round at hround
    generalize List.foldl (Round.move engine' p.stats.size) _ _ = round' at hround
    cases hround with
    | merges hsame =>
      obtain ⟨clean, hmail⟩ := hsame
      dsimp only
      rw [clean]
      exact hm.consult ⟨hmail⟩ p.stats.size round.isQuiet
    | faulted hf hf' =>
      cases hfaults : round.faults with
      | nil => exact absurd hfaults hf
      | cons f later =>
        cases hfaults' : round'.faults with
        | nil => exact absurd hfaults' hf'
        | cons g later' => exact .error ..
    | failed f later hfaults hf =>
      rw [hfaults]
      exact .own _ f _ hf

variable (schedule) in
theorem Merging.advance (hm : Merging combine engine engine')
    (hw : engine'.watched = engine.watched) (h : p.Merges combine p') (remaining : Nat) :
    Outcome.Paired (fun status q status' q' => status' = status ∧ q.Merges combine q')
      combine.Faults (engine.advance schedule remaining p)
      (engine'.advance schedule remaining p') := by
  induction remaining generalizing p p' with
  | zero => exact .ok ⟨rfl, h⟩
  | succ remaining ih =>
    have hcancelled : engine'.isCancelled schedule p' = engine.isCancelled schedule p := by
      obtain ⟨_⟩ := h
      unfold Engine.isCancelled
      rw [hw]
      rfl
    simp only [Engine.advance, hcancelled]
    split
    next => exact .ok ⟨rfl, h⟩
    next =>
      have hstep := hm.superstep schedule h
      generalize engine.superstep schedule p = o at hstep
      generalize engine'.superstep schedule p' = o' at hstep
      cases hstep with
      | error => exact .error ..
      | own _ f _ hf => exact .own _ f _ hf
      | @ok _ q converged q' hnext =>
        obtain ⟨rfl, hnext⟩ := hnext
        cases converged with
        | true => exact .ok ⟨rfl, hnext⟩
        | false => exact ih hnext

end Runs

/-- Folding the messages of a receiver does not change what a run comes to. If the computation
makes of some messages what it makes of the one that they fold into, then the engine that keeps all
messages and the one that folds them, running under one schedule, end with the same values,
supersteps, status, aggregates and statistics as soon as one of them ends without a fault and the
combiner does not fail. -/
theorem folding_preserves_result {memory : Memory} {graph : Graph} {config : Config}
    {computation : Computation M R} {combine : Combiner M} {engine engine' : Engine M R}
    (built : Engine.Built memory graph config computation .queued engine)
    (built' : Engine.Built memory graph config computation (.combined combine) engine')
    (watched : engine'.watched = engine.watched)
    (signals : engine'.state.signals = engine.state.signals)
    (folds : computation.Folds graph combine) (schedule : Schedule)
    (calm : ∀ f, (engine'.runWith schedule).result = .error f → ¬ combine.Faults f)
    (result : RunResult) :
    (engine.runWith schedule).result = .ok result ↔
      (engine'.runWith schedule).result = .ok result := by
  obtain ⟨hgraph, hconfig, hcomputation⟩ := built.parts
  obtain ⟨hgraph', hconfig', hcomputation'⟩ := built'.parts
  have hstrategy : engine'.strategy = engine.strategy := by
    have hs := built.ready.strategy
    have hs' := built'.ready.strategy
    rw [hgraph, hconfig] at hs
    rw [hgraph', hconfig', hs] at hs'
    exact (Except.ok.inj hs').symm
  have hm : Merging combine engine engine' := ⟨hgraph'.trans hgraph.symm,
    hcomputation'.trans hcomputation.symm, hstrategy, by rw [hcomputation, hgraph]; exact folds⟩
  have hstart : Progress.Merges combine (⟨engine.state, #[], #[]⟩ : Progress M R)
      ⟨engine'.state, #[], #[]⟩ := by
    have hstate : engine'.state = engine.state.withMail engine'.state.mail :=
      (built.alike built' signals).eq_withMail
    have hempty := Combiner.Merges.replicate combine graph.nodes
    rw [hstate]
    refine ⟨?_⟩
    rw [built.ready.mail, built'.ready.mail, hgraph, hgraph']
    exact ⟨rfl, rfl, hempty, hempty⟩
  have hadvance := hm.advance schedule watched hstart config.maxSupersteps
  simp only [Engine.runWith, hconfig, hconfig'] at calm ⊢
  generalize engine.advance schedule config.maxSupersteps _ = o at hadvance
  generalize engine'.advance schedule config.maxSupersteps _ = o' at hadvance calm
  cases hadvance with
  | @ok status q _ q' hsame =>
    obtain ⟨rfl, ⟨_⟩⟩ := hsame
    rfl
  | error f s g t => simp [Engine.finish]
  | own _ f _ hf => exact absurd hf (calm f rfl)

/-- Components of three nodes in a row: keeping only the smallest label for a node, and keeping
them all, come to the same result. -/
theorem folding_in_a_row : ∃ (engine engine' : Engine Int64 Unit) (result : RunResult),
    Engine.Built .addressable threeInARow ⟨2, 9, 1, .range⟩ components .queued engine ∧
    Engine.Built .addressable threeInARow ⟨2, 9, 1, .range⟩ components (.combined .min) engine' ∧
    (engine.runWith .backward).result = .ok result ∧ result.ran = 4 ∧
    (engine'.runWith .backward).result = .ok result := by
  have hcheck : (Engine.create (R := Unit) .addressable .none threeInARow ⟨2, 9, 1, .range⟩
      components .queued).toOption.any (fun engine =>
        (engine.runWith .backward).result.toOption.any fun result => result.ran == 4) = true := by
    decide +kernel
  have hcheck' : (Engine.create (R := Unit) .addressable .none threeInARow ⟨2, 9, 1, .range⟩
      components (.combined .min)).toOption.any (fun _ => true) = true := by
    decide +kernel
  obtain ⟨engine, hcreate, hrun⟩ := exists_of_any hcheck
  obtain ⟨result, hresult, hran⟩ := exists_of_any hrun
  obtain ⟨engine', hcreate', _⟩ := exists_of_any hcheck'
  obtain ⟨_, _, _, _, _, _, _, _, _, _, _, _, rfl⟩ := engine_create_ok hcreate
  obtain ⟨_, _, _, _, _, _, _, _, _, _, _, _, rfl⟩ := engine_create_ok hcreate'
  have hsame := folding_preserves_result (.create hcreate) (.create hcreate') rfl rfl
    (components_folds _) .backward (fun f _ ⟨x, y, hfault⟩ => nomatch hfault) result
  exact ⟨_, _, result, .create hcreate, .create hcreate', hresult, eq_of_beq hran,
    hsame.mp hresult⟩

end BulkSync
