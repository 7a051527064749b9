import BulkSync.Proofs.Rounds
import BulkSync.Proofs.Tiling

namespace BulkSync

variable {M R : Type}

/-- A state whose sent messages are delivered. -/
def State.turned (s : State M) : State M :=
  ⟨s.values, s.halted, s.mail.turn, s.aggregates, s.signals⟩

/-- A state at the barrier: what was gathered is known. -/
def State.published (s : State M) : State M :=
  s.withAggregates s.aggregates.publish

/-- Whether a call between supersteps changed a value. -/
def Call.isSet : Call masterSignature → Bool
  | ⟨.set _ _ _, _⟩ => true
  | _ => false

/-- All that can have been done between two supersteps. -/
structure Directed (calls : List (Call masterSignature)) (s t : State M) : Prop where
  mail : t.mail = s.mail
  halted : t.halted = s.halted
  aggregates : t.aggregates = s.aggregates
  values : calls.any Call.isSet = false → t.values = s.values

theorem masterHandler_ok {op : MasterOp} {s t : State M} {x : op.Answer}
    (h : masterHandler op s = .ok x t) : Directed [⟨op, x⟩] s t := by
  cases op with
  | get key node => obtain ⟨_, rfl⟩ := unchanged_ok h; exact ⟨rfl, rfl, rfl, fun _ => rfl⟩
  | set key node value =>
    simp only [masterHandler] at h
    split at h
    next => cases h; exact ⟨rfl, rfl, rfl, fun hs => by simp [Call.isSet] at hs⟩
    next => cases h
  | aggregated key => cases h; exact ⟨rfl, rfl, rfl, fun _ => rfl⟩
  | raise signal => cases h; exact ⟨rfl, rfl, rfl, fun _ => rfl⟩

theorem perform_directed {α : Type} (p : MasterProgram α) {s : State M} {a : α}
    (h : (p.perform masterHandler s).result = .ok a) :
    Directed (p.perform masterHandler s).calls s (p.perform masterHandler s).state := by
  refine perform_invariant (I := fun calls t => Directed calls s t) ?_ p
    ⟨rfl, rfl, rfl, fun _ => rfl⟩ h
  intro calls t op x u ht hop
  have hs := masterHandler_ok hop
  exact {
    mail := hs.mail.trans ht.mail
    halted := hs.halted.trans ht.halted
    aggregates := hs.aggregates.trans ht.aggregates
    values := fun hc => by
      rw [List.any_append, Bool.or_eq_false_iff] at hc
      exact (hs.values hc.2).trans (ht.values hc.1) }

def State.withMail (mail : Mailroom M) (s : State M) : State M :=
  ⟨s.values, s.halted, mail, s.aggregates, s.signals⟩

/-- The master callback does not see the messages. -/
theorem perform_withMail {α : Type} (p : MasterProgram α) (s : State M) (mail : Mailroom M) :
    p.perform masterHandler (s.withMail mail) =
      ⟨(p.perform masterHandler s).state.withMail mail, (p.perform masterHandler s).calls,
        (p.perform masterHandler s).result⟩ := by
  refine perform_mapState (fun op s => ?_) p s
  cases op with
  | get key node =>
    simp only [masterHandler, State.withMail, unchanged]
    cases s.values.get key node <;> rfl
  | set key node value =>
    simp only [masterHandler, State.withMail]
    cases s.values.set key node value <;> rfl
  | aggregated key => rfl
  | raise signal => rfl

/-- The master callback after a superstep ended without a fault. -/
structure Consulted (engine : Engine M R) (superstep : Nat)
    (calls : List (Call masterSignature)) (stop : Bool) (report : R) (p q : Progress M R) :
    Prop where
  performed : (engine.computation.master superstep engine.graph.nodes).perform masterHandler
    p.state = ⟨q.state, calls, .ok (stop, report)⟩
  stats : q.stats = p.stats
  journal : q.journal = p.journal.push (.master superstep calls (.ok (stop, report)))

theorem consult_ok {engine : Engine M R} {superstep : Nat} {quiet converged : Bool}
    {p q : Progress M R} (h : engine.consult superstep quiet p = .ok converged q) :
    ∃ calls stop report, Consulted engine superstep calls stop report p q ∧
      converged = (stop || quiet) := by
  obtain ⟨state, stats, journal⟩ := p
  simp only [Engine.consult] at h
  generalize hp : (engine.computation.master superstep engine.graph.nodes).perform masterHandler
    state = performance at h
  obtain ⟨t, calls, result⟩ := performance
  cases result with
  | ok answer =>
    obtain ⟨stop, report⟩ := answer
    cases h
    exact ⟨calls, stop, report, ⟨hp, rfl, rfl⟩, rfl⟩
  | error f => cases h

theorem Consulted.ok {engine : Engine M R} {superstep : Nat} {calls : List (Call masterSignature)}
    {stop : Bool} {report : R} {p q : Progress M R}
    (h : Consulted engine superstep calls stop report p q) (quiet : Bool) :
    engine.consult superstep quiet p = .ok (stop || quiet) q := by
  obtain ⟨s, stats, journal⟩ := p
  obtain ⟨t, stats', journal'⟩ := q
  obtain ⟨hperformed, hstats, hjournal⟩ := h
  dsimp only at hperformed hstats hjournal
  subst hstats hjournal
  simp only [Engine.consult, hperformed]

theorem Consulted.directed {engine : Engine M R} {superstep : Nat}
    {calls : List (Call masterSignature)} {stop : Bool} {report : R} {p q : Progress M R}
    (h : Consulted engine superstep calls stop report p q) : Directed calls p.state q.state := by
  have hd := perform_directed (engine.computation.master superstep engine.graph.nodes)
    (s := p.state) (by rw [h.performed])
  rwa [h.performed] at hd

def Round.barrier (superstep : Nat) (stats : Array Stats) (round : Round M R) : Progress M R :=
  ⟨round.state.published, stats.push ⟨superstep, round.computed, round.sent⟩, round.journal⟩

/-- A superstep that ended without a fault: the tasks played all their moves, and the master
callback was consulted at the barrier. -/
structure Stepped (engine : Engine M R) (schedule : Schedule) (p : Progress M R)
    (partitions : List Partition) (es : List (Entry M R)) (round : Round M R)
    (calls : List (Call masterSignature)) (stop : Bool) (report : R) (q : Progress M R) :
    Prop where
  tasks : engine.strategy.tasks engine.graph.nodes = .ok partitions
  played : Played engine p.stats.size (.start p.state.turned partitions.length p.journal)
    (schedule.moves p.stats.size partitions) es round
  consulted : Consulted engine p.stats.size calls stop report
    (round.barrier p.stats.size p.stats) q

theorem superstep_eq {engine : Engine M R} {schedule : Schedule} {p : Progress M R}
    {partitions : List Partition}
    (ht : engine.strategy.tasks engine.graph.nodes = .ok partitions) :
    engine.superstep schedule p =
      let round := (schedule.moves p.stats.size partitions).foldl
        (Round.move engine p.stats.size) (.start p.state.turned partitions.length p.journal)
      match round.faults with
      | f :: _ => .error f ⟨round.state, p.stats, round.journal⟩
      | [] => engine.consult p.stats.size round.isQuiet (round.barrier p.stats.size p.stats) := by
  obtain ⟨state, stats, journal⟩ := p
  simp only [Engine.superstep, ht]
  rfl

/-- Executing a superstep without a fault is playing all moves and consulting the master
callback. -/
theorem superstep_ok {engine : Engine M R} {schedule : Schedule} {p q : Progress M R}
    {converged : Bool} (hv : schedule.Valid)
    (h : engine.superstep schedule p = .ok converged q) :
    ∃ partitions es round calls stop report,
      Stepped engine schedule p partitions es round calls stop report q ∧
      converged = (stop || round.isQuiet) := by
  cases ht : engine.strategy.tasks engine.graph.nodes with
  | error f =>
    obtain ⟨state, stats, journal⟩ := p
    simp only [Engine.superstep, ht] at h
    cases h
  | ok partitions =>
    rw [superstep_eq ht] at h
    dsimp only at h
    rcases played_or_fault engine p.stats.size p.state.turned p.journal
      (hv p.stats.size partitions) (fun _ => True) (fun _ _ _ _ _ _ _ _ _ => trivial) with
      ⟨es, hp⟩ | ⟨f, rest, hf, _⟩
    · have hfaults := hp.effect.faults
      rw [hfaults] at h
      obtain ⟨calls, stop, report, hc, he⟩ := consult_ok h
      exact ⟨partitions, es, _, calls, stop, report, ⟨ht, hp, hc⟩, he⟩
    · rw [hf] at h
      cases h

section Stepping

variable {engine : Engine M R} {schedule : Schedule} {p q : Progress M R}
  {partitions : List Partition} {es : List (Entry M R)} {round : Round M R}
  {calls : List (Call masterSignature)} {stop : Bool} {report : R}

theorem Stepped.stats
    (h : Stepped engine schedule p partitions es round calls stop report q) :
    q.stats = p.stats.push ⟨p.stats.size, round.computed, round.sent⟩ :=
  h.consulted.stats

theorem Stepped.size (h : Stepped engine schedule p partitions es round calls stop report q) :
    q.stats.size = p.stats.size + 1 := by
  rw [h.stats, Array.size_push]

/-- A superstep writes its callbacks into the journal, and the master callback after them. -/
theorem Stepped.journal
    (h : Stepped engine schedule p partitions es round calls stop report q) :
    q.journal.toList =
      p.journal.toList ++ (es ++ [.master p.stats.size calls (.ok (stop, report))]) := by
  have hj : round.journal.toList = p.journal.toList ++ es := h.played.effect.journal
  rw [h.consulted.journal, Array.toList_push, Round.barrier, hj, List.append_assoc]

end Stepping

/-- Whatever the order of its moves, a superstep without a fault is counted under its number. -/
theorem superstep_counted {engine : Engine M R} {schedule : Schedule} {p q : Progress M R}
    {converged : Bool} (h : engine.superstep schedule p = .ok converged q) :
    ∃ computed sent, q.stats = p.stats.push ⟨p.stats.size, computed, sent⟩ := by
  cases ht : engine.strategy.tasks engine.graph.nodes with
  | error f =>
    obtain ⟨state, stats, journal⟩ := p
    simp only [Engine.superstep, ht] at h
    cases h
  | ok partitions =>
    rw [superstep_eq ht] at h
    dsimp only at h
    split at h
    next => cases h
    next =>
      obtain ⟨calls, stop, report, hc, _⟩ := consult_ok h
      exact ⟨_, _, hc.stats⟩

/-- The boundaries between supersteps that a run can come to, and whether it has converged
there. -/
inductive Boundary (engine : Engine M R) (schedule : Schedule) : Bool → Progress M R → Prop
  | start : Boundary engine schedule false ⟨engine.state, #[], #[]⟩
  | next {p q converged} (reached : Boundary engine schedule false p)
      (step : engine.superstep schedule p = .ok converged q) :
      Boundary engine schedule converged q

theorem superstep_size {engine : Engine M R} {schedule : Schedule} {p q : Progress M R}
    {converged : Bool} (h : engine.superstep schedule p = .ok converged q) :
    q.stats.size = p.stats.size + 1 := by
  obtain ⟨computed, sent, hstats⟩ := superstep_counted h
  rw [hstats, Array.size_push]

/-- Before the first superstep nothing has happened. -/
theorem boundary_first {engine : Engine M R} {schedule : Schedule} {p : Progress M R}
    {converged : Bool} (hp : Boundary engine schedule converged p) (h0 : p.stats.size = 0) :
    p = ⟨engine.state, #[], #[]⟩ := by
  cases hp with
  | start => rfl
  | next reached step =>
    have hsize := superstep_size step
    omega

theorem advance_boundary {engine : Engine M R} {schedule : Schedule} {remaining : Nat}
    {p q : Progress M R} {status : Status} (hp : Boundary engine schedule false p)
    (h : engine.advance schedule remaining p = .ok status q) :
    Boundary engine schedule (status == .converged) q := by
  induction remaining generalizing p with
  | zero => cases h; exact hp
  | succ remaining ih =>
    simp only [Engine.advance] at h
    split at h
    next => cases h; exact hp
    next =>
      split at h
      next => cases h
      next next hs => cases h; exact hp.next hs
      next next hs => exact ih (hp.next hs) h

theorem good_of_advance {engine : Engine M R} {schedule : Schedule} {good : Progress M R → Prop}
    (back : ∀ p converged q, engine.superstep schedule p = .ok converged q → good q → good p)
    {remaining : Nat} {p q : Progress M R} {status : Status}
    (h : engine.advance schedule remaining p = .ok status q) (hgood : good q) : good p := by
  induction remaining generalizing p with
  | zero => cases h; exact hgood
  | succ remaining ih =>
    simp only [Engine.advance] at h
    split at h
    next => cases h; exact hgood
    next =>
      split at h
      next => cases h
      next next hstep => cases h; exact back _ _ _ hstep hgood
      next next hstep => exact back _ _ _ hstep (ih h)

/-- If the supersteps of one run are also those of another one, or a fault of some kind ends it,
then so are any number of them. What has to hold of the first run is known at its end only, and
handed back from each boundary to the one before. -/
theorem advance_simulates (engine engine' : Engine M R) (schedule schedule' : Schedule)
    (good : Progress M R → Prop) (related : Progress M R → Progress M R → Prop)
    (bad : Fault → Prop)
    (back : ∀ p converged q, engine.superstep schedule p = .ok converged q → good q → good p)
    (cancelled : ∀ p p', related p p' →
      engine'.isCancelled schedule' p' = engine.isCancelled schedule p)
    (step : ∀ p p' converged q, related p p' → engine.superstep schedule p = .ok converged q →
      good q → (∃ q', engine'.superstep schedule' p' = .ok converged q' ∧ related q q') ∨
        ∃ f q', engine'.superstep schedule' p' = .error f q' ∧ bad f)
    {remaining : Nat} {p p' q : Progress M R} {status : Status} (hrel : related p p')
    (h : engine.advance schedule remaining p = .ok status q) (hgood : good q) :
    (∃ q', engine'.advance schedule' remaining p' = .ok status q' ∧ related q q') ∨
      ∃ f q', engine'.advance schedule' remaining p' = .error f q' ∧ bad f := by
  induction remaining generalizing p p' with
  | zero => cases h; exact .inl ⟨p', rfl, hrel⟩
  | succ remaining ih =>
    simp only [Engine.advance] at h ⊢
    rw [cancelled p p' hrel]
    split at h
    next hc => cases h; rw [if_pos hc]; exact .inl ⟨p', rfl, hrel⟩
    next hc =>
      rw [if_neg hc]
      split at h
      next => cases h
      next next hstep =>
        cases h
        rcases step p p' _ _ hrel hstep hgood with ⟨next', hs, hr⟩ | ⟨f, next', hs, hf⟩
        · exact .inl ⟨next', by rw [hs], hr⟩
        · exact .inr ⟨f, next', by rw [hs], hf⟩
      next next hstep =>
        -- the rest of the run tells what holds after this superstep
        have hnext : good next := good_of_advance back h hgood
        rcases step p p' _ _ hrel hstep hnext with ⟨next', hs, hr⟩ | ⟨f, next', hs, hf⟩
        · rw [hs]
          exact ih hr h
        · exact .inr ⟨f, next', by rw [hs], hf⟩

/-- A run that did not fault ended at a boundary, and gave up its message buffers there. -/
theorem runWith_ok {engine : Engine M R} {schedule : Schedule} {result : RunResult}
    (h : (engine.runWith schedule).result = .ok result) :
    ∃ q, Boundary engine schedule (result.status == .converged) q ∧
      engine.advance schedule engine.config.maxSupersteps ⟨engine.state, #[], #[]⟩ =
        .ok result.status q ∧
      (engine.runWith schedule).progress.journal.toList = q.journal.toList ++ [.close] ∧
      result =
        ⟨q.state.values, q.stats.size, result.status, q.state.aggregates.values, q.stats⟩ := by
  simp only [Engine.runWith] at h ⊢
  cases ha : engine.advance schedule engine.config.maxSupersteps ⟨engine.state, #[], #[]⟩ with
  | error f q =>
    rw [ha] at h
    cases h
  | ok status q =>
    rw [ha] at h
    cases h
    exact ⟨q, advance_boundary .start ha, rfl, Array.toList_push, rfl⟩

end BulkSync
