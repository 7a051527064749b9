import BulkSync.Proofs.Endings
import BulkSync.Proofs.Independence

namespace BulkSync

variable {M R : Type}

namespace Engine

/-- The boundaries that a run comes to from here, if it may execute so many more supersteps. -/
def boundariesFrom (engine : Engine M R) (schedule : Schedule) :
    (remaining : Nat) → Progress M R → List (Progress M R)
  | 0, p => [p]
  | remaining + 1, p =>
    p :: if engine.isCancelled schedule p then []
      else
        match engine.superstep schedule p with
        | .error _ _ => []
        | .ok true q => [q]
        | .ok false q => engine.boundariesFrom schedule remaining q

/-- The boundaries that a run comes to: the one it starts at, and one after every superstep. -/
def boundaries (engine : Engine M R) (schedule : Schedule) : List (Progress M R) :=
  engine.boundariesFrom schedule engine.config.maxSupersteps ⟨engine.state, #[], #[]⟩

end Engine

/-- With fewer supersteps allowed, a run comes to the same boundaries as far as it gets. -/
theorem boundariesFrom_take (engine : Engine M R) (schedule : Schedule) {cap remaining : Nat}
    (h : cap ≤ remaining) (p : Progress M R) :
    engine.boundariesFrom schedule cap p =
      (engine.boundariesFrom schedule remaining p).take (cap + 1) := by
  induction cap generalizing remaining p with
  | zero => cases remaining <;> rfl
  | succ cap ih =>
    obtain ⟨more, rfl⟩ : ∃ more, remaining = more + 1 := ⟨remaining - 1, by omega⟩
    simp only [Engine.boundariesFrom, List.take_succ_cons]
    congr 1
    split
    next => rfl
    next =>
      cases engine.superstep schedule p with
      | error f q => rfl
      | ok converged q =>
        cases converged with
        | true => simp
        | false => exact ih (by omega) q

/-- A run ends at the last boundary that it comes to, after one superstep for each one before. -/
theorem boundariesFrom_last {engine : Engine M R} {schedule : Schedule} {remaining : Nat}
    {p q : Progress M R} {status : Status}
    (h : engine.advance schedule remaining p = .ok status q) :
    ∃ earlier, engine.boundariesFrom schedule remaining p = earlier ++ [q] ∧
      q.stats.size = p.stats.size + earlier.length := by
  induction remaining generalizing p with
  | zero => cases h; exact ⟨[], rfl, rfl⟩
  | succ remaining ih =>
    simp only [Engine.advance] at h
    simp only [Engine.boundariesFrom]
    by_cases hc : engine.isCancelled schedule p = true
    · rw [if_pos hc] at h ⊢
      cases h
      exact ⟨[], rfl, rfl⟩
    · rw [if_neg hc] at h ⊢
      cases hstep : engine.superstep schedule p with
      | error f r =>
        rw [hstep] at h
        cases h
      | ok converged next =>
        have hnext := superstep_size hstep
        rw [hstep] at h
        cases converged with
        | true =>
          cases h
          exact ⟨[p], rfl, hnext⟩
        | false =>
          obtain ⟨earlier, hlist, hsize⟩ := ih h
          refine ⟨p :: earlier, congrArg (p :: ·) hlist, ?_⟩
          rw [hsize, hnext, List.length_cons]
          omega

/-- Engines that are told apart by their caps only are the same apart from it. -/
theorem Engine.Built.eq_capped {memory : Memory} {graph : Graph} {config : Config} {cap : Nat}
    {computation : Computation M R} {delivery : Delivery M} {engine engine' : Engine M R}
    (h : Engine.Built memory graph config computation delivery engine)
    (h' : Engine.Built memory graph { config with maxSupersteps := cap } computation delivery
      engine')
    (watched : engine'.watched = engine.watched)
    (signals : engine'.state.signals = engine.state.signals) :
    engine' = { engine with config := { config with maxSupersteps := cap } } := by
  obtain ⟨hgraph, hconfig, hcomputation⟩ := h.parts
  obtain ⟨hgraph', hconfig', hcomputation'⟩ := h'.parts
  have hstrategy : engine'.strategy = engine.strategy := by
    have hs := h.ready.strategy
    have hs' : config.strategy graph = .ok engine'.strategy := by
      have hready := h'.ready.strategy
      rw [hgraph', hconfig'] at hready
      exact hready
    rw [hgraph, hconfig, hs'] at hs
    exact Except.ok.inj hs
  have hstate : engine'.state = engine.state := by
    have hmail : engine'.state.mail = engine.state.mail := by
      rw [h.ready.mail, h'.ready.mail, hgraph, hgraph']
    have hmost : engine'.state = engine.state.withMail engine'.state.mail :=
      (h.alike h' signals).eq_withMail
    rw [hmail] at hmost
    exact hmost
  obtain ⟨graph', config', computation', strategy', watched', state'⟩ := engine'
  obtain ⟨_, _, _, _, _, _⟩ := engine
  cases hgraph; cases hgraph'; cases hcomputation; cases hcomputation'; cases hconfig'
  cases hstrategy; cases hstate; cases watched
  rfl

theorem boundariesFrom_capped (engine : Engine M R) (config : Config) (schedule : Schedule)
    (remaining : Nat) (p : Progress M R) :
    Engine.boundariesFrom { engine with config } schedule remaining p =
      engine.boundariesFrom schedule remaining p := by
  induction remaining generalizing p with
  | zero => rfl
  | succ remaining ih =>
    have hstep : Engine.superstep { engine with config } schedule p =
      engine.superstep schedule p := rfl
    simp only [Engine.boundariesFrom, hstep, ih]
    rfl

theorem advance_capped (engine : Engine M R) (config : Config) (schedule : Schedule)
    (remaining : Nat) (p : Progress M R) :
    Engine.advance { engine with config } schedule remaining p =
      engine.advance schedule remaining p := by
  induction remaining generalizing p with
  | zero => rfl
  | succ remaining ih =>
    have hstep : Engine.superstep { engine with config } schedule p =
      engine.superstep schedule p := rfl
    simp only [Engine.advance, hstep, ih]
    rfl

theorem runWith_capped (engine : Engine M R) (config : Config) (schedule : Schedule) :
    Engine.runWith { engine with config } schedule =
      Engine.finish (engine.advance schedule config.maxSupersteps ⟨engine.state, #[], #[]⟩) := by
  rw [Engine.runWith, advance_capped]

/-- Where a run over fewer supersteps comes to: it has ended like the longer one, or the longer one
goes on from there. -/
theorem advance_cut {engine : Engine M R} {schedule : Schedule} {cap remaining : Nat}
    {p q : Progress M R} {status : Status} (within : cap ≤ remaining)
    (h : engine.advance schedule remaining p = .ok status q) :
    (engine.advance schedule cap p = .ok status q ∧ status ≠ .maxSupersteps) ∨
      ∃ r, engine.advance schedule cap p = .ok .maxSupersteps r ∧
        engine.advance schedule (remaining - cap) r = .ok status q := by
  obtain ⟨more, rfl⟩ := Nat.exists_eq_add_of_le within
  rw [advance_add] at h
  rw [Nat.add_sub_cancel_left]
  cases hcap : engine.advance schedule cap p with
  | error f r => rw [hcap] at h; cases h
  | ok status' r =>
    rw [hcap] at h
    cases status' with
    | maxSupersteps => exact .inr ⟨r, rfl, h⟩
    | converged => cases h; exact .inl ⟨rfl, by decide⟩
    | cancelled => cases h; exact .inl ⟨rfl, by decide⟩

/-- A run that may execute fewer supersteps is the same run, as far as it gets. If the longer run
ended before the smaller cap, or converged just there, both end with the same result. Otherwise
the shorter one stops at the smaller cap, with the values and aggregates that the longer one had at
that boundary and the first of its statistics. A run that was cancelled leaves what the run leaves
that has its number of supersteps as its cap, even if nobody asks that one to stop. -/
theorem capped_run_consistent {memory : Memory} {graph : Graph} {config : Config} {cap : Nat}
    {computation : Computation M R} {delivery : Delivery M} {engine engine' : Engine M R}
    (built : Engine.Built memory graph config computation delivery engine)
    (built' : Engine.Built memory graph { config with maxSupersteps := cap } computation delivery
      engine')
    (watched : engine'.watched = engine.watched)
    (signals : engine'.state.signals = engine.state.signals) (schedule : Schedule)
    (within : cap ≤ config.maxSupersteps) {result : RunResult}
    (finished : (engine.runWith schedule).result = .ok result) :
    engine'.boundaries schedule = (engine.boundaries schedule).take (cap + 1) ∧
    (result.ran < cap ∨ result.ran = cap ∧ result.status = .converged →
      (engine'.runWith schedule).result = .ok result) ∧
    (¬ (result.ran < cap ∨ result.ran = cap ∧ result.status = .converged) →
      ∃ p, (engine.boundaries schedule)[cap]? = some p ∧
        p.stats.toList = result.stats.toList.take cap ∧
        (engine'.runWith schedule).result =
          .ok ⟨p.state.values, cap, .maxSupersteps, p.state.aggregates.values, p.stats⟩) ∧
    (result.status = .cancelled → result.ran = cap → ∀ interrupts : Nat → Bool,
      (∀ superstep < cap, interrupts superstep = true → schedule.interrupts superstep = true) →
      (engine'.runWith ⟨schedule.moves, interrupts⟩).result =
        .ok { result with status := .maxSupersteps }) := by
  obtain ⟨_, hconfig, _⟩ := built.parts
  obtain ⟨q, _, hadvance, _, hresult⟩ := runWith_ok finished
  rw [hconfig] at hadvance
  have hran : result.ran = q.stats.size := by rw [hresult]
  rw [built.eq_capped built' watched signals]
  simp only [runWith_capped, Engine.boundaries, boundariesFrom_capped, hconfig]
  refine ⟨boundariesFrom_take engine schedule within _, ?_⟩
  rcases advance_cut within hadvance with ⟨hcap, hstatus⟩ | ⟨p, hcap, hrest⟩
  -- the longer run ended within the smaller cap
  · obtain ⟨hstopped, _⟩ := advance_stopped hcap
    have hended : result.ran < cap ∨ result.ran = cap ∧ result.status = .converged := by
      rw [hran]
      generalize result.status = status at hstopped hstatus
      cases hstopped with
      | converged later within =>
        rcases Nat.lt_or_eq_of_le within with hlt | heq
        · exact .inl (by simpa using hlt)
        · exact .inr ⟨by simpa using heq, rfl⟩
      | maxSupersteps full => exact absurd rfl hstatus
      | cancelled within asked => exact .inl (by simpa using within)
    refine ⟨fun _ => ?_, fun hnot => absurd hended hnot, fun hcancelled hsize => ?_⟩
    · rw [hcap, hresult]
      rfl
    · rcases hended with hlt | ⟨_, hconverged⟩
      · omega
      · rw [hcancelled] at hconverged
        cases hconverged
  -- the longer run came to the smaller cap and went on from there
  · obtain ⟨hfull, _⟩ := advance_stopped hcap
    cases hfull with | maxSupersteps full
    have hsize : p.stats.size = cap := by simpa using full
    obtain ⟨hstopped, hprefix⟩ := advance_stopped hrest
    have hle := stats_size_le hrest
    refine ⟨?_, fun _ => ⟨p, ?_, ?_, ?_⟩, fun hcancelled hcut interrupts hquiet => ?_⟩
    · rintro (hlt | ⟨heq, hconverged⟩)
      · omega
      · rw [hconverged] at hstopped
        cases hstopped with | converged later within
        omega
    · obtain ⟨earlier, hlist, hlength⟩ := boundariesFrom_last hcap
      have hcut := boundariesFrom_take engine schedule within ⟨engine.state, #[], #[]⟩
      have hearlier : earlier.length = cap := by simpa [hsize] using hlength.symm
      have hget : ((engine.boundariesFrom schedule config.maxSupersteps
          ⟨engine.state, #[], #[]⟩).take (cap + 1))[cap]? = some p := by
        rw [← hcut, hlist, ← hearlier]
        simp
      rwa [List.getElem?_take_of_lt (Nat.lt_succ_self cap)] at hget
    · have hstats : result.stats = q.stats := by rw [hresult]
      rw [hstats, ← hsize, ← Array.length_toList]
      exact (List.prefix_iff_eq_take.mp hprefix)
    · rw [hcap, ← hsize]
      rfl
    · have hsame : q = p := advance_still hrest (by omega)
      subst hsame
      rw [advance_undisturbed hcap (by decide) (by rwa [hsize]), hresult]
      rfl

/-- Components of three nodes in a row take four supersteps to converge; with a cap of two, the run
stops after the first two of them. -/
theorem capped_run_in_a_row : ∃ (engine engine' : Engine Int64 Unit) (result result' : RunResult),
    Engine.Built .addressable threeInARow ⟨2, 9, 1, .range⟩ components .queued engine ∧
    Engine.Built .addressable threeInARow ⟨2, 2, 1, .range⟩ components .queued engine' ∧
    (engine.runWith .sequential).result = .ok result ∧ result.ran = 4 ∧
    (engine'.runWith .sequential).result = .ok result' ∧ result'.ran = 2 ∧
    result'.status = .maxSupersteps ∧ result'.stats.toList = result.stats.toList.take 2 := by
  have hcheck : (Engine.create (R := Unit) .addressable .none threeInARow ⟨2, 9, 1, .range⟩
      components .queued).toOption.any (fun engine =>
        (engine.runWith .sequential).result.toOption.any fun result =>
          decide (result.ran = 4)) = true := by
    decide +kernel
  have hcheck' : (Engine.create (R := Unit) .addressable .none threeInARow ⟨2, 2, 1, .range⟩
      components .queued).toOption.any (fun _ => true) = true := by
    decide +kernel
  obtain ⟨engine, hcreate, hrun⟩ := exists_of_any hcheck
  obtain ⟨result, hresult, hcheck⟩ := exists_of_any hrun
  have hran : result.ran = 4 := of_decide_eq_true hcheck
  obtain ⟨engine', hcreate', _⟩ := exists_of_any hcheck'
  obtain ⟨_, _, _, _, _, _, _, _, _, _, _, _, rfl⟩ := engine_create_ok hcreate
  obtain ⟨_, _, _, _, _, _, _, _, _, _, _, _, rfl⟩ := engine_create_ok hcreate'
  obtain ⟨_, _, hstopped, _⟩ := capped_run_consistent (.create hcreate)
    (.create hcreate') rfl rfl .sequential (by decide) hresult
  obtain ⟨p, _, hstats, hresult'⟩ := hstopped (by omega)
  exact ⟨_, _, result, _, .create hcreate, .create hcreate', hresult, hran, hresult', rfl, rfl,
    hstats⟩

end BulkSync
