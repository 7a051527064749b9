import BulkSync.Proofs.Supersteps

namespace BulkSync

variable {M R : Type}

section Advancing

variable {engine : Engine M R} {schedule : Schedule} {p q : Progress M R} {remaining : Nat}
  {status : Status}

theorem superstep_grows {converged : Bool} (h : engine.superstep schedule p = .ok converged q) :
    p.stats.toList <+: q.stats.toList := by
  obtain ⟨computed, sent, hstats⟩ := superstep_counted h
  rw [hstats, Array.toList_push]
  exact List.prefix_append ..

/-- Where a run came to that could execute `remaining` more supersteps. -/
inductive Stopped (engine : Engine M R) (schedule : Schedule) (remaining : Nat)
    (p q : Progress M R) : Status → Prop
  | converged (later : p.stats.size < q.stats.size)
      (within : q.stats.size ≤ p.stats.size + remaining) :
      Stopped engine schedule remaining p q .converged
  | maxSupersteps (full : q.stats.size = p.stats.size + remaining) :
      Stopped engine schedule remaining p q .maxSupersteps
  | cancelled (within : q.stats.size < p.stats.size + remaining)
      (asked : engine.isCancelled schedule q = true) :
      Stopped engine schedule remaining p q .cancelled

/-- A run stops for the reason that its status gives, and what it counted before it goes on from
here stays counted. -/
theorem advance_stopped (h : engine.advance schedule remaining p = .ok status q) :
    Stopped engine schedule remaining p q status ∧ p.stats.toList <+: q.stats.toList := by
  induction remaining generalizing p with
  | zero => cases h; exact ⟨.maxSupersteps rfl, List.prefix_refl _⟩
  | succ remaining ih =>
    simp only [Engine.advance] at h
    split at h
    next hasked => cases h; exact ⟨.cancelled (by omega) hasked, List.prefix_refl _⟩
    next =>
      split at h
      next => cases h
      next next hstep =>
        cases h
        have hsize := superstep_size hstep
        exact ⟨.converged (by omega) (by omega), superstep_grows hstep⟩
      next next hstep =>
        have hsize := superstep_size hstep
        obtain ⟨hstopped, hlater⟩ := ih h
        refine ⟨?_, (superstep_grows hstep).trans hlater⟩
        cases hstopped with
        | converged later within => exact .converged (by omega) (by omega)
        | maxSupersteps full => exact .maxSupersteps (by omega)
        | cancelled within asked => exact .cancelled (by omega) asked

/-- A run in which nobody raises the signal is not cancelled at any boundary. -/
theorem not_cancelled (calm : engine.state.signals.isRaised engine.watched = false)
    (still : ∀ superstep, schedule.interrupts superstep = false)
    (same : p.state.signals = engine.state.signals) : engine.isCancelled schedule p = false := by
  unfold Engine.isCancelled
  rw [same, calm, still]
  rfl

/-- A run of which no superstep faults and that nobody cancels comes to an end. -/
theorem advance_exists
    (calm : ∀ p, Boundary engine schedule false p → engine.isCancelled schedule p = false)
    (steps : ∀ p, Boundary engine schedule false p →
      ∃ converged q, engine.superstep schedule p = .ok converged q)
    (remaining : Nat) (hp : Boundary engine schedule false p) :
    ∃ status q, engine.advance schedule remaining p = .ok status q ∧ status ≠ .cancelled := by
  induction remaining generalizing p with
  | zero => exact ⟨.maxSupersteps, p, rfl, by simp⟩
  | succ remaining ih =>
    obtain ⟨converged, q, hstep⟩ := steps p hp
    simp only [Engine.advance, calm p hp, hstep, Bool.false_eq_true, if_false]
    cases converged with
    | true => exact ⟨.converged, q, rfl, by simp⟩
    | false => exact ih (hp.next hstep)

/-- Such a run has had some superstep in the end, and all that it was allowed if it has not
converged. -/
theorem run_exists
    (calm : ∀ p, Boundary engine schedule false p → engine.isCancelled schedule p = false)
    (steps : ∀ p, Boundary engine schedule false p →
      ∃ converged q, engine.superstep schedule p = .ok converged q)
    (hcap : 0 < engine.config.maxSupersteps) :
    ∃ status q, (engine.runWith schedule).result =
        .ok ⟨q.state.values, q.stats.size, status, q.state.aggregates.values, q.stats⟩ ∧
      status ≠ .cancelled ∧ Boundary engine schedule (status == .converged) q ∧
      0 < q.stats.size ∧ q.stats.size ≤ engine.config.maxSupersteps ∧
      (status = .maxSupersteps → q.stats.size = engine.config.maxSupersteps) := by
  obtain ⟨status, q, hadvance, hstatus⟩ :=
    advance_exists calm steps engine.config.maxSupersteps .start
  refine ⟨status, q, ?_, hstatus, advance_boundary .start hadvance, ?_⟩
  · unfold Engine.runWith
    rw [hadvance]
    rfl
  have hzero : (⟨engine.state, #[], #[]⟩ : Progress M R).stats.size = 0 := rfl
  obtain ⟨hstopped, -⟩ := advance_stopped hadvance
  cases hstopped with
  | converged later within => exact ⟨by omega, by omega, fun he => by cases he⟩
  | maxSupersteps full => exact ⟨by omega, by omega, fun _ => by omega⟩
  | cancelled => exact absurd rfl hstatus

theorem stats_size_le (h : engine.advance schedule remaining p = .ok status q) :
    p.stats.size ≤ q.stats.size := by
  have hlength := (advance_stopped h).2.length_le
  simpa using hlength

/-- A run that executes no superstep stays where it is. -/
theorem advance_still (h : engine.advance schedule remaining p = .ok status q)
    (hsize : q.stats.size = p.stats.size) : q = p := by
  cases remaining with
  | zero => cases h; rfl
  | succ remaining =>
    simp only [Engine.advance] at h
    split at h
    next => cases h; rfl
    next =>
      split at h
      next => cases h
      next next hstep =>
        cases h
        have hnext := superstep_size hstep
        omega
      next next hstep =>
        have hnext := superstep_size hstep
        have hle := stats_size_le h
        omega

/-- A run that is not cancelled does not depend on requests to stop that come later. -/
theorem advance_undisturbed {interrupts : Nat → Bool}
    (h : engine.advance schedule remaining p = .ok status q) (hstatus : status ≠ .cancelled)
    (hquiet : ∀ superstep < q.stats.size, interrupts superstep = true →
      schedule.interrupts superstep = true) :
    engine.advance ⟨schedule.moves, interrupts⟩ remaining p = .ok status q := by
  induction remaining generalizing p with
  | zero => exact h
  | succ remaining ih =>
    -- the request is looked at before a superstep, so only those below the end of the run count
    have hcalm : ∀ {next : Progress M R} {converged : Bool},
        engine.superstep schedule p = .ok converged next →
        next.stats.size ≤ q.stats.size → ¬ engine.isCancelled schedule p = true →
        ¬ engine.isCancelled ⟨schedule.moves, interrupts⟩ p = true := by
      intro next converged hstep hle hcancelled hasked
      have hsize := superstep_size hstep
      apply hcancelled
      rcases Bool.or_eq_true_iff.mp hasked with hraised | hinterrupted
      · exact Bool.or_eq_true_iff.mpr (.inl hraised)
      · exact Bool.or_eq_true_iff.mpr (.inr (hquiet _ (by omega) hinterrupted))
    have hsame : engine.superstep ⟨schedule.moves, interrupts⟩ p = engine.superstep schedule p :=
      rfl
    simp only [Engine.advance] at h ⊢
    split at h
    next => cases h; exact absurd rfl hstatus
    next hcancelled =>
      split at h
      next => cases h
      next next hstep =>
        cases h
        rw [if_neg (hcalm hstep (Nat.le_refl _) hcancelled), hsame, hstep]
      next next hstep =>
        rw [if_neg (hcalm hstep (stats_size_le h) hcancelled), hsame, hstep]
        exact ih h

/-- A run over so many supersteps and then some more is the run over the first ones, and from
where it comes to, unless it has ended there, the run over the others. -/
theorem advance_add (engine : Engine M R) (schedule : Schedule) (first later : Nat)
    (p : Progress M R) :
    engine.advance schedule (first + later) p =
      match engine.advance schedule first p with
      | .ok .maxSupersteps q => engine.advance schedule later q
      | outcome => outcome := by
  induction first generalizing p with
  | zero => rw [Nat.zero_add]; rfl
  | succ first ih =>
    rw [Nat.succ_add]
    simp only [Engine.advance]
    split
    next => rfl
    next =>
      cases engine.superstep schedule p with
      | error f q => rfl
      | ok converged q =>
        cases converged with
        | true => rfl
        | false => exact ih q

end Advancing

end BulkSync
