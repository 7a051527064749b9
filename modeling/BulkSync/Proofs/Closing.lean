import BulkSync.Proofs.Skipping

namespace BulkSync

variable {M R : Type}

/-- Callbacks after some more of them, none of which closes the computation. -/
def Continues (earlier later : Array (Entry M R)) : Prop :=
  ∃ new, later.toList = earlier.toList ++ new ∧ .close ∉ new

namespace Continues

theorem refl (journal : Array (Entry M R)) : Continues journal journal :=
  ⟨[], by simp, by simp⟩

theorem trans {first later last : Array (Entry M R)} (hfirst : Continues first later)
    (hlater : Continues later last) : Continues first last := by
  obtain ⟨new, hnew, hopen⟩ := hfirst
  obtain ⟨newer, hnewer, hstill⟩ := hlater
  refine ⟨new ++ newer, by rw [hnewer, hnew, List.append_assoc], ?_⟩
  simp [hopen, hstill]

end Continues

/-- Whether it faults or not, the visit of a node does not close the computation. -/
theorem visit_continues (engine : Engine M R) (superstep task node : Nat) (work : Work M R) :
    Continues work.journal
      (Outcome.state (Work.visit engine superstep task node work)).journal := by
  obtain ⟨new, hnew, hnodes⟩ := (visit_confined engine superstep task node work).1.journal
  exact ⟨new, hnew, fun hclose => absurd (hnodes _ hclose) (by simp [Entry.node?])⟩

theorem move_continues (engine : Engine M R) (superstep : Nat) (m : Move) (round : Round M R) :
    Continues round.journal (round.move engine superstep m).journal := by
  cases m with
  | finish task =>
    simp only [Round.move, Round.finish]
    split
    next => exact .refl _
    next =>
      split
      next => exact .refl _
      next => split <;> exact .refl _
  | visit task node =>
    simp only [Round.move, Round.visit]
    split
    next => exact .refl _
    next tally _ =>
      split
      next => exact .refl _
      next =>
        have hvisit := visit_continues engine superstep task node
          ⟨⟨round.state, tally⟩, round.journal⟩
        split
        next work heq => rwa [heq] at hvisit
        next f work heq => rwa [heq] at hvisit

/-- The moves of a superstep do not close the computation, also after one of them faulted. -/
theorem moves_continue (engine : Engine M R) (superstep : Nat) (moves : List Move)
    (round : Round M R) :
    Continues round.journal (moves.foldl (Round.move engine superstep) round).journal := by
  induction moves generalizing round with
  | nil => exact .refl _
  | cons m rest ih => exact (move_continues engine superstep m round).trans (ih _)

theorem consult_continues (engine : Engine M R) (superstep : Nat) (quiet : Bool)
    (p : Progress M R) :
    Continues p.journal (Outcome.state (engine.consult superstep quiet p)).journal := by
  obtain ⟨calls, report, hjournal, _⟩ := consult_spares engine superstep quiet p
  exact ⟨_, hjournal, by simp⟩

/-- Whichever callback faults in a superstep, it does not close the computation. -/
theorem superstep_continues (engine : Engine M R) (schedule : Schedule) (p : Progress M R) :
    Continues p.journal (Outcome.state (engine.superstep schedule p)).journal := by
  cases ht : engine.strategy.tasks engine.graph.nodes with
  | error f =>
    simp only [Engine.superstep, ht]
    exact .refl _
  | ok partitions =>
    rw [superstep_eq ht]
    have hmoves := moves_continue engine p.stats.size (schedule.moves p.stats.size partitions)
      (.start p.state.turned partitions.length p.journal)
    dsimp only
    split
    next => exact hmoves
    next => exact hmoves.trans (consult_continues engine _ _ _)

/-- However the supersteps end, none of their callbacks has closed the computation. -/
theorem advance_continues (engine : Engine M R) (schedule : Schedule) (remaining : Nat)
    (p : Progress M R) :
    Continues p.journal (Outcome.state (engine.advance schedule remaining p)).journal := by
  induction remaining generalizing p with
  | zero => exact .refl _
  | succ remaining ih =>
    have hstep := superstep_continues engine schedule p
    rw [Engine.advance]
    split
    next => exact .refl _
    next =>
      split
      next f q hq => rwa [hq] at hstep
      next q hq => rwa [hq] at hstep
      next q hq =>
        rw [hq] at hstep
        exact hstep.trans (ih q)

namespace Progress

theorem closings_close (p : Progress M R) : p.close.closings = p.closings + 1 := by
  rw [closings, close_journal, Array.countP_push]
  rfl

theorem closings_eq_zero {p : Progress M R} (hopen : .close ∉ p.journal.toList) :
    p.closings = 0 := by
  refine Array.countP_eq_zero.mpr fun entry hentry hclose => ?_
  cases entry with
  | close => exact hopen hentry.val
  | _ => cases hclose

end Progress

section Endings

variable (outcome : Outcome (Progress M R) Status)

/-- The end of a run adds one callback, whether a fault ended it or not. -/
theorem finish_journal :
    (Engine.finish outcome).progress.journal = (Outcome.state outcome).journal.push .close := by
  cases outcome <;> rfl

theorem finish_closings :
    (Engine.finish outcome).closings = (Outcome.state outcome).closings + 1 := by
  cases outcome <;> exact Progress.closings_close _

end Endings

/-- A run closes the computation once, after all its other callbacks, whether it converged, came to
its cap, was cancelled or ended with a fault of any callback. Giving the buffers up without a run
makes no callback, so it never closes the computation, and it leaves the same state whatever the
computation is. -/
theorem closed_once_and_last (engine : Engine M R) (schedule : Schedule) :
    (∃ callbacks, (engine.runWith schedule).progress.journal.toList = callbacks ++ [.close] ∧
      .close ∉ callbacks) ∧
    (engine.runWith schedule).closings = 1 ∧
    (∀ callback, callback ∉ engine.release.journal) ∧ engine.release.closings = 0 ∧
    ∀ (R' : Type) (other : Computation M R'),
      (Engine.release ⟨engine.graph, engine.config, other, engine.strategy, engine.watched,
        engine.state⟩).state = engine.release.state := by
  obtain ⟨callbacks, hcallbacks, hopen⟩ := advance_continues engine schedule
    engine.config.maxSupersteps ⟨engine.state, #[], #[]⟩
  rw [List.nil_append] at hcallbacks
  have hreleased : engine.release.journal = #[] := Progress.release_journal _
  refine ⟨⟨callbacks, ?_, hopen⟩, ?_, by simp [hreleased], ?_, fun _ _ => rfl⟩
  · rw [Engine.runWith, finish_journal, Array.toList_push, hcallbacks]
  · rw [Engine.runWith, finish_closings, Progress.closings_eq_zero (hcallbacks ▸ hopen)]
  · exact Progress.closings_eq_zero (by simp [hreleased])

end BulkSync
