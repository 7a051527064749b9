import BulkSync.Components
import BulkSync.Proofs.Histories

namespace BulkSync

variable {M R : Type}

/-- A node that computes is handed exactly what was sent to it in the superstep before, whatever
the order in which the nodes of a superstep are executed: in superstep 0 nothing, later all
messages in the order they were sent, or the one they fold into. Every target of a message
computes in the next superstep, if there is one. -/
theorem messages_delivered_once {memory : Memory} {graph : Graph} {config : Config}
    {computation : Computation M R} {delivery : Delivery M} {engine : Engine M R}
    (built : Engine.Built memory graph config computation delivery engine) {schedule : Schedule}
    (valid : schedule.Valid) {result : RunResult}
    (finished : (engine.runWith schedule).result = .ok result) :
    let journal := (engine.runWith schedule).progress.journal.toList
    (∀ task node messages calls report,
      .compute 0 task node messages calls report ∈ journal → messages.waiting = []) ∧
    (∀ superstep task node messages calls report,
      .compute (superstep + 1) task node messages calls report ∈ journal →
        delivery.Delivers (messagesSent superstep node journal) messages.waiting) ∧
    (∀ superstep node, superstep + 1 < result.ran → messagesSent superstep node journal ≠ [] →
      computeCount (superstep + 1) node journal = 1) := by
  intro journal
  obtain ⟨hh, _, _⟩ := runWith_history built.ready valid finished
  refine ⟨?_, ?_, ?_⟩
  · intro task node messages calls report hx
    have hd := hh.delivers 0 task node messages calls report hx
    exact hd.eq_nil_iff.mpr rfl
  · intro superstep task node messages calls report hx
    exact hh.delivers (superstep + 1) task node messages calls report hx
  · intro superstep node hlt hne
    have hn : node < engine.graph.nodes := by
      by_contra hge
      exact hne (hh.reach superstep node (Nat.le_of_not_lt hge))
    rw [hh.count (superstep + 1) hlt node hn]
    exact if_pos (.inr (.inr hne))

/-- Components of three nodes in a row: the middle node, which is sent labels in superstep 0,
computes in superstep 1. -/
theorem messages_delivered_in_a_row : ∃ (engine : Engine Int64 Unit) (result : RunResult),
    Engine.Built .addressable threeInARow ⟨2, 9, 1, .range⟩ components .queued engine ∧
    (engine.runWith .sequential).result = .ok result ∧ result.ran = 4 ∧
    computeCount 1 1 (engine.runWith .sequential).progress.journal.toList = 1 := by
  have hcheck : (Engine.create (R := Unit) .addressable .none threeInARow ⟨2, 9, 1, .range⟩
      components .queued).toOption.any (fun engine =>
        (engine.runWith .sequential).result.toOption.any fun result =>
          decide (result.ran = 4 ∧
            messagesSent 0 1 (engine.runWith .sequential).progress.journal.toList ≠ [])) =
        true := by
    decide +kernel
  obtain ⟨engine, hcreate, hrun⟩ := exists_of_any hcheck
  obtain ⟨result, hresult, hcheck⟩ := exists_of_any hrun
  obtain ⟨hran, hsent⟩ := of_decide_eq_true hcheck
  have hd := messages_delivered_once (.create hcreate) sequential_valid hresult
  exact ⟨engine, result, .create hcreate, hresult, hran, hd.2.2 0 1 (by omega) hsent⟩

end BulkSync
