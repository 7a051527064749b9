import BulkSync.Proofs.Deliveries

namespace BulkSync

variable {M R : Type}

/-- A node computes in a superstep once if it is superstep 0, or the node did not vote to halt
when it computed last, or a message was sent to it in the superstep before, and otherwise not at
all. It initializes itself once, right before it computes for the first time. At every boundary
its halt bit is set exactly if it voted when it computed last. -/
theorem activation_law {memory : Memory} {graph : Graph} {config : Config}
    {computation : Computation M R} {delivery : Delivery M} {engine : Engine M R}
    (built : Engine.Built memory graph config computation delivery engine) {schedule : Schedule}
    (valid : schedule.Valid) {result : RunResult}
    (finished : (engine.runWith schedule).result = .ok result) :
    let journal := (engine.runWith schedule).progress.journal.toList
    (∀ superstep node, computeCount superstep node journal =
      if superstep < result.ran ∧ node < graph.nodes ∧
        (superstep = 0 ∨ votedBefore superstep node journal = false ∨
          messagesSent (superstep - 1) node journal ≠ []) then 1 else 0) ∧
    (∀ node < graph.nodes, result.ran ≠ 0 →
      ∃ before after calls report task messages calls' report', journal =
        before ++ .init node calls report ::
          .compute 0 task node messages calls' report' :: after ∧
        ∀ x ∈ before ++ after, x.isInit node = false) ∧
    (∀ node, result.ran = 0 ∨ graph.nodes ≤ node → ∀ x ∈ journal, x.isInit node = false) ∧
    (∀ converged p, Boundary engine schedule converged p → ∀ node < graph.nodes,
      p.state.halted.isHalted node = .ok (votedBefore p.stats.size node p.journal.toList)) := by
  intro journal
  obtain ⟨hh, hbefore, hinside⟩ := runWith_history built.ready valid finished
  rw [built.parts.1] at hh hinside
  refine ⟨?_, ?_, ?_, ?_⟩
  · intro superstep node
    by_cases hlt : superstep < result.ran
    · by_cases hn : node < graph.nodes
      · rw [hh.count superstep hlt node hn]
        cases superstep with
        | zero => simp [hlt, hn]
        | succ i => simp [hlt, hn, messagesBefore, journal]
      · rw [if_neg fun h => hn h.2.1]
        exact computeCount_eq_zero fun x hx _ hnode => hn (hinside x hx node hnode)
    · rw [if_neg fun h => hlt h.1]
      exact computeCount_eq_zero fun x hx hsuperstep _ => hlt (hbefore x hx superstep hsuperstep)
  · intro node hn hne
    obtain ⟨calls, report, task, messages, calls', report', before, after, hsplit⟩ :=
      hh.opening hne node hn
    refine ⟨before, after, calls, report, task, messages, calls', report', ?_,
      initCount_eq_zero ?_⟩
    · exact hsplit.symm.trans (by simp)
    · have hone := hh.inits node
      rw [if_pos ⟨hne, hn⟩, ← hsplit] at hone
      simp only [initCount, List.countP_append, List.countP_cons, Entry.isInit] at hone ⊢
      simp only [beq_self_eq_true, if_true] at hone
      omega
  · intro node hnone
    refine initCount_eq_zero ?_
    rw [hh.inits node, if_neg]
    rintro ⟨hne, hn⟩
    rcases hnone with h0 | hge
    · exact hne h0
    · omega
  · intro converged p hp node hn
    have hsettled := boundary_settled built.ready valid hp
    rw [← built.parts.1] at hn
    rw [HaltSet.isHalted_eq_bit hsettled.sound (hsettled.nodes ▸ hn), hsettled.bit node hn]

/-- Components of three nodes in a row: in superstep 3 the middle node is sent a label and
computes, and the first node, which has voted, is sent none and does not. -/
theorem activation_in_a_row : ∃ (engine : Engine Int64 Unit) (result : RunResult),
    Engine.Built .addressable threeInARow ⟨2, 9, 1, .range⟩ components .queued engine ∧
    (engine.runWith .sequential).result = .ok result ∧
    computeCount 3 1 (engine.runWith .sequential).progress.journal.toList = 1 ∧
    computeCount 3 0 (engine.runWith .sequential).progress.journal.toList = 0 := by
  have hcheck : (Engine.create (R := Unit) .addressable .none threeInARow ⟨2, 9, 1, .range⟩
      components .queued).toOption.any (fun engine =>
        (engine.runWith .sequential).result.toOption.any fun result =>
          decide (result.ran = 4 ∧
            messagesSent 2 1 (engine.runWith .sequential).progress.journal.toList ≠ [] ∧
            messagesSent 2 0 (engine.runWith .sequential).progress.journal.toList = [] ∧
            votedBefore 3 0 (engine.runWith .sequential).progress.journal.toList = true)) =
        true := by
    decide +kernel
  obtain ⟨engine, hcreate, hrun⟩ := exists_of_any hcheck
  obtain ⟨result, hresult, hcheck⟩ := exists_of_any hrun
  obtain ⟨hran, hsent, hsilent, hvoted⟩ := of_decide_eq_true hcheck
  have hlaw := (activation_law (.create hcreate) sequential_valid hresult).1
  refine ⟨engine, result, .create hcreate, hresult, ?_, ?_⟩
  · rw [hlaw, if_pos ⟨by omega, by decide, .inr (.inr hsent)⟩]
  · rw [hlaw, if_neg]
    rintro ⟨_, _, h0 | hv | hs⟩
    · cases h0
    · rw [hvoted] at hv; cases hv
    · exact hs hsilent

end BulkSync
