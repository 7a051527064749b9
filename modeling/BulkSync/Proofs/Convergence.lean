import BulkSync.Components
import BulkSync.Proofs.Counters
import BulkSync.Proofs.Histories
import BulkSync.Proofs.Idleness

namespace BulkSync

variable {M R : Type}

section Stepping

variable {engine : Engine M R} {delivery : Delivery M} {schedule : Schedule} {p q : Progress M R}
  {partitions : List Partition} {es : List (Entry M R)} {round : Round M R}
  {calls : List (Call masterSignature)} {stop : Bool} {report : R}

/-- A superstep is quiet exactly if it sent nothing, modulo the number of counts there are, and
every node has voted when it computed last. -/
theorem Stepped.isQuiet_iff (hr : engine.Ready delivery) (hs : Settled engine delivery p)
    (hv : schedule.Valid)
    (h : Stepped engine schedule p partitions es round calls stop report q) :
    round.isQuiet = true ↔ sendCount p.stats.size q.journal.toList % countLimit = 0 ∧
      ∀ v < engine.graph.nodes, q.state.halted.bit v = true := by
  have hq := h.settled hr hs hv
  have hhalted : q.state.halted = round.state.halted := h.consulted.directed.halted
  have hall := HaltSet.allHalted_iff hq.sound
  rw [hq.nodes] at hall
  unfold Round.isQuiet
  rw [Bool.and_eq_true, beq_iff_eq, h.sent hr hs hv, ← hhalted, hall]

/-- A quiet superstep that sent fewer messages than there are counts leaves nothing to do. -/
theorem Stepped.idle (hr : engine.Ready delivery) (hs : Settled engine delivery p)
    (hv : schedule.Valid)
    (h : Stepped engine schedule p partitions es round calls stop report q)
    (hquiet : round.isQuiet = true)
    (hc : sendCount p.stats.size q.journal.toList < countLimit) : Idle engine q := by
  obtain ⟨hsent, hhalted⟩ := (h.isQuiet_iff hr hs hv).mp hquiet
  have hq := h.settled hr hs hv
  have hsize : q.stats.size = p.stats.size + 1 := h.size
  -- the counter wraps around: only below the number of counts does zero mean that nothing was sent
  rw [Nat.mod_eq_of_lt hc] at hsent
  have hsilent : ∀ v, messagesBefore q.stats.size v q.journal.toList = [] := by
    intro v
    rw [hsize]
    exact sendCount_eq_zero_iff.mp hsent v
  have hpending : q.state.mail.pending = .replicate engine.graph.nodes #[] := by
    refine Array.ext (by simp [hq.pending]) fun v hv₁ _ => ?_
    have hslot := hq.holds v _ (Array.getElem?_eq_getElem hv₁)
    have hnil := hslot.eq_nil_iff.mpr (hsilent v)
    rw [Array.getElem_replicate]
    exact Array.toList_eq_nil_iff.mp hnil
  exact {
    tasks := ⟨partitions, h.tasks⟩
    begun := by omega
    sound := hq.sound
    nodes := hq.nodes
    halted := hhalted
    pending := hpending
    delivered := hq.delivered
    gathered := hq.gathered.trans (congrArg Totals.blank hq.declared.symm) }

end Stepping

/-- At a boundary where the run goes on, some node has something to do. -/
theorem boundary_awake {engine : Engine M R} {delivery : Delivery M} {schedule : Schedule}
    {p : Progress M R} (hr : engine.Ready delivery) (hv : schedule.Valid)
    (h : Boundary engine schedule false p) (hn : p.stats.size ≠ 0) :
    ∃ v < engine.graph.nodes, votedBefore p.stats.size v p.journal.toList = false ∨
      messagesBefore p.stats.size v p.journal.toList ≠ [] := by
  have hp := boundary_settled hr hv h
  have hh := boundary_history hr hv h
  cases h with
  | start => exact absurd rfl hn
  | @next o _ _ reached step =>
    obtain ⟨partitions, es, round, calls, stop, report, hstep, hconverged⟩ := superstep_ok hv step
    have ho := boundary_settled hr hv reached
    have hsize : p.stats.size = o.stats.size + 1 := hstep.size
    -- were every node halted and nothing sent, the superstep would have ended the run
    by_contra hnone
    have hvoted : ∀ v < engine.graph.nodes, p.state.halted.bit v = true := by
      intro v hlt
      rw [hp.bit v hlt]
      by_contra hf
      exact hnone ⟨v, hlt, .inl (Bool.eq_false_iff.mpr hf)⟩
    have hsilent : ∀ v, messagesSent o.stats.size v p.journal.toList = [] := by
      intro v
      by_cases hlt : v < engine.graph.nodes
      · by_contra hne
        exact hnone ⟨v, hlt, .inr (by rw [hsize]; exact hne)⟩
      · exact hh.reach _ v (Nat.le_of_not_lt hlt)
    have hquiet : round.isQuiet = true :=
      (hstep.isQuiet_iff hr ho hv).mpr ⟨by rw [sendCount_eq_zero_iff.mpr hsilent]; rfl, hvoted⟩
    rw [hquiet, Bool.or_true] at hconverged
    cases hconverged

/-- No superstep after the first is idle. -/
theorem boundary_busy {engine : Engine M R} {delivery : Delivery M} {schedule : Schedule}
    {converged : Bool} {p : Progress M R} (hr : engine.Ready delivery) (hv : schedule.Valid)
    (h : Boundary engine schedule converged p) : ∀ superstep, 0 < superstep →
      superstep < p.stats.size → ∃ v < engine.graph.nodes,
        computeCount superstep v p.journal.toList = 1 := by
  induction h with
  | start => intro superstep _ hlt; cases hlt
  | @next o p converged reached step ih =>
    intro superstep hpos hlt
    have hh := boundary_history hr hv (.next reached step)
    obtain ⟨partitions, es, round, calls, stop, report, hstep, _⟩ := superstep_ok hv step
    have hafter := hstep.during.after
    have hsize : p.stats.size = o.stats.size + 1 := hstep.size
    rcases Nat.lt_or_eq_of_le (Nat.le_of_lt_succ (hsize ▸ hlt)) with hearlier | rfl
    · obtain ⟨v, hn, hcount⟩ := ih superstep hpos hearlier
      refine ⟨v, hn, ?_⟩
      rw [hstep.journal, computeCount_after hafter hearlier]
      exact hcount
    · obtain ⟨v, hn, hdue⟩ := boundary_awake hr hv reached (Nat.pos_iff_ne_zero.mp hpos)
      refine ⟨v, hn, ?_⟩
      rw [hh.count o.stats.size hlt v hn]
      refine if_pos (.inr ?_)
      rw [hstep.journal, votedBefore_after hafter (Nat.le_refl _),
        messagesBefore_after hafter (Nat.le_refl _)]
      exact hdue

/-- A run that converges although the master callback would go on has nothing left to do: every
node is halted, no message is pending, and no number of further supersteps, in whatever order,
would let a node compute, send a message or change a halt bit or, unless the master callback
itself sets it, a value. And no superstep after the first is executed in which no node computes. -/
theorem convergence_exact {memory : Memory} {graph : Graph} {config : Config}
    {computation : Computation M R} {delivery : Delivery M} {engine : Engine M R}
    (built : Engine.Built memory graph config computation delivery engine) {schedule : Schedule}
    (valid : schedule.Valid) {status : Status} {q : Progress M R}
    (finished : engine.advance schedule engine.config.maxSupersteps ⟨engine.state, #[], #[]⟩ =
      .ok status q)
    (counted : ∀ superstep, sendCount superstep q.journal.toList < countLimit) :
    (status = .converged →
      (∃ calls report, q.journal.back? =
        some (.master (q.stats.size - 1) calls (.ok (false, report)))) →
      (∀ node < graph.nodes, q.state.halted.isHalted node = .ok true) ∧
      (∀ slot ∈ q.state.mail.pending, slot = #[]) ∧
      ∀ further : Schedule, further.Valid → ∀ r, Follows engine further q r →
        Idled q r ∧ engine.superstep further r = engine.consult r.stats.size true r.idled) ∧
    (∀ superstep, 0 < superstep → superstep < q.stats.size →
      ∃ node < graph.nodes, computeCount superstep node q.journal.toList = 1) := by
  have hr := built.ready
  have hb := advance_boundary .start finished
  rw [← built.parts.1]
  refine ⟨fun hstatus hasked => ?_, boundary_busy hr valid hb⟩
  subst hstatus
  obtain ⟨asked, answer, hback⟩ := hasked
  cases hb with
  | @next p _ _ reached step =>
    obtain ⟨partitions, es, round, calls, stop, report, hstep, hconverged⟩ :=
      superstep_ok valid step
    have hs := boundary_settled hr valid reached
    rw [hstep.consulted.journal, Array.back?_push] at hback
    obtain ⟨_, _, hresult⟩ := Entry.master.inj (Option.some.inj hback)
    have hstop : stop = false := (Prod.mk.inj (Except.ok.inj hresult)).1
    rw [hstop, Bool.false_or] at hconverged
    have hidle := hstep.idle hr hs valid hconverged.symm (counted _)
    refine ⟨?_, ?_, ?_⟩
    · intro node hn
      rw [HaltSet.isHalted_eq_bit hidle.sound (hidle.nodes ▸ hn), hidle.halted node hn]
    · intro slot hslot
      rw [hidle.pending] at hslot
      exact Array.eq_of_mem_replicate hslot
    · intro further hvalid r hfollows
      obtain ⟨hnext, hidled⟩ := hidle.follows hr hvalid hfollows
      exact ⟨hidled, hnext.superstep_eq hr hvalid⟩

/-- Components of three nodes in a row converge: all are halted in the end, and in each of the four
supersteps some node computes. -/
theorem convergence_in_a_row : ∃ (engine : Engine Int64 Unit) (q : Progress Int64 Unit),
    Engine.Built .addressable threeInARow ⟨2, 9, 1, .range⟩ components .queued engine ∧
    engine.advance .sequential engine.config.maxSupersteps ⟨engine.state, #[], #[]⟩ =
      .ok .converged q ∧
    (∀ node < 3, q.state.halted.isHalted node = .ok true) ∧
    ∃ node < 3, computeCount 3 node q.journal.toList = 1 := by
  have hcheck : (Engine.create (R := Unit) .addressable .none threeInARow ⟨2, 9, 1, .range⟩
      components .queued).toOption.any (fun engine =>
        (engine.runWith .sequential).result.toOption.any fun result =>
          decide (result.ran = 4 ∧ result.status = .converged ∧
            ((engine.runWith .sequential).progress.journal.toList.map Entry.sends).sum <
              countLimit)) = true := by
    decide +kernel
  obtain ⟨engine, hcreate, hrun⟩ := exists_of_any hcheck
  obtain ⟨result, hresult, hdone⟩ := exists_of_any hrun
  obtain ⟨hran, hstatus, hsmall⟩ := of_decide_eq_true hdone
  obtain ⟨q, hb, hadvance, hjournal, hq⟩ := runWith_ok hresult
  rw [hstatus] at hadvance hb
  have hfour : q.stats.size = 4 := by
    rw [← hran, hq]
  have hcounted : ∀ superstep, sendCount superstep q.journal.toList < countLimit := by
    intro superstep
    refine Nat.lt_of_le_of_lt (sendCount_le superstep _) (Nat.lt_of_le_of_lt ?_ hsmall)
    rw [hjournal, List.map_append, List.sum_append]
    exact Nat.le_add_right _ _
  obtain ⟨hidle, hbusy⟩ := convergence_exact (.create hcreate) sequential_valid hadvance hcounted
  refine ⟨engine, q, .create hcreate, hadvance, (hidle rfl ?_).1, hbusy 3 (by omega) (by omega)⟩
  cases hb with
  | @next p _ _ reached step =>
    obtain ⟨_, _, _, calls, stop, report, hstep, _⟩ := superstep_ok sequential_valid step
    have hmaster := hstep.consulted.performed
    rw [(Engine.Built.create hcreate).parts.2.2] at hmaster
    have hanswer : Except.ok (false, ()) = .ok (stop, report) :=
      congrArg Performance.result hmaster
    cases hanswer
    refine ⟨calls, (), ?_⟩
    rw [hstep.consulted.journal, Array.back?_push, hstep.stats, Array.size_push]
    rfl

end BulkSync
