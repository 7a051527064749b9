import BulkSync.Proofs.MatchingVisits
import BulkSync.Proofs.Merging

namespace BulkSync

variable {M R : Type}

/-- A state in which the tasks that have handed over have gathered something else. -/
def State.gathering (totals : Totals) (s : State M) : State M :=
  s.withAggregates ⟨s.aggregates.declared, totals, s.aggregates.published⟩

/-- The faults by which a task can refuse what another one has done from the same state: a combiner
of an aggregator fails, the counter overflows, or there is no total for every aggregator. -/
def Tally.Refuses (declared : List Aggregator) (tally : Tally) (sends : Nat) (f : Fault) : Prop :=
  (∃ a ∈ declared, a.combine.Faults f) ∨ countLimit ≤ tally.sent + sends ∨
    tally.partials.length ≠ declared.length

section Handlers

variable {graph : Graph} {node : Nat}

theorem ownHandler_gathering (op : OwnOp) (s : State M) (totals : Totals) :
    ownHandler graph node op (s.gathering totals) =
      Outcome.mapState (State.gathering totals) (ownHandler graph node op s) :=
  ownHandler_mapState (f := State.gathering totals) (fun _ => rfl) (fun _ _ => rfl)
    (fun _ _ => rfl) op s

/-- Messages that one task has sent another one sends too, unless its counter overflows. -/
theorem sendAll_regroup {m : M} {targets : List Nat} {d e : Desk M}
    (h : d.sendAll m targets = .ok () e) (totals : Totals) (tally : Tally) :
    (∃ tally', (⟨d.state.gathering totals, tally⟩ : Desk M).sendAll m targets =
        .ok () ⟨e.state.gathering totals, tally'⟩) ∨
      ∃ f e', (⟨d.state.gathering totals, tally⟩ : Desk M).sendAll m targets = .error f e' ∧
        countLimit ≤ tally.sent + targets.length := by
  obtain ⟨mail, hmail, _, he⟩ := desk_sendAll_ok h
  have hmail' : (d.state.gathering totals).mail.sendAll m targets = .ok () mail := hmail
  rw [he]
  simp only [Desk.sendAll, hmail', Desk.countSent]
  by_cases hlt : tally.sent + targets.length < countLimit
  · rw [addCounts_eq_ok_iff.mpr ⟨rfl, hlt⟩]
    exact .inl ⟨_, rfl⟩
  · cases hc : addCounts tally.sent targets.length with
    | ok sent => exact absurd (addCounts_eq_ok_iff.mp hc).2 hlt
    | error f => exact .inr ⟨f, _, rfl, Nat.le_of_not_lt hlt⟩

/-- What one task has contributed another one contributes too, or refuses. -/
theorem contribute_regroup {declared : List Aggregator} {key : String} {y : Float}
    {partials partials' : Totals} (h : Totals.contribute key y declared partials = .ok partials')
    (tally : Tally) :
    (∃ next, Totals.contribute key y declared tally.partials = .ok next) ∨
      ∃ f, Totals.contribute key y declared tally.partials = .error f ∧
        tally.Refuses declared 0 f := by
  by_cases hl : tally.partials.length = declared.length
  · rcases Totals.contribute_exists y hl (Totals.contribute_length h).2 with
      hok | ⟨f, hf, a, ha, hfault⟩
    · exact .inl hok
    · exact .inr ⟨f, hf, .inl ⟨a, ha, hfault⟩⟩
  · cases hp : Totals.contribute key y declared tally.partials with
    | ok next => exact .inl ⟨next, rfl⟩
    | error f => exact .inr ⟨f, rfl, .inr (.inr hl)⟩

/-- What one task has been answered another one is answered too in the same state, or refuses. -/
theorem nodeHandler_regroup {op : NodeOp M} {d e : Desk M} {x : op.Answer}
    (h : nodeHandler graph node op d = .ok x e) (totals : Totals) (tally : Tally) :
    (∃ tally', nodeHandler graph node op ⟨d.state.gathering totals, tally⟩ =
        .ok x ⟨e.state.gathering totals, tally'⟩) ∨
      ∃ f e', nodeHandler graph node op ⟨d.state.gathering totals, tally⟩ = .error f e' ∧
        tally.Refuses d.state.aggregates.declared (Call.sends ⟨op, x⟩) f := by
  cases op with
  | own op =>
    simp only [nodeHandler] at h
    split at h
    next y s hown =>
      cases h
      refine .inl ⟨tally, ?_⟩
      simp only [nodeHandler, ownHandler_gathering, hown, Outcome.mapState]
    next => cases h
  | readOf sc key other =>
    obtain ⟨hx, he⟩ := unchanged_ok h
    rw [he]
    have hx' : (d.state.gathering totals).values.read sc key other = .ok x := hx
    exact .inl ⟨tally, by simp only [nodeHandler, hx', unchanged]⟩
  | neighbors =>
    obtain ⟨hx, rfl⟩ := unchanged_ok h
    exact .inl ⟨tally, by simp only [nodeHandler, hx, unchanged]⟩
  | send target m =>
    rcases sendAll_regroup h totals tally with hok | ⟨f, e', he', hfull⟩
    · exact .inl hok
    · exact .inr ⟨f, e', he', .inr (.inl hfull)⟩
  | sendNeighbors m =>
    simp only [nodeHandler] at h ⊢
    cases hn : graph.neighbors node with
    | error f => rw [hn] at h; cases h
    | ok targets =>
      rw [hn] at h
      dsimp only at h ⊢
      split at h
      next e₀ hsend =>
        cases h
        rcases sendAll_regroup hsend totals tally with ⟨tally', hok⟩ | ⟨f, e', he', hfull⟩
        · exact .inl ⟨tally', by rw [hok]⟩
        · exact .inr ⟨f, e', by rw [he'], .inr (.inl hfull)⟩
      next => cases h
  | vote =>
    simp only [nodeHandler] at h
    split at h
    next halted hhalt =>
      cases h
      have hhalt' : (d.state.gathering totals).halted.halt node = .ok () halted := hhalt
      exact .inl ⟨tally, by simp only [nodeHandler, hhalt']; rfl⟩
    next => cases h
  | aggregate key y =>
    simp only [nodeHandler] at h
    split at h
    next partials hp =>
      cases h
      have hdeclared : (d.state.gathering totals).aggregates.declared =
        d.state.aggregates.declared := rfl
      rcases contribute_regroup hp tally with ⟨next, hok⟩ | ⟨f, hf, hrefuse⟩
      · exact .inl ⟨{ tally with partials := next }, by simp only [nodeHandler, hdeclared, hok]⟩
      · exact .inr ⟨f, _, by simp only [nodeHandler, hdeclared, hf]; rfl, hrefuse⟩
    next => cases h
  | aggregated key =>
    cases h
    exact .inl ⟨tally, rfl⟩

/-- A callback that has ended well in one task ends well in another one from the same state, with
the same calls, or is refused. -/
theorem perform_regroup (p : NodeProgram M R) {d e : Desk M} {calls : List (Call (nodeSignature M))}
    {r : R} (h : p.perform (nodeHandler graph node) d = ⟨e, calls, .ok r⟩) (totals : Totals)
    (tally : Tally) :
    (∃ tally', p.perform (nodeHandler graph node) ⟨d.state.gathering totals, tally⟩ =
        ⟨⟨e.state.gathering totals, tally'⟩, calls, .ok r⟩) ∨
      ∃ f e' calls', p.perform (nodeHandler graph node) ⟨d.state.gathering totals, tally⟩ =
          ⟨e', calls', .error f⟩ ∧
        tally.Refuses d.state.aggregates.declared (calls.map Call.sends).sum f := by
  induction p generalizing d tally calls with
  | done a => cases h; exact .inl ⟨tally, rfl⟩
  | fail f => cases h
  | call op next ih =>
    cases hcall : nodeHandler graph node op d with
    | error f e₁ => rw [perform_call_error hcall] at h; cases h
    | ok x e₁ =>
      rw [perform_call_ok hcall] at h
      generalize hrest : (next x).perform (nodeHandler graph node) e₁ = rest at h
      obtain ⟨last, later, result⟩ := rest
      cases h
      rw [List.map_cons, List.sum_cons]
      have hdeclared : e₁.state.aggregates.declared = d.state.aggregates.declared := by
        rw [(nodeHandler_ok hcall).aggregates]
      rcases nodeHandler_regroup hcall totals tally with
        ⟨tally₁, hcall'⟩ | ⟨f, e', hcall', hrefuse⟩
      · have hserved := nodeHandler_ok hcall'
        rcases ih x hrest tally₁ with ⟨tally', hp⟩ | ⟨f, e', calls', hp, hrefuse⟩
        · exact .inl ⟨tally', by rw [perform_call_ok hcall', hp]⟩
        · refine .inr ⟨f, e', ⟨op, x⟩ :: calls', by rw [perform_call_ok hcall', hp], ?_⟩
          have hsent : tally₁.sent = tally.sent + Call.sends ⟨op, x⟩ := hserved.sent
          have hlength : tally₁.partials.length = tally.partials.length := hserved.length
          unfold Tally.Refuses at hrefuse ⊢
          rw [hdeclared, hsent, hlength] at hrefuse
          rwa [← Nat.add_assoc]
      · refine .inr ⟨f, e', [], perform_call_error hcall', ?_⟩
        rcases hrefuse with hfold | hcount | hpartials
        · exact .inl hfold
        · exact .inr (.inl (by omega))
        · exact .inr (.inr hpartials)

end Handlers

/-- An entry without the task that the node was visited in. -/
def Entry.untasked : Entry M R → Entry M R
  | .compute superstep _ node messages calls result =>
    .compute superstep 0 node messages calls result
  | x => x

section Untasked

variable (x : Entry M R)

@[simp]
theorem untasked_sends : x.untasked.sends = x.sends := by cases x <;> rfl

@[simp]
theorem untasked_gave (key : String) : x.untasked.gave key = x.gave key := by cases x <;> rfl

@[simp]
theorem untasked_task_isSome : x.untasked.task?.isSome = x.task?.isSome := by cases x <;> rfl

end Untasked

/-- A node that has been visited by one task is visited by another one from the same state, with the
same callbacks, or is refused. -/
theorem Visited.regroup {engine engine' : Engine M R} {superstep task node : Nat} {d e : Desk M}
    {new : List (Entry M R)} (hg : engine'.graph = engine.graph)
    (hc : engine'.computation = engine.computation)
    (h : Visited engine superstep task node d new e) (task' : Nat) (totals : Totals)
    (tally : Tally) (journal : Array (Entry M R)) :
    (∃ new' tally', Visited engine' superstep task' node ⟨d.state.gathering totals, tally⟩ new'
        ⟨e.state.gathering totals, tally'⟩ ∧ new'.map Entry.untasked = new.map Entry.untasked) ∨
      ∃ f work, Work.visit engine' superstep task' node
          ⟨⟨d.state.gathering totals, tally⟩, journal⟩ = .error f work ∧
        tally.Refuses d.state.aggregates.declared (new.map Entry.sends).sum f := by
  cases h with
  | @asleep slot later delivered silent halted =>
    exact .inl ⟨[], tally, .asleep later delivered silent halted, rfl⟩
  | @awake slot woken inits begun calls r e delivered due wake init compute =>
    have hinit : Initialized engine' superstep node
        ((d.state.woken node woken).gathering totals) inits (begun.gathering totals) := by
      cases init with
      | later hlater => exact .later hlater
      | @first own answer t hfirst hp =>
        refine .first hfirst ?_
        rw [hc, hg, perform_mapState fun op s => ownHandler_gathering op s totals, hp]
    have hsends := (inits_silent init.ownPerformed.2.2.2.2.2).2.1
    have hdeclared : begun.aggregates.declared = d.state.aggregates.declared := by
      rw [init.ownPerformed.2.2.1]
      rfl
    rw [← hc, ← hg] at compute
    rcases perform_regroup _ compute totals tally with ⟨tally', hp⟩ | ⟨f, e', calls', hp, hrefuse⟩
    · have hvisited : Visited engine' superstep task' node ⟨d.state.gathering totals, tally⟩ _ _ :=
        .awake delivered due wake hinit hp
      exact .inl ⟨_, _, hvisited, by simp [Entry.untasked]⟩
    · obtain ⟨journal', _, hvisit⟩ := visit_awake_eq engine' task' journal
        (d := ⟨d.state.gathering totals, tally⟩) delivered due wake hinit
      refine .inr ⟨f, ⟨e', journal'.push
        (.compute superstep task' node ⟨slot.toList⟩ calls' (.error f))⟩, ?_, ?_⟩
      · rw [hvisit]
        simp only [Work.compute]
        rw [hp]
      · rw [List.map_append, List.sum_append, hsends]
        rw [hdeclared] at hrefuse
        simpa [Entry.sends] using hrefuse

end BulkSync
