import BulkSync.Proofs.Boundaries
import BulkSync.Proofs.Tallies

namespace BulkSync

variable {M R : Type}

theorem call_sends_eq_zero_iff {call : Call (nodeSignature M)} :
    call.sends = 0 ↔ ∀ node, call.sentTo node = [] := by
  obtain ⟨op, answer⟩ := call
  cases op with
  | send target m =>
    refine ⟨fun h => (by cases h), fun h => ?_⟩
    have ht := h target
    simp [Call.sentTo] at ht
  | sendNeighbors m =>
    constructor
    · intro h node
      have hnil : answer = [] := List.length_eq_zero_iff.mp h
      rw [hnil]
      rfl
    · intro h
      cases answer with
      | nil => rfl
      | cons target rest =>
        have ht := h target
        simp [Call.sentTo] at ht
  | _ => exact ⟨fun _ _ => rfl, fun _ => rfl⟩

theorem entry_sends_eq_zero_iff {x : Entry M R} :
    x.sends = 0 ↔ ∀ node, x.sentTo node = [] := by
  cases x with
  | compute superstep task v messages calls result =>
    simp only [Entry.sends, Entry.sentTo, List.sum_eq_zero_iff_forall_eq_nat, List.mem_map,
      forall_exists_index, and_imp, forall_apply_eq_imp_iff₂, call_sends_eq_zero_iff,
      List.flatMap_eq_nil_iff]
    exact ⟨fun h node call hc => h call hc node, fun h call hc node => h node call hc⟩
  | _ => exact ⟨fun _ _ => rfl, fun _ => rfl⟩

theorem sendCount_eq_zero_iff {superstep : Nat} {journal : List (Entry M R)} :
    sendCount superstep journal = 0 ↔ ∀ node, messagesSent superstep node journal = [] := by
  simp only [sendCount, messagesSent, List.sum_eq_zero_iff_forall_eq_nat, List.mem_map,
    forall_exists_index, and_imp, forall_apply_eq_imp_iff₂, entry_sends_eq_zero_iff,
    List.flatMap_eq_nil_iff]
  exact ⟨fun h node x hx => h x hx node, fun h x hx node => h node x hx⟩

theorem sendCount_le (superstep : Nat) (journal : List (Entry M R)) :
    sendCount superstep journal ≤ (journal.map Entry.sends).sum :=
  sum_withKey_le Entry.superstep? superstep Entry.sends journal

section Rounds

variable {engine : Engine M R} {delivery : Delivery M} {p : Progress M R}
  {partitions : List Partition} {superstep : Nat} {moves : List Move} {es : List (Entry M R)}
  {round : Round M R}

/-- At the barrier of a superstep everything has been handed over and accounted for. -/
theorem Played.accounts (hr : engine.Ready delivery) (hs : Settled engine delivery p)
    (h : Played engine superstep (.start p.state.turned partitions.length p.journal) moves es
      round) :
    round.Accounts engine.computation.aggregators (moves.filterMap Move.finished?) es := by
  have hkeys : (p.state.turned.aggregates.declared.map Aggregator.key).Nodup :=
    hs.declared.symm ▸ hr.keys
  have hblank : p.state.turned.aggregates.gathered = .blank p.state.turned.aggregates.declared :=
    hs.gathered.trans (congrArg Totals.blank hs.declared.symm)
  have ha := h.round_accounts hkeys hblank
  rwa [show p.state.turned.aggregates.declared = _ from hs.declared] at ha

theorem Played.tasks_lt (hi : Interleaves partitions moves)
    (h : Played engine superstep (.start p.state.turned partitions.length p.journal) moves es
      round) :
    ∀ x ∈ es, x.task? = none ∨ ∃ task < partitions.length, x.task? = some task := by
  intro x hx
  obtain ⟨task, node, hm, _, ht, _⟩ := h.effect.entries x hx
  rcases ht with ht | ht
  · exact .inl ht
  · obtain ⟨done, rest, hsplit⟩ := List.append_of_mem hm
    rw [hsplit] at hi
    exact .inr ⟨task, hi.pending.1, ht⟩

/-- The counters of a superstep count its callbacks and their messages, modulo the number of
counts there are. -/
theorem Played.counted (hr : engine.Ready delivery) (hs : Settled engine delivery p)
    (hi : Interleaves partitions moves)
    (h : Played engine superstep (.start p.state.turned partitions.length p.journal) moves es
      round) :
    round.computed = es.countP (fun x => x.task?.isSome) % countLimit ∧
      round.sent = (es.map Entry.sends).sum % countLimit :=
  (h.accounts hr hs).counted hi.finishes (h.tasks_lt hi)

end Rounds

section Stepping

variable {engine : Engine M R} {delivery : Delivery M} {schedule : Schedule} {p q : Progress M R}
  {partitions : List Partition} {es : List (Entry M R)} {round : Round M R}
  {calls : List (Call masterSignature)} {stop : Bool} {report : R}

/-- What was sent in a superstep is what its callbacks sent. -/
theorem Stepped.sendCount_eq (hs : Settled engine delivery p)
    (h : Stepped engine schedule p partitions es round calls stop report q) :
    sendCount p.stats.size q.journal.toList = (es.map Entry.sends).sum := by
  rw [h.journal, sendCount_before hs.before, sendCount_during h.during]
  simp [Entry.sends]

theorem Stepped.sent (hr : engine.Ready delivery) (hs : Settled engine delivery p)
    (hv : schedule.Valid)
    (h : Stepped engine schedule p partitions es round calls stop report q) :
    round.sent = sendCount p.stats.size q.journal.toList % countLimit := by
  rw [(h.played.counted hr hs (hv _ _)).2, h.sendCount_eq hs]

end Stepping

end BulkSync
