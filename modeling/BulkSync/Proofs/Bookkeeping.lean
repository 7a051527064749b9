import BulkSync.Proofs.Convergence
import BulkSync.Proofs.Endings
import BulkSync.Proofs.NewStores

namespace BulkSync

variable {M R : Type}

/-- The number of nodes that computed in a superstep. -/
def computations (superstep : Nat) (journal : List (Entry M R)) : Nat :=
  journal.countP fun entry => entry.superstep? == some superstep

theorem computations_append (superstep : Nat) (old new : List (Entry M R)) :
    computations superstep (old ++ new) =
      computations superstep old + computations superstep new := by
  simp [computations]

section Readings

variable {superstep i : Nat} {old new es : List (Entry M R)}

theorem computations_before (h : Before superstep old) :
    computations superstep (old ++ new) = computations superstep new := by
  have hold : computations superstep old = 0 := by
    rw [computations, List.countP_eq_length_filter, superstep_filter_before h]
    rfl
  rw [computations_append, hold, Nat.zero_add]

theorem computations_during (h : During superstep es) :
    computations superstep es = es.countP fun entry => entry.task?.isSome := by
  refine List.countP_congr fun x hx => ?_
  rcases h x hx with hnone | hsome
  · cases x with
    | compute => cases hnone
    | _ => simp [Entry.superstep?, Entry.task?]
  · cases x with
    | compute => simp [hsome, Entry.task?]
    | _ => cases hsome

/-- The computations of a superstep are those of its nodes. -/
theorem computations_eq_sum {nodes : Nat} (inside : ∀ x ∈ es, ∀ v, x.node? = some v → v < nodes) :
    computations superstep es =
      ((List.range nodes).map fun v => computeCount superstep v es).sum := by
  have hgroup : ∀ v, ((withKey Entry.node? v es).map fun entry =>
      if entry.superstep? == some superstep then 1 else 0).sum = computeCount superstep v es := by
    intro v
    rw [← countP_eq_sum, withKey, List.countP_filter]
    rfl
  have hkey : ∀ x ∈ es, (if x.superstep? == some superstep then 1 else 0) ≠ 0 →
      ∃ v < nodes, x.node? = some v := by
    intro x hx hne
    cases x with
    | compute _ _ v => exact ⟨v, inside _ hx v rfl, rfl⟩
    | _ => simp [Entry.superstep?] at hne
  rw [computations, countP_eq_sum, ← sum_groups Entry.node? nodes _ es hkey]
  simp only [hgroup]

end Readings

section Stepping

variable {engine : Engine M R} {delivery : Delivery M} {schedule : Schedule} {p q : Progress M R}
  {partitions : List Partition} {es : List (Entry M R)} {round : Round M R}
  {calls : List (Call masterSignature)} {stop : Bool} {report : R}

theorem Stepped.computed (hr : engine.Ready delivery) (hs : Settled engine delivery p)
    (hv : schedule.Valid)
    (h : Stepped engine schedule p partitions es round calls stop report q) :
    round.computed = computations p.stats.size q.journal.toList % countLimit := by
  rw [(h.played.counted hr hs (hv _ _)).1, h.journal, computations_before hs.before,
    computations_during h.during]
  simp [Entry.task?]

end Stepping

end BulkSync
