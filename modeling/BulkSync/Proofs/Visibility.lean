import BulkSync.Proofs.Contributions
import BulkSync.Proofs.Histories

namespace BulkSync

variable {M R : Type}

/-- Calls of a computing node that learned of aggregates what is published, and contributed under
declared keys only. -/
structure Informed (declared : List Aggregator) (published : Totals)
    (calls : List (Call (nodeSignature M))) : Prop where
  learned : ∀ key x, ⟨.aggregated key, x⟩ ∈ calls → x = Totals.value? key declared published
  gave : ∀ key, (∀ a ∈ declared, a.key ≠ key) → calls.flatMap (Call.gave key) = []

def Entry.Informed (declared : List Aggregator) (published : Totals) : Entry M R → Prop
  | .compute _ _ _ _ calls _ => BulkSync.Informed declared published calls
  | _ => True

theorem Informed.snoc {graph : Graph} {node : Nat} {op : NodeOp M} {x : op.Answer} {d e : Desk M}
    {calls : List (Call (nodeSignature M))}
    (h : Informed d.state.aggregates.declared d.state.aggregates.published calls)
    (hop : nodeHandler graph node op d = .ok x e) :
    Informed d.state.aggregates.declared d.state.aggregates.published (calls ++ [⟨op, x⟩]) where
  learned := by
    intro key y hy
    rcases List.mem_append.mp hy with hy | hy
    · exact h.learned key y hy
    · cases List.mem_singleton.mp hy
      cases hop
      rfl
  gave := by
    intro key hkey
    have hcall : Call.gave key ⟨op, x⟩ = [] := by
      cases op with
      | aggregate k y =>
        simp only [nodeHandler] at hop
        split at hop
        next partials hp =>
          obtain ⟨_, a, ha, rfl⟩ := Totals.contribute_length hp
          exact if_neg (hkey a ha)
        next => cases hop
      | _ => rfl
    rw [List.flatMap_append, h.gave key hkey, List.flatMap_singleton, hcall]
    rfl

theorem perform_informed (graph : Graph) (node : Nat) (p : NodeProgram M R) {d : Desk M} {r : R}
    (h : (p.perform (nodeHandler graph node) d).result = .ok r) :
    Informed d.state.aggregates.declared d.state.aggregates.published
      (p.perform (nodeHandler graph node) d).calls := by
  have hboth := perform_invariant (I := fun calls e => e.state.aggregates = d.state.aggregates ∧
    Informed d.state.aggregates.declared d.state.aggregates.published calls) ?_ p
    ⟨rfl, by simp, by simp⟩ h
  · exact hboth.2
  · rintro calls e op x e' ⟨hsame, hcalls⟩ hop
    refine ⟨(nodeHandler_ok hop).aggregates.trans hsame, ?_⟩
    rw [← hsame] at hcalls ⊢
    exact hcalls.snoc hop

theorem Visited.informed {engine : Engine M R} {superstep task node : Nat} {d e : Desk M}
    {new : List (Entry M R)} (h : Visited engine superstep task node d new e) :
    ∀ x ∈ new, x.Informed d.state.aggregates.declared d.state.aggregates.published := by
  cases h with
  | asleep => simp
  | @awake slot woken inits begun calls r e delivered due wake init compute =>
    obtain ⟨_, _, haggregates, _, _, hinits⟩ := init.ownPerformed
    rw [State.woken_aggregates] at haggregates
    have hp := perform_informed engine.graph node (engine.computation.compute
      ⟨node, superstep, engine.graph.nodes⟩ ⟨slot.toList⟩) (d := ⟨begun, d.tally⟩) (by rw [compute])
    rw [compute, haggregates] at hp
    intro x hx
    rcases List.mem_append.mp hx with hx | hx
    · obtain ⟨calls, result, rfl⟩ := hinits x hx
      trivial
    · rw [List.mem_singleton.mp hx]
      exact hp

/-- In a whole superstep nodes learn what was published when it began. -/
theorem Played.informed {engine : Engine M R} {superstep : Nat} {begun round : Round M R}
    {moves : List Move} {es : List (Entry M R)}
    (h : Played engine superstep begun moves es round) :
    ∀ x ∈ es, x.Informed begun.state.aggregates.declared begun.state.aggregates.published := by
  induction h with
  | start => simp
  | @visit moves es round task node tally new e journal played found working visited written ih =>
    have hfits := played.effect.fits
    intro x hx
    rcases List.mem_append.mp hx with hx | hx
    · exact ih x hx
    · have hnew := visited.informed x hx
      rwa [hfits.declared, hfits.published] at hnew
  | finish _ _ _ _ ih => exact ih

/-- What a journal tells of the aggregates at a boundary. -/
structure Visible (engine : Engine M R) (schedule : Schedule) (p : Progress M R) : Prop where
  known : ∀ key, engine.totalBefore schedule p.stats.size key p.journal.toList =
    .ok (p.state.aggregates.value? key)
  parts : ∀ i < p.stats.size, ∀ key, ∃ parts total,
    engine.parts schedule i key p.journal.toList = .ok parts ∧
    parts.flatten.Perm (contributions i key p.journal.toList) ∧
    engine.total schedule i key p.journal.toList = .ok total
  undeclared : ∀ i key, (∀ a ∈ engine.computation.aggregators, a.key ≠ key) →
    contributions i key p.journal.toList = []
  computes : ∀ i task node messages calls report,
    .compute i task node messages calls report ∈ p.journal.toList →
    ∀ key x, ⟨.aggregated key, x⟩ ∈ calls →
      engine.totalBefore schedule i key p.journal.toList = .ok x
  masters : ∀ i calls report, .master i calls report ∈ p.journal.toList → i < p.stats.size ∧
    ∀ key x, ⟨.aggregated key, x⟩ ∈ calls → engine.total schedule i key p.journal.toList = .ok x

section Stepping

variable {engine : Engine M R} {delivery : Delivery M} {schedule : Schedule} {p q : Progress M R}
  {partitions : List Partition} {es : List (Entry M R)} {round : Round M R}
  {calls : List (Call masterSignature)} {stop : Bool} {report : R}

theorem Stepped.informed (hs : Settled engine delivery p)
    (h : Stepped engine schedule p partitions es round calls stop report q) :
    ∀ x ∈ es, x.Informed engine.computation.aggregators p.state.aggregates.published := by
  rw [← hs.declared]
  exact h.played.informed

theorem Stepped.undeclared (hs : Settled engine delivery p)
    (h : Stepped engine schedule p partitions es round calls stop report q) {key : String}
    (hkey : ∀ a ∈ engine.computation.aggregators, a.key ≠ key) :
    contributions p.stats.size key q.journal.toList = [] := by
  rw [h.contributions_eq hs, List.flatMap_eq_nil_iff]
  intro x hx
  have hinformed := h.informed hs x hx
  cases x with
  | compute i task node messages calls result => exact hinformed.gave key hkey
  | _ => rfl

end Stepping

/-- The end of a run tells nothing of aggregates. -/
theorem Visible.close {engine : Engine M R} {schedule : Schedule} {p : Progress M R}
    (h : Visible engine schedule p) :
    Visible engine schedule { p with journal := p.journal.push .close } := by
  have htotal : ∀ i key, engine.total schedule i key (p.journal.push .close).toList =
      engine.total schedule i key p.journal.toList := fun i key => by
    rw [Array.toList_push, total_after (after_close (i + 1)) (Nat.lt_succ_self i)]
  have hbefore : ∀ i key, engine.totalBefore schedule i key (p.journal.push .close).toList =
      engine.totalBefore schedule i key p.journal.toList := fun i key => by
    rw [Array.toList_push, totalBefore_after (after_close i) (Nat.le_refl i)]
  have hgave : ∀ i key, contributions i key (p.journal.push .close).toList =
      contributions i key p.journal.toList := fun i key => by
    rw [Array.toList_push, contributions_after (after_close (i + 1)) (Nat.lt_succ_self i)]
  have hentry : ∀ x ∈ (p.journal.push .close).toList, x ≠ .close → x ∈ p.journal.toList := by
    intro x hx hne
    rw [Array.toList_push] at hx
    rcases List.mem_append.mp hx with hx | hx
    · exact hx
    · exact absurd (List.mem_singleton.mp hx) hne
  exact {
    known := fun key => (hbefore _ key).trans (h.known key)
    parts := by
      intro i hi key
      rw [htotal, hgave, Array.toList_push, parts_after (after_close (i + 1)) (Nat.lt_succ_self i)]
      exact h.parts i hi key
    undeclared := fun i key hkey => (hgave i key).trans (h.undeclared i key hkey)
    computes := by
      intro i task node messages calls report hx key x hcall
      have hlearned := h.computes _ _ _ _ _ _ (hentry _ hx (by simp)) key x hcall
      exact (hbefore i key).trans hlearned
    masters := by
      intro i calls report hx
      obtain ⟨hlt, hlearned⟩ := h.masters i calls report (hentry _ hx (by simp))
      exact ⟨hlt, fun key x hcall => (htotal i key).trans (hlearned key x hcall)⟩ }

end BulkSync
