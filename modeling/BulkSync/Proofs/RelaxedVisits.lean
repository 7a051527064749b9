import BulkSync.Proofs.Callbacks
import BulkSync.Proofs.Relaxation

namespace BulkSync

namespace Relaxing

variable {s : Scalar} (r : Relaxing s)

/-- The number that a node is going to improve: in superstep 0 the one it starts with, and then the
one in its cell. -/
structure Due (superstep node : Nat) (values : ValueStore) (current : s.Number) : Prop where
  first : superstep = 0 → values.admits s r.key node = .ok () ∧ current = r.first node
  later : superstep ≠ 0 → values.read s r.key node = .ok (s.ofNumber current)

/-- What a node with these neighbors sent in a superstep. -/
structure Told (superstep : Nat) (heard : List s.Number) (current : s.Number) (row : List Nat)
    (new : List (Entry s.Number Unit)) : Prop where
  sentTo : ∀ node, new.flatMap (Entry.sentTo node) =
    if r.tells superstep heard current then
      .replicate (row.count node) (r.passed (r.best heard current)) else []
  sends : (new.map Entry.sends).sum = if r.tells superstep heard current then row.length else 0
  raised : new.flatMap Entry.raised = []

variable {r} {engine : Engine s.Number Unit} {superstep task node : Nat} {current : s.Number}
  {row : List Nat} {d e : Desk s.Number} {slot : Array s.Number} {new : List (Entry s.Number Unit)}

theorem Due.agree {values values' : ValueStore} (h : r.Due superstep node values current)
    (ha : values.AgreeAt node values') : r.Due superstep node values' current where
  first := fun h0 => by rw [← ha.admits]; exact h.first h0
  later := fun h0 => by rw [← ha.read]; exact h.later h0

theorem computation_init (hc : engine.computation = r.computation) (node nodes : Nat) :
    engine.computation.init node nodes = OwnProgram.writeNumber s r.key (r.first node) := by
  rw [hc]
  rfl

theorem Due.read_ok (hc : engine.computation = r.computation) {t t' : State s.Number}
    {inits : List (Entry s.Number Unit)} (hdue : r.Due superstep node t.values current)
    (h : Initialized engine superstep node t inits t') :
    t'.values.read s r.key node = .ok (s.ofNumber current) ∧ inits.flatMap Entry.raised = [] :=
  h.read_ok (computation_init hc _ _) (fun h0 => (hdue.first h0).2) hdue.later

/-- A visit leaves a node with the best it heard of, halted, and having told what it had to. -/
theorem visited (hc : engine.computation = r.computation)
    (hrow : engine.graph.neighbors node = .ok row) (hsound : d.state.halted.Sound)
    (hnode : node < d.state.halted.nodes)
    (hdue : r.Due superstep node d.state.values current)
    (hslot : d.state.mail.delivered[node]? = some slot)
    (hkeep : r.below (r.best slot.toList current) current = false →
      r.best slot.toList current = current)
    (hquiet : superstep ≠ 0 → r.tells superstep [] current = false)
    (h : Visited engine superstep task node d new e) :
    e.state.values.read s r.key node = .ok (s.ofNumber (r.best slot.toList current)) ∧
      e.state.halted.bit node = true ∧ r.Told superstep slot.toList current row new := by
  have hbit := h.effect.bit
  cases h with
  | asleep later delivered silent halted =>
    rw [hslot] at delivered
    cases delivered
    rw [HaltSet.isHalted_eq_bit hsound hnode] at halted
    rw [silent]
    refine ⟨hdue.later later, hbit.trans (Except.ok.inj halted), ?_, ?_, rfl⟩
    · intro other
      rw [hquiet later]
      rfl
    · rw [hquiet later]
      rfl
  | @awake slot' woken inits begun cs u e delivered due wake init compute =>
    rw [hslot] at delivered
    cases delivered
    obtain ⟨hread, hcalm⟩ := Due.read_ok (t := d.state.woken node woken) hc hdue init
    rw [hc] at compute
    obtain ⟨hbest, rfl⟩ := r.compute_ok (d := ⟨begun, d.tally⟩) hread hrow hkeep compute
    obtain ⟨-, -, -, -, -, hinits⟩ := init.ownPerformed
    obtain ⟨hnone, hsends, -⟩ := inits_silent hinits
    refine ⟨hbest, ?_, ?_, ?_, ?_⟩
    · rw [hbit, if_neg (by simp), List.any_append]
      simp [Entry.voted, calls_vote]
    · intro other
      rw [List.flatMap_append, hnone, ← r.calls_sentTo superstep slot.toList current row other]
      simp [Entry.sentTo]
    · rw [List.map_append, List.sum_append, hsends, ← r.calls_sends superstep slot.toList current]
      simp [Entry.sends]
    · rw [List.flatMap_append, hcalm, List.nil_append, List.flatMap_singleton]
      exact r.calls_raised superstep slot.toList current row

/-- Nothing keeps a node from improving its number and telling its neighbors. -/
theorem visit_exists (hc : engine.computation = r.computation)
    (hrow : engine.graph.neighbors node = .ok row) (hsound : d.state.halted.Sound)
    (hnode : node < d.state.halted.nodes)
    (hdue : r.Due superstep node d.state.values current)
    (hslot : d.state.mail.delivered[node]? = some slot) (htotal : d.state.mail.delivery.Total)
    (htargets : ∀ target ∈ row, target < d.state.mail.pending.size)
    (hroom : d.tally.sent + row.length < countLimit) (task : Nat) :
    ∃ new e, Visited engine superstep task node d new e := by
  refine visited_of_callbacks hsound hnode hslot (fun woken hwake => ?_) task
  obtain ⟨hwoken, hnodes⟩ := HaltSet.wake_sound hsound hwake
  obtain ⟨inits, begun, hinit⟩ := Initialized.exists (t := d.state.woken node woken)
    (computation_init hc _ _) fun h0 => (hdue.first h0).1
  obtain ⟨hread, -⟩ := Due.read_ok (t := d.state.woken node woken) hc hdue hinit
  obtain ⟨hmail, hhalted, -⟩ := hinit.ownPerformed
  have hsend : ∀ m, ∃ mail, begun.mail.sendAll m row = .ok () mail :=
    Mailroom.sendAll_total (by rw [hmail]; exact htotal) (by rw [hmail]; exact htargets)
  obtain ⟨e, cs, hperform⟩ := r.compute_exists engine.graph superstep slot.toList
    (d := ⟨begun, d.tally⟩) hread hrow (by rw [hhalted]; exact hwoken)
    (by rw [hhalted]; exact hnodes ▸ hnode) hsend hroom
  rw [← hc] at hperform
  exact ⟨inits, begun, e, cs, hinit, hperform⟩

end Relaxing

end BulkSync
