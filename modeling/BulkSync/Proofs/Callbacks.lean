import BulkSync.Proofs.HaltBits
import BulkSync.Proofs.Operations
import BulkSync.Proofs.VisitEffects

namespace BulkSync

variable {M : Type} {engine : Engine M Unit} {superstep node : Nat} {s : Scalar} {key : String}
  {first current : s.Number} {t t' : State M} {inits : List (Entry M Unit)}

/-- A node whose first callback writes a number has it in superstep 0, and keeps what it has
later. -/
theorem Initialized.read_ok
    (hinit : engine.computation.init node engine.graph.nodes = OwnProgram.writeNumber s key first)
    (h : Initialized engine superstep node t inits t') (hfirst : superstep = 0 → current = first)
    (hlater : superstep ≠ 0 → t.values.read s key node = .ok (s.ofNumber current)) :
    t'.values.read s key node = .ok (s.ofNumber current) ∧ inits.flatMap Entry.raised = [] := by
  cases h with
  | later h0 => exact ⟨hlater h0, rfl⟩
  | first h0 init =>
    obtain rfl := hfirst h0
    rw [hinit] at init
    obtain ⟨x, hop, rfl, -⟩ := perform_call_ok_iff.mp init
    simp only [ownHandler] at hop
    split at hop
    next values hw =>
      cases hop
      exact ⟨ValueStore.read_write hw, rfl⟩
    next => cases hop

/-- A cell that the store admits can be written by the first callback. -/
theorem Initialized.exists
    (hinit : engine.computation.init node engine.graph.nodes = OwnProgram.writeNumber s key first)
    (hadmits : superstep = 0 → t.values.admits s key node = .ok ()) :
    ∃ inits t', Initialized engine superstep node t inits t' := by
  by_cases h0 : superstep = 0
  · obtain ⟨values, hw⟩ : ∃ values, t.values.write s key node (s.ofNumber first) = .ok () values :=
      ⟨_, ValueStore.write_of_admits (hadmits h0) _⟩
    have hperform : (engine.computation.init node engine.graph.nodes).perform
        (ownHandler engine.graph node) t =
          ⟨{ t with values }, [⟨.write s key (s.ofNumber first), ()⟩], .ok ()⟩ := by
      rw [hinit]
      refine perform_call_ok_iff.mpr ⟨(), ?_, rfl, rfl⟩
      simp only [ownHandler, hw]
    exact ⟨_, _, .first h0 hperform⟩
  · exact ⟨_, _, .later h0⟩

/-- Nothing but its callbacks keeps a node from being visited. -/
theorem visited_of_callbacks {d : Desk M} {slot : Array M} (hsound : d.state.halted.Sound)
    (hnode : node < d.state.halted.nodes)
    (hslot : d.state.mail.delivered[node]? = some slot)
    (callbacks : ∀ woken, d.state.halted.wake node = .ok () woken → ∃ inits begun e calls,
      Initialized engine superstep node (d.state.woken node woken) inits begun ∧
      (engine.computation.compute ⟨node, superstep, engine.graph.nodes⟩ ⟨slot.toList⟩).perform
        (nodeHandler engine.graph node) ⟨begun, d.tally⟩ = ⟨e, calls, .ok ()⟩) (task : Nat) :
    ∃ new e, Visited engine superstep task node d new e := by
  have hhalted := HaltSet.isHalted_eq_bit hsound hnode
  by_cases hasleep : superstep ≠ 0 ∧ (d.state.halted.bit node && slot.toList.isEmpty) = true
  · obtain ⟨hlater, hand⟩ := hasleep
    obtain ⟨hbit, hempty⟩ := Bool.and_eq_true_iff.mp hand
    rw [hbit] at hhalted
    exact ⟨_, _, .asleep hlater hslot (List.isEmpty_iff.mp hempty) hhalted⟩
  · have hdue : superstep ≠ 0 → ∃ halted, d.state.halted.isHalted node = .ok halted ∧
        (halted && slot.toList.isEmpty) = false := by
      intro hlater
      exact ⟨_, hhalted, Bool.eq_false_iff.mpr fun hand => hasleep ⟨hlater, hand⟩⟩
    obtain ⟨woken, hwake⟩ : ∃ woken, d.state.halted.wake node = .ok () woken :=
      ⟨_, HaltSet.update_exists _ hsound hnode⟩
    obtain ⟨inits, begun, e, calls, hinit, hcompute⟩ := callbacks woken hwake
    exact ⟨_, _, .awake hslot hdue hwake hinit hcompute⟩

end BulkSync
