import BulkSync.Proofs.Chronicle
import BulkSync.Proofs.Passages

namespace BulkSync

variable {M R : Type}

/-- What comes before a node computes: in superstep 0 it initializes itself. -/
inductive Opening (superstep node : Nat) : List (Entry M R) → Prop
  | first {calls result} (h : superstep = 0) : Opening superstep node [.init node calls result]
  | later (h : superstep ≠ 0) : Opening superstep node []

/-- The callbacks of a node in a superstep, as they follow from what happened before it. -/
inductive NodeTurn (delivery : Delivery M) (superstep node : Nat) (old : List (Entry M R)) :
    List (Entry M R) → Prop
  | skipped (later : superstep ≠ 0) (halted : votedBefore superstep node old = true)
      (silent : messagesBefore superstep node old = []) :
      NodeTurn delivery superstep node old []
  | computed {task messages inits calls result}
      (due : superstep = 0 ∨ votedBefore superstep node old = false ∨
        messagesBefore superstep node old ≠ [])
      (delivers : delivery.Delivers (messagesBefore superstep node old) messages.waiting)
      (opening : Opening superstep node inits) :
      NodeTurn delivery superstep node old
        (inits ++ [.compute superstep task node messages calls result])

theorem Initialized.opening {engine : Engine M R} {superstep node : Nat} {s t : State M}
    {inits : List (Entry M R)} (h : Initialized engine superstep node s inits t) :
    Opening superstep node inits := by
  cases h with
  | later h => exact .later h
  | first h => exact .first h

/-- A visit is a turn of the node, if the state agrees with what happened before. -/
theorem Visited.turn {engine : Engine M R} {superstep task node : Nat} {d e : Desk M}
    {new old : List (Entry M R)} {delivery : Delivery M}
    (h : Visited engine superstep task node d new e) (hs : d.state.halted.Sound)
    (hn : node < d.state.halted.nodes)
    (hb : d.state.halted.bit node = votedBefore superstep node old)
    (hd : ∀ slot, d.state.mail.delivered[node]? = some slot →
      delivery.Delivers (messagesBefore superstep node old) slot.toList) :
    NodeTurn delivery superstep node old new := by
  have hhalted := HaltSet.isHalted_eq_bit hs hn
  rw [hb] at hhalted
  cases h with
  | asleep later delivered silent halted =>
    rw [hhalted] at halted
    exact .skipped later (Except.ok.inj halted) ((hd _ delivered).eq_nil_iff.mp silent)
  | @awake slot woken inits begun calls r e delivered due wake init compute =>
    refine .computed ?_ (hd slot delivered) init.opening
    by_cases h0 : superstep = 0
    · exact .inl h0
    · obtain ⟨halted, hh, hand⟩ := due h0
      rw [hhalted] at hh
      cases Except.ok.inj hh
      rcases Bool.and_eq_false_iff.mp hand with hv | he
      · exact .inr (.inl hv)
      · refine .inr (.inr fun hm => ?_)
        rw [(hd slot delivered).eq_nil_iff.mpr hm] at he
        cases he

theorem ownEntries_superstep {node i : Nat} (new : List (Entry M R)) :
    new.filter (fun x => x.node? == some node && x.superstep?.any (· < i)) =
      (ownEntries node new).filter fun x => x.superstep?.any (· < i) := by
  rw [ownEntries, withKey, List.filter_filter]
  exact List.filter_congr fun x _ => Bool.and_comm _ _

theorem computeCount_ownEntries (i node : Nat) (new : List (Entry M R)) :
    computeCount i node new = computeCount i node (ownEntries node new) := by
  unfold computeCount ownEntries withKey
  rw [List.countP_filter]
  refine List.countP_congr fun x _ => ?_
  simp only [Entry.isCompute, Bool.and_eq_true]
  exact ⟨fun h => ⟨h, h.2⟩, fun h => h.1⟩

theorem Opening.silent {superstep node : Nat} {inits : List (Entry M R)}
    (h : Opening superstep node inits) : ∀ x ∈ inits, x.superstep? = none ∧ x.voted = false := by
  cases h with
  | first => intro x hx; rw [List.mem_singleton.mp hx]; exact ⟨rfl, rfl⟩
  | later => simp

section Turns

variable {delivery : Delivery M} {superstep node : Nat} {old new : List (Entry M R)}

/-- A node computes once, if it is superstep 0, or the node did not vote when it computed last,
or a message was sent to it; otherwise it does not compute. -/
theorem NodeTurn.count (h : NodeTurn delivery superstep node old (ownEntries node new)) :
    computeCount superstep node new =
      if superstep = 0 ∨ votedBefore superstep node old = false ∨
        messagesBefore superstep node old ≠ [] then 1 else 0 := by
  rw [computeCount_ownEntries]
  generalize ownEntries node new = own at h
  cases h with
  | skipped later halted silent =>
    rw [if_neg (by simp [later, halted, silent])]
    rfl
  | @computed task messages inits calls result due delivers opening =>
    have hinits : computeCount superstep node inits = 0 :=
      computeCount_eq_zero fun x hx hs => by rw [(opening.silent x hx).1] at hs; cases hs
    rw [if_pos due, computeCount_append, hinits]
    simp [computeCount, Entry.isCompute, Entry.superstep?, Entry.node?]

/-- What is known of the vote of a node after its turn. -/
theorem NodeTurn.voted (h : NodeTurn delivery superstep node old (ownEntries node new))
    (hb : Before superstep old) :
    votedBefore (superstep + 1) node (old ++ new) =
      if ownEntries node new = [] then votedBefore superstep node old
      else (ownEntries node new).any Entry.voted := by
  rw [votedBefore_append, ownEntries_superstep, votedBefore_succ hb]
  generalize ownEntries node new = own at h
  cases h with
  | skipped => rfl
  | @computed task messages inits calls result due delivers opening =>
    have hinits : inits.filter (fun x => x.superstep?.any (· < superstep + 1)) = [] :=
      List.filter_eq_nil_iff.mpr fun x hx => by simp [(opening.silent x hx).1]
    have hvoted : inits.any Entry.voted = false :=
      List.any_eq_false.mpr fun x hx => by simp [(opening.silent x hx).2]
    rw [List.filter_append, hinits, List.any_append, hvoted]
    simp [Entry.superstep?]

end Turns

end BulkSync
