import BulkSync.Proofs.StorePlaces
import BulkSync.Proofs.Visits

namespace BulkSync

variable {M R : Type}

/-- A slot after messages have been put into it one after the other. -/
def Delivery.fill (delivery : Delivery M) (sent : List M) (slot : Array M) : Array M :=
  sent.foldl (fun slot m => Outcome.state (delivery.deposit m slot)) slot

theorem Delivery.fill_nil (delivery : Delivery M) (slot : Option (Array M)) :
    slot.map (delivery.fill []) = slot := by
  cases slot <;> rfl

/-- A mailroom in which messages may have been sent to anyone, and taken by one node only. -/
structure Mailroom.Confined (node : Nat) (room next : Mailroom M) : Prop where
  delivery : next.delivery = room.delivery
  delivered : ∀ other, other ≠ node → next.delivered[other]? = room.delivered[other]?
  pending : ∀ v : Nat, ∃ sent : List M,
    next.pending[v]? = room.pending[v]?.map (room.delivery.fill sent)

/-- A halt set in which only one node may have changed. -/
structure HaltSet.Confined (node : Nat) (set next : HaltSet) : Prop where
  nodes : next.nodes = set.nodes
  size : next.words.size = set.words.size
  bit : ∀ other, other ≠ node → next.bit other = set.bit other

/-- Totals to which contributions may have been made. -/
def Totals.Fed (declared : List Aggregator) (totals next : Totals) : Prop :=
  ∃ given : List (String × Float),
    given.foldlM (fun totals (key, x) => Totals.contribute key x declared totals) totals = .ok next

/-- All that the callbacks of a node may do to the values, the halt bits, the messages and the
aggregates. -/
structure Desk.Confined (node : Nat) (d e : Desk M) : Prop where
  values : ∀ other, other ≠ node → d.state.values.AgreeAt other e.state.values
  halted : d.state.halted.Confined node e.state.halted
  mail : d.state.mail.Confined node e.state.mail
  aggregates : e.state.aggregates = d.state.aggregates
  partials : Totals.Fed d.state.aggregates.declared d.tally.partials e.tally.partials

namespace Mailroom.Confined

theorem refl (node : Nat) (room : Mailroom M) : room.Confined node room :=
  ⟨rfl, fun _ _ => rfl, fun _ => ⟨[], (room.delivery.fill_nil _).symm⟩⟩

theorem trans {node : Nat} {a b c : Mailroom M} (hab : a.Confined node b)
    (hbc : b.Confined node c) : a.Confined node c where
  delivery := hbc.delivery.trans hab.delivery
  delivered other hne := (hbc.delivered other hne).trans (hab.delivered other hne)
  pending v := by
    obtain ⟨first, hfirst⟩ := hab.pending v
    obtain ⟨later, hlater⟩ := hbc.pending v
    refine ⟨first ++ later, ?_⟩
    rw [hlater, hfirst, hab.delivery, Option.map_map]
    exact congrArg (Option.map · _) (funext fun _ => List.foldl_append.symm)

theorem send (node target : Nat) (m : M) (room : Mailroom M) :
    room.Confined node (Outcome.state (room.send target m)) := by
  unfold Mailroom.send
  split
  next => exact .refl node room
  next slot hslot =>
    have hlt : target < room.pending.size := (Array.getElem?_eq_some_iff.mp hslot).1
    have hpending : ∀ v : Nat, ∃ sent : List M,
        ((room.pending.setIfInBounds target #[]).setIfInBounds target
          (Outcome.state (room.delivery.deposit m slot)))[v]? =
            room.pending[v]?.map (room.delivery.fill sent) := by
      intro v
      by_cases hv : target = v
      · subst hv
        refine ⟨[m], ?_⟩
        rw [Array.getElem?_setIfInBounds_self_of_lt (by simpa using hlt), hslot]
        rfl
      · refine ⟨[], ?_⟩
        rw [Array.getElem?_setIfInBounds_ne hv, Array.getElem?_setIfInBounds_ne hv,
          room.delivery.fill_nil]
    cases hdeposit : room.delivery.deposit m slot with
    | ok _ slot' =>
      rw [hdeposit] at hpending
      exact ⟨rfl, fun _ _ => rfl, hpending⟩
    | error _ slot' =>
      rw [hdeposit] at hpending
      exact ⟨rfl, fun _ _ => rfl, hpending⟩

theorem sendAll (node : Nat) (m : M) (targets : List Nat) (room : Mailroom M) :
    room.Confined node (Outcome.state (room.sendAll m targets)) := by
  induction targets generalizing room with
  | nil => exact .refl node room
  | cons target rest ih =>
    have hfirst := Confined.send node target m room
    unfold Mailroom.sendAll
    cases hsend : room.send target m with
    | error f next =>
      rw [hsend] at hfirst
      exact hfirst
    | ok _ next =>
      rw [hsend] at hfirst
      exact hfirst.trans (ih next)

end Mailroom.Confined

namespace HaltSet

theorem Confined.refl (node : Nat) (set : HaltSet) : set.Confined node set :=
  ⟨rfl, rfl, fun _ _ => rfl⟩

theorem Confined.trans {node : Nat} {a b c : HaltSet} (hab : a.Confined node b)
    (hbc : b.Confined node c) : a.Confined node c :=
  ⟨hbc.nodes.trans hab.nodes, hbc.size.trans hab.size,
    fun other hne => (hbc.bit other hne).trans (hab.bit other hne)⟩

theorem update_error {set next : HaltSet} {f : UInt64 → UInt64} {node : Nat} {fault : Fault}
    (h : set.update f node = .error fault next) : next = set := by
  unfold update at h
  split at h
  · split at h <;> cases h
    rfl
  · cases h
    rfl

theorem halt_confined {set next : HaltSet} {node : Nat} (h : set.halt node = .ok () next) :
    set.Confined node next := by
  obtain ⟨_, _, hnext⟩ := update_ok h
  refine ⟨by rw [hnext], by rw [hnext]; exact Array.size_modify .., fun other hne => ?_⟩
  rw [halt_bit h, decide_eq_false hne, Bool.or_false]

theorem wake_confined {set next : HaltSet} {node : Nat} (h : set.wake node = .ok () next) :
    set.Confined node next := by
  obtain ⟨_, _, hnext⟩ := update_ok h
  refine ⟨by rw [hnext], by rw [hnext]; exact Array.size_modify .., fun other hne => ?_⟩
  rw [wake_bit h]
  simp [hne]

theorem isHalted_eq (node : Nat) (set : HaltSet) : set.isHalted node =
    if node < set.nodes then
      if node / 64 < set.words.size then .ok (set.bit node) else .error .outOfBounds
    else .error (.nodeRange node set.nodes) := by
  unfold isHalted
  split
  next =>
    split
    next word hword =>
      rw [if_pos (Array.getElem?_eq_some_iff.mp hword).1, and_nodeBit_ne_zero, bit, hword]
    next hnone => rw [if_neg (Nat.not_lt.mpr (Array.getElem?_eq_none_iff.mp hnone))]
  next => rfl

theorem Confined.isHalted {node other : Nat} {set next : HaltSet} (h : set.Confined node next)
    (hne : other ≠ node) : next.isHalted other = set.isHalted other := by
  rw [isHalted_eq, isHalted_eq, h.nodes, h.size, h.bit other hne]

end HaltSet

theorem Totals.Fed.refl (declared : List Aggregator) (totals : Totals) :
    Totals.Fed declared totals totals :=
  ⟨[], rfl⟩

theorem Totals.Fed.trans {declared : List Aggregator} {a b c : Totals}
    (hab : Totals.Fed declared a b) (hbc : Totals.Fed declared b c) :
    Totals.Fed declared a c := by
  obtain ⟨first, hfirst⟩ := hab
  obtain ⟨later, hlater⟩ := hbc
  refine ⟨first ++ later, ?_⟩
  rw [List.foldlM_append, hfirst]
  exact hlater

theorem ValueStore.set_frame {s t : ValueStore} {key : String} {node other : Nat} {value : Value}
    (hne : other ≠ node) (h : s.set key node value = .ok () t) : s.AgreeAt other t := by
  cases value with
  | single sc x => exact write_frame hne h
  | array sc xs => exact writeArray_frame hne h

namespace Desk.Confined

theorem refl (node : Nat) (d : Desk M) : d.Confined node d where
  values other _ := .refl other _
  halted := .refl node _
  mail := .refl node _
  aggregates := rfl
  partials := .refl _ _

theorem trans {node : Nat} {a b c : Desk M} (hab : a.Confined node b) (hbc : b.Confined node c) :
    a.Confined node c where
  values other hne := (hab.values other hne).trans (hbc.values other hne)
  halted := hab.halted.trans hbc.halted
  mail := hab.mail.trans hbc.mail
  aggregates := hbc.aggregates.trans hab.aggregates
  partials := by
    have hlater := hbc.partials
    rw [hab.aggregates] at hlater
    exact hab.partials.trans hlater

theorem of_values {node : Nat} {values : ValueStore} (d : Desk M)
    (h : ∀ other, other ≠ node → d.state.values.AgreeAt other values) :
    d.Confined node { d with state := { d.state with values } } :=
  ⟨h, .refl node _, .refl node _, rfl, .refl _ _⟩

theorem of_unchanged {α : Type} {node : Nat} (result : Except Fault α) (d : Desk M) :
    d.Confined node (Outcome.state (unchanged result d)) := by
  cases result <;> exact .refl node d

/-- What a node does to itself is confined, whether it faults or not. -/
theorem ownHandler (graph : Graph) (node : Nat) (op : OwnOp) (s : State M) (tally : Tally) :
    Desk.Confined node ⟨s, tally⟩ ⟨Outcome.state (ownHandler graph node op s), tally⟩ := by
  have hunchanged : ∀ {α : Type} (result : Except Fault α),
      Desk.Confined node ⟨s, tally⟩ ⟨Outcome.state (unchanged result s), tally⟩ := by
    intro α result
    cases result <;> exact .refl node _
  cases op with
  | read sc key => exact hunchanged _
  | readArray sc key => exact hunchanged _
  | degree => exact hunchanged _
  | write sc key x =>
    simp only [BulkSync.ownHandler]
    cases h : s.values.write sc key node x with
    | ok _ values => exact .of_values ⟨s, tally⟩ fun _ hne => ValueStore.write_frame hne h
    | error f values =>
      cases ValueStore.set_error (.single sc x) h
      exact .refl node _
  | writeArray sc key xs =>
    simp only [BulkSync.ownHandler]
    cases h : s.values.writeArray sc key node xs with
    | ok _ values => exact .of_values ⟨s, tally⟩ fun _ hne => ValueStore.writeArray_frame hne h
    | error f values =>
      cases ValueStore.set_error (.array sc xs) h
      exact .refl node _
  | raise signal => exact ⟨fun other _ => .refl other _, .refl node _, .refl node _, rfl, .refl _ _⟩

theorem sendAll (node : Nat) (m : M) (targets : List Nat) (d : Desk M) :
    d.Confined node (Outcome.state (d.sendAll m targets)) := by
  have hmail := Mailroom.Confined.sendAll node m targets d.state.mail
  unfold Desk.sendAll
  cases hsend : d.state.mail.sendAll m targets with
  | error f mail =>
    rw [hsend] at hmail
    exact ⟨fun other _ => .refl other _, .refl node _, hmail, rfl, .refl _ _⟩
  | ok _ mail =>
    rw [hsend] at hmail
    dsimp only
    unfold Desk.countSent
    split <;> exact ⟨fun other _ => .refl other _, .refl node _, hmail, rfl, .refl _ _⟩

/-- What a computing node does is confined, whether it faults or not. -/
theorem nodeHandler (graph : Graph) (node : Nat) (op : NodeOp M) (d : Desk M) :
    d.Confined node (Outcome.state (nodeHandler graph node op d)) := by
  cases op with
  | own op =>
    have hown := Confined.ownHandler graph node op d.state d.tally
    simp only [BulkSync.nodeHandler]
    cases h : BulkSync.ownHandler graph node op d.state with
    | ok x state => rw [h] at hown; exact hown
    | error f state => rw [h] at hown; exact hown
  | readOf sc key other => exact .of_unchanged _ d
  | neighbors => exact .of_unchanged _ d
  | send target m => exact .sendAll node m [target] d
  | sendNeighbors m =>
    simp only [BulkSync.nodeHandler]
    cases graph.neighbors node with
    | error f => exact .refl node d
    | ok targets =>
      have hsend := Confined.sendAll node m targets d
      dsimp only
      cases h : d.sendAll m targets with
      | ok _ e => rw [h] at hsend; exact hsend
      | error f e => rw [h] at hsend; exact hsend
  | vote =>
    simp only [BulkSync.nodeHandler]
    cases h : d.state.halted.halt node with
    | ok _ halted =>
      exact ⟨fun other _ => .refl other _, HaltSet.halt_confined h, .refl node _, rfl, .refl _ _⟩
    | error f halted =>
      cases HaltSet.update_error h
      exact .refl node d
  | aggregate key x =>
    simp only [BulkSync.nodeHandler]
    cases h : Totals.contribute key x d.state.aggregates.declared d.tally.partials with
    | ok partials =>
      refine ⟨fun other _ => .refl other _, .refl node _, .refl node _, rfl, [(key, x)], ?_⟩
      rw [List.foldlM_cons]
      exact bind_eq_ok_iff.mpr ⟨partials, h, rfl⟩
    | error f => exact .refl node d
  | aggregated key => exact .refl node d

theorem perform (graph : Graph) (node : Nat) (p : NodeProgram M R) (d : Desk M) :
    d.Confined node (p.perform (BulkSync.nodeHandler graph node) d).state := by
  refine perform_always (I := fun _ e => d.Confined node e) ?_ ?_ p (.refl node d)
  · intro _ e op x e' he hop
    have hstep := Confined.nodeHandler graph node op e
    rw [hop] at hstep
    exact he.trans hstep
  · intro _ e op f e' he hop
    have hstep := Confined.nodeHandler graph node op e
    rw [hop] at hstep
    exact he.trans hstep

theorem perform_own (graph : Graph) (node : Nat) (p : OwnProgram R) (d : Desk M) :
    d.Confined node
      { d with state := (p.perform (BulkSync.ownHandler graph node) d.state).state } := by
  refine perform_always (I := fun _ t => d.Confined node { d with state := t }) ?_ ?_ p
    (.refl node d)
  · intro _ t op x u ht hop
    have hstep := Confined.ownHandler graph node op t d.tally
    rw [hop] at hstep
    exact ht.trans hstep
  · intro _ t op f u ht hop
    have hstep := Confined.ownHandler graph node op t d.tally
    rw [hop] at hstep
    exact ht.trans hstep

end Desk.Confined

end BulkSync
