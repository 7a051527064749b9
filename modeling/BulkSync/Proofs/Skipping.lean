import BulkSync.Proofs.Confinement
import BulkSync.Proofs.Supersteps

namespace BulkSync

variable {M R : Type}

/-- Two states that hold the same values and the same halt bit for a node. -/
structure State.Spares (node : Nat) (s t : State M) : Prop where
  values : s.values.AgreeAt node t.values
  halted : t.halted.isHalted node = s.halted.isHalted node

/-- All that a task may do while it visits a node: what the callbacks of the node may do, and
write those callbacks down. -/
structure Work.Confined (node : Nat) (work next : Work M R) : Prop where
  desk : work.desk.Confined node next.desk
  journal : ∃ new, next.journal.toList = work.journal.toList ++ new ∧
    ∀ x ∈ new, x.node? = some node

theorem State.Spares.refl (node : Nat) (s : State M) : s.Spares node s :=
  ⟨.refl node _, rfl⟩

theorem State.Spares.trans {node : Nat} {s t u : State M} (hst : s.Spares node t)
    (htu : t.Spares node u) : s.Spares node u :=
  ⟨hst.values.trans htu.values, htu.halted.trans hst.halted⟩

theorem Desk.Confined.spares {node other : Nat} {d e : Desk M} (h : d.Confined node e)
    (hne : other ≠ node) : d.state.Spares other e.state :=
  ⟨h.values other hne, h.halted.isHalted hne⟩

theorem Desk.Confined.taken (node : Nat) (d : Desk M) :
    d.Confined node { d with state := d.state.taken node } where
  values other _ := .refl other _
  halted := .refl node _
  mail := {
    delivery := rfl
    delivered := fun _ hne => Array.getElem?_setIfInBounds_ne (Ne.symm hne)
    pending := (Mailroom.Confined.refl node d.state.mail).pending }
  aggregates := rfl
  partials := .refl _ _

namespace Work.Confined

theorem refl (node : Nat) (work : Work M R) : work.Confined node work :=
  ⟨.refl node _, [], by simp, by simp⟩

theorem trans {node : Nat} {a b c : Work M R} (hab : a.Confined node b)
    (hbc : b.Confined node c) : a.Confined node c := by
  obtain ⟨first, hfirst, hfirstNodes⟩ := hab.journal
  obtain ⟨later, hlater, hlaterNodes⟩ := hbc.journal
  refine ⟨hab.desk.trans hbc.desk, first ++ later, ?_, ?_⟩
  · rw [hlater, hfirst, List.append_assoc]
  · exact List.forall_mem_append.mpr ⟨hfirstNodes, hlaterNodes⟩

theorem size_le {node : Nat} {work next : Work M R} (h : work.Confined node next) :
    work.journal.size ≤ next.journal.size := by
  obtain ⟨new, hnew, _⟩ := h.journal
  have hlength := congrArg List.length hnew
  rw [List.length_append, Array.length_toList, Array.length_toList] at hlength
  omega

theorem of_desk {node : Nat} (work : Work M R) {desk : Desk M}
    (h : work.desk.Confined node desk) : work.Confined node { work with desk } :=
  ⟨h, [], by simp, by simp⟩

theorem of_push {node : Nat} {work : Work M R} {desk : Desk M} {entry : Entry M R}
    (h : work.desk.Confined node desk) (hentry : entry.node? = some node) :
    work.Confined node ⟨desk, work.journal.push entry⟩ :=
  ⟨h, [entry], Array.toList_push, by simpa using hentry⟩

theorem take (node : Nat) (work : Work M R) :
    let next := Outcome.state (work.take node)
    work.Confined node next ∧ work.desk.state.Spares node next.desk.state := by
  cases htake : work.take node with
  | ok messages taken =>
    obtain ⟨slot, _, _, rfl⟩ := work_take_ok htake
    exact ⟨.of_desk work (.taken node work.desk), .refl node work.desk.state.values, rfl⟩
  | error f taken =>
    have hsame : taken = work := by
      simp only [Work.take, Mailroom.take] at htake
      cases hslot : work.desk.state.mail.delivered[node]? with
      | none => rw [hslot] at htake; cases htake; rfl
      | some slot => rw [hslot] at htake; cases htake
    rw [hsame]
    exact ⟨.refl node work, .refl node _⟩

theorem wake {node : Nat} {work woken : Work M R} (h : work.wake node = .ok () woken) :
    work.Confined node woken := by
  obtain ⟨halted, hwake, rfl⟩ := work_wake_ok h
  exact .of_desk work ⟨fun other _ => .refl other _, HaltSet.wake_confined hwake, .refl node _,
    rfl, .refl _ _⟩

theorem init (engine : Engine M R) (node : Nat) (work : Work M R) :
    let next := Outcome.state (work.init engine node)
    work.Confined node next ∧ work.journal.size < next.journal.size := by
  have hdesk := Desk.Confined.perform_own engine.graph node
    (engine.computation.init node engine.graph.nodes) work.desk
  unfold Work.init
  dsimp only
  split <;> exact ⟨.of_push hdesk rfl, by simp [Outcome.state]⟩

theorem compute (engine : Engine M R) (superstep task node : Nat) (messages : Messages M)
    (work : Work M R) :
    let next := Outcome.state (work.compute engine superstep task node messages)
    work.Confined node next ∧ work.journal.size < next.journal.size := by
  have hdesk := Desk.Confined.perform engine.graph node
    (engine.computation.compute ⟨node, superstep, engine.graph.nodes⟩ messages) work.desk
  unfold Work.compute
  dsimp only
  split
  next =>
    refine ⟨.of_push ?_ rfl, by simp [Outcome.state]⟩
    exact ⟨hdesk.values, hdesk.halted, hdesk.mail, hdesk.aggregates, hdesk.partials⟩
  next => exact ⟨.of_push hdesk rfl, by simp [Outcome.state]⟩

end Work.Confined

theorem work_wake_error {node : Nat} {work woken : Work M R} {f : Fault}
    (h : work.wake node = .error f woken) : woken = work := by
  simp only [Work.wake] at h
  cases hwake : work.desk.state.halted.wake node with
  | ok _ halted =>
    rw [hwake] at h
    cases h
  | error g halted =>
    rw [hwake] at h
    cases HaltSet.update_error hwake
    cases h
    rfl

/-- Whether it faults or not, the visit of a node is confined to it; and if none of its callbacks
ran, it keeps its values and its halt bit as well. -/
theorem visit_confined (engine : Engine M R) (superstep task node : Nat) (work : Work M R) :
    let next := Outcome.state (Work.visit engine superstep task node work)
    work.Confined node next ∧
      (next.journal.size = work.journal.size → work.desk.state.Spares node next.desk.state) := by
  rw [visit_eq]
  have htake := Work.Confined.take node work
  cases htaken : work.take node with
  | error f taken =>
    rw [htaken] at htake
    exact ⟨htake.1, fun _ => htake.2⟩
  | ok messages taken =>
    rw [htaken] at htake
    obtain ⟨hconfined, hspares⟩ := htake
    dsimp only [Outcome.state] at hconfined hspares ⊢
    cases taken.sleeps superstep node messages with
    | error f => exact ⟨hconfined, fun _ => hspares⟩
    | ok sleeping =>
      cases sleeping with
      | true => exact ⟨hconfined, fun _ => hspares⟩
      | false =>
        cases hwake : taken.wake node with
        | error f woken =>
          cases work_wake_error hwake
          exact ⟨hconfined, fun _ => hspares⟩
        | ok _ woken =>
          have hwoken := hconfined.trans (.wake hwake)
          -- from here on a callback runs and is written down
          have hcompute : ∀ begun : Work M R, work.Confined node begun →
              let next := Outcome.state (begun.compute engine superstep task node messages)
              work.Confined node next ∧ (next.journal.size = work.journal.size →
                work.desk.state.Spares node next.desk.state) := by
            intro begun hbegun
            obtain ⟨hnext, hlt⟩ := Work.Confined.compute engine superstep task node messages begun
            have hgrown := Nat.lt_of_le_of_lt hbegun.size_le hlt
            exact ⟨hbegun.trans hnext, fun hsize => absurd hsize (Nat.ne_of_gt hgrown)⟩
          dsimp only
          by_cases h0 : superstep = 0
          · rw [if_pos h0]
            obtain ⟨hinit, hlt⟩ := Work.Confined.init engine node woken
            have hgrown := Nat.lt_of_le_of_lt hwoken.size_le hlt
            cases hbegun : woken.init engine node with
            | error f begun =>
              rw [hbegun] at hinit hgrown
              exact ⟨hwoken.trans hinit, fun hsize => absurd hsize (Nat.ne_of_gt hgrown)⟩
            | ok _ begun =>
              rw [hbegun] at hinit
              exact hcompute begun (hwoken.trans hinit)
          · rw [if_neg h0]
            exact hcompute woken hwoken

/-- A node that has no callback in a move keeps its values and its halt bit. -/
theorem Round.move_spares (engine : Engine M R) (superstep : Nat) (m : Move) (round : Round M R) :
    let next := round.move engine superstep m
    ∃ new, next.journal.toList = round.journal.toList ++ new ∧
      ∀ v, (∀ x ∈ new, x.node? ≠ some v) → round.state.Spares v next.state := by
  cases m with
  | finish task =>
    simp only [Round.move, Round.finish]
    refine ⟨[], ?_⟩
    split
    next => exact ⟨by simp, fun v _ => .refl v _⟩
    next =>
      split
      next => exact ⟨by simp, fun v _ => .refl v _⟩
      next => split <;> exact ⟨by simp, fun v _ => ⟨.refl v _, rfl⟩⟩
  | visit task node =>
    simp only [Round.move, Round.visit]
    split
    next => exact ⟨[], by simp, fun v _ => .refl v _⟩
    next tally _ =>
      split
      next => exact ⟨[], by simp, fun v _ => .refl v _⟩
      next =>
        obtain ⟨hconfined, hspares⟩ := visit_confined engine superstep task node
          (⟨⟨round.state, tally⟩, round.journal⟩ : Work M R)
        obtain ⟨new, hnew, hnodes⟩ := hconfined.journal
        have hskipped : ∀ v, (∀ x ∈ new, x.node? ≠ some v) → round.state.Spares v
            (Outcome.state (Work.visit engine superstep task node
              ⟨⟨round.state, tally⟩, round.journal⟩)).desk.state := by
          intro v hv
          by_cases hvn : v = node
          · subst hvn
            have hnil : new = [] := List.eq_nil_iff_forall_not_mem.mpr fun x hx =>
              hv x hx (hnodes x hx)
            rw [hnil, List.append_nil] at hnew
            exact hspares (by rw [← Array.length_toList, hnew, Array.length_toList])
          · exact hconfined.desk.spares hvn
        cases hvisit : Work.visit engine superstep task node
            ⟨⟨round.state, tally⟩, round.journal⟩ with
        | ok _ work =>
          rw [hvisit] at hnew hskipped
          exact ⟨new, hnew, hskipped⟩
        | error f work =>
          rw [hvisit] at hnew hskipped
          exact ⟨new, hnew, hskipped⟩

/-- A node that has no callback in any of the moves keeps its values and its halt bit. -/
theorem Round.moves_spare (engine : Engine M R) (superstep : Nat) (moves : List Move)
    (round : Round M R) :
    let next := moves.foldl (Round.move engine superstep) round
    ∃ new, next.journal.toList = round.journal.toList ++ new ∧
      ∀ v, (∀ x ∈ new, x.node? ≠ some v) → round.state.Spares v next.state := by
  induction moves generalizing round with
  | nil => exact ⟨[], by simp, fun v _ => .refl v _⟩
  | cons m rest ih =>
    obtain ⟨first, hfirst, hfirstSpares⟩ := Round.move_spares engine superstep m round
    obtain ⟨later, hlater, hlaterSpares⟩ := ih (round.move engine superstep m)
    refine ⟨first ++ later, ?_, fun v hv => ?_⟩
    · rw [List.foldl_cons, hlater, hfirst, List.append_assoc]
    · obtain ⟨hvfirst, hvlater⟩ := List.forall_mem_append.mp hv
      exact (hfirstSpares v hvfirst).trans (hlaterSpares v hvlater)

/-- The master callback changes no halt bit, and no values but those it sets. -/
theorem perform_master_spares {α : Type} (p : MasterProgram α) (s : State M) (v : Nat) :
    (p.perform masterHandler s).state.halted = s.halted ∧
      ((∀ key value, ⟨.set key v value, ()⟩ ∉ (p.perform masterHandler s).calls) →
        s.values.AgreeAt v (p.perform masterHandler s).state.values) := by
  refine perform_always (I := fun calls (t : State M) => t.halted = s.halted ∧
    ((∀ key value, ⟨.set key v value, ()⟩ ∉ calls) → s.values.AgreeAt v t.values)) ?_ ?_ p
    ⟨rfl, fun _ => .refl v _⟩
  · rintro calls t op x u ⟨hhalted, hvalues⟩ hop
    refine ⟨(masterHandler_ok hop).halted.trans hhalted, fun hnone => ?_⟩
    have hearlier := hvalues fun key value hm => hnone key value (List.mem_append_left _ hm)
    cases op with
    | set key node value =>
      have hne : v ≠ node := by
        rintro rfl
        exact hnone key value (by simp)
      simp only [masterHandler] at hop
      split at hop
      next values hset =>
        cases hop
        exact hearlier.trans (ValueStore.set_frame hne hset)
      next => cases hop
    | _ =>
      rw [(masterHandler_ok hop).values (by simp [Call.isSet])]
      exact hearlier
  · rintro calls t op f u ⟨hhalted, hvalues⟩ hop
    have hsame : u = t := by
      cases op with
      | get key node => exact unchanged_error hop
      | set key node value =>
        simp only [masterHandler] at hop
        split at hop
        next => cases hop
        next g values hset =>
          cases ValueStore.set_error value hset
          cases hop
          rfl
      | aggregated key => cases hop
      | raise signal => cases hop
    rw [hsame]
    exact ⟨hhalted, hvalues⟩

theorem consult_spares (engine : Engine M R) (superstep : Nat) (quiet : Bool)
    (p : Progress M R) :
    let q := Outcome.state (engine.consult superstep quiet p)
    ∃ calls report, q.journal.toList = p.journal.toList ++ [.master superstep calls report] ∧
      q.state.halted = p.state.halted ∧
      ∀ v, (∀ key value, ⟨.set key v value, ()⟩ ∉ calls) →
        p.state.values.AgreeAt v q.state.values := by
  obtain ⟨state, stats, journal⟩ := p
  have hspares := perform_master_spares
    (engine.computation.master superstep engine.graph.nodes) state
  simp only [Engine.consult]
  split
  all_goals exact ⟨_, _, Array.toList_push, (hspares 0).1, fun v => (hspares v).2⟩

/-- A node that has no callback in a superstep keeps its halt bit, and its values as well if the
master callback does not set them. -/
theorem superstep_spares (engine : Engine M R) (schedule : Schedule) (p : Progress M R) :
    let q := Outcome.state (engine.superstep schedule p)
    ∃ new, q.journal.toList = p.journal.toList ++ new ∧
      ∀ v, (∀ x ∈ new, x.node? ≠ some v) →
        q.state.halted.isHalted v = p.state.halted.isHalted v ∧
        ((∀ superstep calls report, .master superstep calls report ∈ new →
          ∀ key value, ⟨.set key v value, ()⟩ ∉ calls) →
        p.state.values.AgreeAt v q.state.values) := by
  cases ht : engine.strategy.tasks engine.graph.nodes with
  | error f =>
    obtain ⟨state, stats, journal⟩ := p
    simp only [Engine.superstep, ht]
    exact ⟨[], by simp [Outcome.state], fun v _ => ⟨rfl, fun _ => .refl v _⟩⟩
  | ok partitions =>
    rw [superstep_eq ht]
    obtain ⟨new, hnew, hspares⟩ := Round.moves_spare engine p.stats.size
      (schedule.moves p.stats.size partitions)
      (.start p.state.turned partitions.length p.journal)
    dsimp only at hnew hspares ⊢
    generalize (schedule.moves p.stats.size partitions).foldl (Round.move engine p.stats.size)
      (.start p.state.turned partitions.length p.journal) = round at hnew hspares ⊢
    split
    next f rest hfaults =>
      refine ⟨new, hnew, fun v hv => ?_⟩
      exact ⟨(hspares v hv).halted, fun _ => (hspares v hv).values⟩
    next hfaults =>
      obtain ⟨calls, report, hjournal, hhalted, hvalues⟩ := consult_spares engine p.stats.size
        round.isQuiet (round.barrier p.stats.size p.stats)
      have hbarrier : (round.barrier p.stats.size p.stats).journal.toList =
          p.journal.toList ++ new := hnew
      refine ⟨new ++ [.master p.stats.size calls report], ?_, fun v hv => ?_⟩
      · rw [hjournal, hbarrier, List.append_assoc]
      · have hround := hspares v fun x hx => hv x (List.mem_append_left _ hx)
        refine ⟨(congrArg (HaltSet.isHalted v) hhalted).trans hround.halted, fun hset => ?_⟩
        exact hround.values.trans (hvalues v (hset p.stats.size calls report (by simp)))

/-- The visit of a node changes no value, no halt bit and no delivered message of another node,
whether it faults or not. To pending messages it only adds some, to the totals of its task it only
contributes, and what has been published and gathered it leaves alone. So a node that has no
callback in all the moves of a superstep has the same values and the same halt bit after them as
before. The master callback, which comes last, changes no halt bit either, and only the values
that it sets. -/
theorem nodes_confined (engine : Engine M R) :
    (∀ superstep task node (work : Work M R),
      let next := Outcome.state (Work.visit engine superstep task node work)
      (∀ other, other ≠ node →
        (∀ key, next.desk.state.values.get key other = work.desk.state.values.get key other) ∧
        next.desk.state.halted.isHalted other = work.desk.state.halted.isHalted other ∧
        next.desk.state.mail.delivered[other]? = work.desk.state.mail.delivered[other]?) ∧
      (∀ v : Nat, ∃ sent : List M, next.desk.state.mail.pending[v]? =
        work.desk.state.mail.pending[v]?.map (work.desk.state.mail.delivery.fill sent)) ∧
      Totals.Fed work.desk.state.aggregates.declared work.desk.tally.partials
        next.desk.tally.partials ∧
      next.desk.state.aggregates = work.desk.state.aggregates) ∧
    (∀ superstep (moves : List Move) (round : Round M R),
      let next := moves.foldl (Round.move engine superstep) round
      ∃ new, next.journal.toList = round.journal.toList ++ new ∧
        ∀ v, (∀ x ∈ new, x.node? ≠ some v) →
          next.state.halted.isHalted v = round.state.halted.isHalted v ∧
          ∀ key, next.state.values.get key v = round.state.values.get key v) ∧
    ∀ schedule (p : Progress M R),
      let q := Outcome.state (engine.superstep schedule p)
      ∃ new, q.journal.toList = p.journal.toList ++ new ∧
        ∀ v, (∀ x ∈ new, x.node? ≠ some v) →
          q.state.halted.isHalted v = p.state.halted.isHalted v ∧
          ((∀ superstep calls report, .master superstep calls report ∈ new →
            ∀ key value, ⟨.set key v value, ()⟩ ∉ calls) →
          ∀ key, q.state.values.get key v = p.state.values.get key v) := by
  refine ⟨?_, ?_, ?_⟩
  · intro superstep task node work
    have hdesk := (visit_confined engine superstep task node work).1.desk
    refine ⟨fun other hne => ⟨fun key => ?_, hdesk.halted.isHalted hne,
      hdesk.mail.delivered other hne⟩, hdesk.mail.pending, hdesk.partials, hdesk.aggregates⟩
    exact ((hdesk.values other hne).get key).symm
  · intro superstep moves round
    obtain ⟨new, hnew, hspares⟩ := Round.moves_spare engine superstep moves round
    refine ⟨new, hnew, fun v hv => ⟨(hspares v hv).halted, fun key => ?_⟩⟩
    exact ((hspares v hv).values.get key).symm
  · intro schedule p
    obtain ⟨new, hnew, hspares⟩ := superstep_spares engine schedule p
    refine ⟨new, hnew, fun v hv => ?_⟩
    obtain ⟨hhalted, hvalues⟩ := hspares v hv
    exact ⟨hhalted, fun hset key => ((hvalues hset).get key).symm⟩

end BulkSync
