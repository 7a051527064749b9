import BulkSync.Proofs.Boundaries

namespace BulkSync

variable {M R : Type}

/-- Nothing is left to do: supersteps have been executed, every node is halted and no message is
pending. -/
structure Idle (engine : Engine M R) (p : Progress M R) : Prop where
  tasks : ∃ partitions, engine.strategy.tasks engine.graph.nodes = .ok partitions
  begun : p.stats.size ≠ 0
  sound : p.state.halted.Sound
  nodes : p.state.halted.nodes = engine.graph.nodes
  halted : ∀ v < engine.graph.nodes, p.state.halted.bit v = true
  pending : p.state.mail.pending = .replicate engine.graph.nodes #[]
  delivered : p.state.mail.delivered.size = engine.graph.nodes
  gathered : p.state.aggregates.gathered = .blank p.state.aggregates.declared

theorem turn_of_empty {room : Mailroom M} {nodes : Nat} (hp : room.pending = .replicate nodes #[])
    (hd : room.delivered.size = nodes) :
    room.turn = ⟨room.delivery, .replicate nodes #[], .replicate nodes #[]⟩ := by
  unfold Mailroom.turn
  rw [hp]
  congr 1
  refine Array.ext (by simp [hd]) fun i _ _ => ?_
  simp

theorem merge_blank (declared : List Aggregator) :
    Totals.merge declared (.blank declared) (.blank declared) = .ok (.blank declared) := by
  induction declared with
  | nil => rfl
  | cons a rest ih =>
    have hblank : Totals.blank (a :: rest) = none :: Totals.blank rest := rfl
    rw [hblank]
    simp only [Totals.merge, ih]
    rfl

theorem visit_idle {engine : Engine M R} {superstep : Nat} (task : Nat) {node : Nat} {s : State M}
    (tally : Tally) (journal : Array (Entry M R)) (hn : superstep ≠ 0)
    (hd : s.mail.delivered[node]? = some #[]) (hh : s.halted.isHalted node = .ok true) :
    Work.visit engine superstep task node ⟨⟨s, tally⟩, journal⟩ = .ok () ⟨⟨s, tally⟩, journal⟩ := by
  have hset : s.mail.delivered.setIfInBounds node #[] = s.mail.delivered := by
    refine Array.ext_getElem? fun i => ?_
    by_cases hi : node = i
    · subst hi
      rw [hd, Array.getElem?_setIfInBounds_self_of_lt (Array.getElem?_eq_some_iff.mp hd).1]
    · rw [Array.getElem?_setIfInBounds_ne hi]
  have htake : Work.take node (⟨⟨s, tally⟩, journal⟩ : Work M R) =
      .ok ⟨[]⟩ ⟨⟨s, tally⟩, journal⟩ := by
    simp only [Work.take, Mailroom.take, hd, hset]
  have hsleeps : Work.sleeps superstep node ⟨[]⟩ (⟨⟨s, tally⟩, journal⟩ : Work M R) =
      .ok true := by
    simp only [Work.sleeps, if_neg hn, hh]
    rfl
  rw [visit_eq, htake]
  simp only [hsleeps]

/-- A round over a state in which nothing is left to do. -/
structure Still (s : State M) (journal : Array (Entry M R)) (round : Round M R) : Prop where
  state : round.state = s
  tallies : ∀ tally ∈ round.tallies.toList, tally.partials = .blank s.aggregates.declared ∧
    tally.computed = 0 ∧ tally.sent = 0
  computed : round.computed = 0
  sent : round.sent = 0
  faults : round.faults = []
  journal : round.journal = journal

theorem Still.move {engine : Engine M R} {superstep : Nat} {s : State M}
    {journal : Array (Entry M R)} {round : Round M R} (h : Still s journal round) (m : Move)
    (hn : superstep ≠ 0) (hg : s.aggregates.gathered = .blank s.aggregates.declared)
    (hm : ∀ v, m.node? = some v →
      s.mail.delivered[v]? = some #[] ∧ s.halted.isHalted v = .ok true) :
    Still s journal (round.move engine superstep m) := by
  have hset : ∀ (task : Nat) (tally : Tally), (tally.partials = .blank s.aggregates.declared ∧
      tally.computed = 0 ∧ tally.sent = 0) →
      ∀ other ∈ (round.tallies.setIfInBounds task tally).toList,
        other.partials = .blank s.aggregates.declared ∧ other.computed = 0 ∧ other.sent = 0 := by
    intro task tally ht other hother
    rw [Array.toList_setIfInBounds] at hother
    rcases List.mem_or_eq_of_mem_set hother with hmem | rfl
    · exact h.tallies other hmem
    · exact ht
  cases m with
  | visit task node =>
    obtain ⟨hd, hh⟩ := hm node rfl
    simp only [Round.move, Round.visit]
    split
    next => exact h
    next tally htally =>
      have ht := h.tallies tally (Array.mem_toList_iff.mpr (Array.mem_of_getElem? htally))
      split
      next => exact h
      next =>
        rw [h.state, visit_idle task tally round.journal hn hd hh]
        exact ⟨rfl, hset task tally ht, h.computed, h.sent, h.faults, h.journal⟩
  | finish task =>
    simp only [Round.move, Round.finish]
    split
    next => exact h
    next tally htally =>
      have ht := h.tallies tally (Array.mem_toList_iff.mpr (Array.mem_of_getElem? htally))
      split
      next => exact h
      next =>
        have hmerge : round.state.aggregates.merge tally.partials = .ok s.aggregates := by
          rw [h.state, ht.1]
          simp only [Aggregates.merge, hg, merge_blank]
          rw [← hg]
          rfl
        rw [hmerge]
        refine ⟨?_, hset task _ ht, ?_, ?_, h.faults, h.journal⟩
        · rw [h.state]
        · simp [h.computed, ht.2.1]
        · simp [h.sent, ht.2.2]

theorem Still.moves (engine : Engine M R) {superstep : Nat} {s : State M}
    {journal : Array (Entry M R)} {round : Round M R} (h : Still s journal round)
    (moves : List Move) (hn : superstep ≠ 0)
    (hg : s.aggregates.gathered = .blank s.aggregates.declared)
    (hm : ∀ v ∈ moves.filterMap Move.node?,
      s.mail.delivered[v]? = some #[] ∧ s.halted.isHalted v = .ok true) :
    Still s journal (moves.foldl (Round.move engine superstep) round) := by
  induction moves generalizing round with
  | nil => exact h
  | cons m rest ih =>
    refine ih (h.move m hn hg fun v hv => hm v ?_) fun v hv => hm v ?_
    · exact List.mem_filterMap.mpr ⟨m, by simp, hv⟩
    · obtain ⟨x, hx, hxv⟩ := List.mem_filterMap.mp hv
      exact List.mem_filterMap.mpr ⟨x, List.mem_cons_of_mem _ hx, hxv⟩

/-- What an idle superstep leaves before the master callback. -/
def Progress.idled (p : Progress M R) : Progress M R :=
  ⟨⟨p.state.values, p.state.halted, p.state.mail.turn, p.state.aggregates.publish,
    p.state.signals⟩, p.stats.push ⟨p.stats.size, 0, 0⟩, p.journal⟩

/-- Executing a superstep when nothing is left to do computes no node and sends nothing; all that
can still happen is what the master callback does. -/
theorem Idle.superstep_eq {engine : Engine M R} {delivery : Delivery M} {p : Progress M R}
    {schedule : Schedule} (hr : engine.Ready delivery) (h : Idle engine p)
    (hv : schedule.Valid) :
    engine.superstep schedule p = engine.consult p.stats.size true p.idled := by
  obtain ⟨partitions, ht⟩ := h.tasks
  have hturn := turn_of_empty h.pending h.delivered
  have hvisits : ∀ v ∈ (schedule.moves p.stats.size partitions).filterMap Move.node?,
      v < engine.graph.nodes := by
    intro v hmem
    have hmem' := (hv p.stats.size partitions).visits.mem_iff.mp hmem
    rw [(tasks_tiles hr.strategy ht).ids, List.mem_range'_1] at hmem'
    omega
  have hstart : Still p.state.turned p.journal
      (.start p.state.turned partitions.length p.journal) := by
    refine ⟨rfl, fun tally hmem => ?_, rfl, rfl, rfl, rfl⟩
    simp only [Round.start, Array.toList_replicate] at hmem
    rw [List.eq_of_mem_replicate hmem]
    exact ⟨rfl, rfl, rfl⟩
  have hstill := hstart.moves engine (schedule.moves p.stats.size partitions) h.begun
    h.gathered fun v hmem => by
      have hn := hvisits v hmem
      refine ⟨?_, ?_⟩
      · rw [show p.state.turned.mail = p.state.mail.turn from rfl, hturn]
        rw [Array.getElem?_replicate, if_pos hn]
      · refine (HaltSet.isHalted_eq_bit h.sound (h.nodes ▸ hn)).trans ?_
        rw [h.halted v hn]
  rw [BulkSync.superstep_eq ht]
  dsimp only
  generalize (schedule.moves p.stats.size partitions).foldl (Round.move engine p.stats.size)
    (.start p.state.turned partitions.length p.journal) = round at hstill ⊢
  have hquiet : round.isQuiet = true := by
    have hall : p.state.halted.allHalted = true :=
      (HaltSet.allHalted_iff h.sound).mpr fun v hlt => h.halted v (h.nodes ▸ hlt)
    unfold Round.isQuiet
    rw [hstill.sent, hstill.state]
    exact hall
  rw [hstill.faults, hquiet]
  dsimp only
  unfold Round.barrier Progress.idled State.published
  rw [hstill.state, hstill.computed, hstill.sent, hstill.journal]
  rfl

/-- The boundaries that any number of supersteps lead to. -/
inductive Follows (engine : Engine M R) (schedule : Schedule) (p : Progress M R) :
    Progress M R → Prop
  | here : Follows engine schedule p p
  | next {q r converged} (reached : Follows engine schedule p q)
      (step : engine.superstep schedule q = .ok converged r) : Follows engine schedule p r

/-- What any number of supersteps came to in which no node computed. -/
structure Idled (p q : Progress M R) : Prop where
  halted : q.state.halted = p.state.halted
  journal : ∃ later : List (Entry M R), q.journal.toList = p.journal.toList ++ later ∧
    (∀ x ∈ later, ∃ superstep calls result, x = .master superstep calls result) ∧
    ((∀ superstep calls result, .master superstep calls result ∈ later →
      calls.any Call.isSet = false) → q.state.values = p.state.values)
  stats : ∃ later : List Stats, q.stats.toList = p.stats.toList ++ later ∧
    ∀ x ∈ later, x.computed = 0 ∧ x.sent = 0

theorem Idle.next {engine : Engine M R} {delivery : Delivery M} {p q : Progress M R}
    {schedule : Schedule} {converged : Bool} (hr : engine.Ready delivery) (h : Idle engine p)
    (hv : schedule.Valid) (hq : engine.superstep schedule p = .ok converged q) :
    Idle engine q ∧ Idled p q := by
  rw [h.superstep_eq hr hv] at hq
  obtain ⟨calls, stop, report, hc, _⟩ := consult_ok hq
  have hd := hc.directed
  have hmail : q.state.mail = p.state.mail.turn := hd.mail
  have hhalted : q.state.halted = p.state.halted := hd.halted
  have haggregates : q.state.aggregates = p.state.aggregates.publish := hd.aggregates
  have hstats : q.stats = p.stats.push ⟨p.stats.size, 0, 0⟩ := hc.stats
  have hjournal : q.journal = p.journal.push (.master p.stats.size calls (.ok (stop, report))) :=
    hc.journal
  have hturn := turn_of_empty h.pending h.delivered
  constructor
  · exact {
      tasks := h.tasks
      begun := by rw [hstats, Array.size_push]; omega
      sound := hhalted ▸ h.sound
      nodes := hhalted ▸ h.nodes
      halted := hhalted ▸ h.halted
      pending := by rw [hmail, hturn]
      delivered := by rw [hmail, hturn]; exact Array.size_replicate
      gathered := by rw [haggregates]; rfl }
  · refine ⟨hhalted, ⟨_, by rw [hjournal, Array.toList_push], ?_, ?_⟩,
      ⟨_, by rw [hstats, Array.toList_push], ?_⟩⟩
    · intro x hx
      exact ⟨_, _, _, List.mem_singleton.mp hx⟩
    · intro hset
      exact hd.values (hset _ _ _ (List.mem_singleton.mpr rfl))
    · intro x hx
      rw [List.mem_singleton.mp hx]
      exact ⟨rfl, rfl⟩

theorem Idled.refl (p : Progress M R) : Idled p p :=
  ⟨rfl, ⟨[], by simp, by simp, fun _ => rfl⟩, ⟨[], by simp, by simp⟩⟩

theorem Idled.trans {p q r : Progress M R} (hpq : Idled p q) (hqr : Idled q r) : Idled p r := by
  obtain ⟨hh, ⟨js, hj, hjs, hjv⟩, ⟨ss, hs, hss⟩⟩ := hpq
  obtain ⟨hh', ⟨js', hj', hjs', hjv'⟩, ⟨ss', hs', hss'⟩⟩ := hqr
  refine ⟨hh'.trans hh, ⟨js ++ js', by rw [hj', hj, List.append_assoc], ?_, ?_⟩,
    ⟨ss ++ ss', by rw [hs', hs, List.append_assoc], ?_⟩⟩
  · intro x hx
    rcases List.mem_append.mp hx with hx | hx
    · exact hjs x hx
    · exact hjs' x hx
  · intro hset
    refine (hjv' fun i c t hm => hset i c t ?_).trans (hjv fun i c t hm => hset i c t ?_)
    · exact List.mem_append_right _ hm
    · exact List.mem_append_left _ hm
  · intro x hx
    rcases List.mem_append.mp hx with hx | hx
    · exact hss x hx
    · exact hss' x hx

/-- When nothing is left to do, no number of further supersteps computes a node. -/
theorem Idle.follows {engine : Engine M R} {delivery : Delivery M} {p q : Progress M R}
    {schedule : Schedule} (hr : engine.Ready delivery) (h : Idle engine p)
    (hv : schedule.Valid) (hq : Follows engine schedule p q) : Idle engine q ∧ Idled p q := by
  induction hq with
  | here => exact ⟨h, .refl p⟩
  | next reached step ih =>
    obtain ⟨hidle, hidled⟩ := ih
    obtain ⟨hnext, hstep⟩ := hidle.next hr hv step
    exact ⟨hnext, hidled.trans hstep⟩

end BulkSync
