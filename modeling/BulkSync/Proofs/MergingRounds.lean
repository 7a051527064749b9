import BulkSync.Proofs.Merging

namespace BulkSync

variable {M R : Type}

/-- A computation that makes of some messages what it makes of the one that they fold into: on a
desk that keeps all messages, the callback leaves the same values, votes, messages, contributions
and signals for the list as for the one message, or ends well for neither. -/
def Computation.Folds (graph : Graph) (combine : Combiner M) (computation : Computation M R) :
    Prop :=
  ∀ node superstep messages m, combine.fold messages = .ok (some m) →
    ∀ d e : Desk M, d.state.mail.delivery = .queued →
      ((∃ r, ((computation.compute ⟨node, superstep, graph.nodes⟩ ⟨messages⟩).perform
          (nodeHandler graph node) d).outcome = .ok r e) ↔
        ∃ r, ((computation.compute ⟨node, superstep, graph.nodes⟩ ⟨[m]⟩).perform
          (nodeHandler graph node) d).outcome = .ok r e)

section Visits

variable {combine : Combiner M} {engine engine' : Engine M R} {superstep task node : Nat}

variable (superstep node) in
/-- A node that is handed the one message that its messages fold into computes the same. -/
theorem Desk.Merges.compute {graph : Graph} {computation : Computation M R}
    (hf : computation.Folds graph combine) {d d' : Desk M} (h : d.Merges combine d')
    {sent received : List M} (hd : (Delivery.combined combine).Delivers sent received) :
    Outcome.Paired (fun _ e _ e' => e.Merges combine e') combine.Faults
      ((computation.compute ⟨node, superstep, graph.nodes⟩ ⟨sent⟩).perform
        (nodeHandler graph node) d).outcome
      ((computation.compute ⟨node, superstep, graph.nodes⟩ ⟨received⟩).perform
        (nodeHandler graph node) d').outcome := by
  have hqueued : d.state.mail.delivery = .queued := by
    obtain ⟨hmail⟩ := h
    exact hmail.queued
  obtain ⟨folded, hfold, rfl⟩ := hd
  cases folded with
  | none =>
    rw [fold_eq_none hfold]
    exact (perform_merges _ _ _ h).mono fun _ _ _ _ hnext => hnext.2
  | some m =>
    have hone := hf node superstep sent m hfold d
    have hsame := perform_merges graph node
      (computation.compute ⟨node, superstep, graph.nodes⟩ ⟨[m]⟩) h
    dsimp only [Option.toList_some]
    -- the list and the one message on the first desk, then the one message on both desks
    generalize (Program.perform _ (computation.compute _ ⟨sent⟩) d).outcome = all at hone
    generalize (Program.perform _ (computation.compute _ ⟨[m]⟩) d).outcome = one at hone hsame
    generalize (Program.perform _ (computation.compute _ ⟨[m]⟩) d').outcome = one' at hsame
    cases hsame with
    | @ok r e r' e' hnext =>
      obtain ⟨r₀, hall⟩ := (hone e hqueued).mpr ⟨r, rfl⟩
      rw [hall]
      exact .ok hnext.2
    | error f s g t =>
      cases all with
      | ok r e =>
        obtain ⟨_, hok⟩ := (hone e hqueued).mp ⟨r, rfl⟩
        cases hok
      | error => exact .error ..
    | own _ f _ hown => exact .own _ f _ hown

/-- Two runs of one computation, one of which folds the messages. -/
structure Merging (combine : Combiner M) (engine engine' : Engine M R) : Prop where
  graph : engine'.graph = engine.graph
  computation : engine'.computation = engine.computation
  strategy : engine'.strategy = engine.strategy
  folds : engine.computation.Folds engine.graph combine

theorem Desk.Merges.take {d d' : Desk M} (h : d.Merges combine d')
    (journal journal' : Array (Entry M R)) (node : Nat) :
    Outcome.Paired (fun messages next messages' next' =>
        (Delivery.combined combine).Delivers messages.waiting messages'.waiting ∧
          next.desk.Merges combine next'.desk) combine.Faults
      (Work.take node ⟨d, journal⟩) (Work.take node ⟨d', journal'⟩) := by
  cases h with | @intro mail hmail
  dsimp only [Work.take, Mailroom.take, State.withMail]
  cases hslot : d.state.mail.delivered[node]? with
  | none =>
    rw [hmail.delivered.absent hslot]
    exact .error ..
  | some slot =>
    obtain ⟨slot', hslot', hd⟩ := hmail.delivered.slot hslot
    rw [hslot']
    refine .ok ⟨hd, ⟨?_⟩⟩
    exact ⟨hmail.queued, hmail.combined, hmail.pending,
      hmail.delivered.set node (Delivery.delivers_nil _)⟩

theorem Desk.Merges.sleeps {work work' : Work M R} {messages messages' : Messages M}
    (h : work.desk.Merges combine work'.desk)
    (hd : (Delivery.combined combine).Delivers messages.waiting messages'.waiting) :
    work'.sleeps superstep node messages' = work.sleeps superstep node messages := by
  have hhalted : work'.desk.state.halted = work.desk.state.halted := by
    obtain ⟨⟨_, _⟩, _⟩ := work'
    cases h
    rfl
  have hempty : messages'.isEmpty = messages.isEmpty := by
    have hnil := hd.eq_nil_iff
    rw [← List.isEmpty_iff, ← List.isEmpty_iff] at hnil
    exact Bool.eq_iff_iff.mpr hnil
  unfold Work.sleeps
  rw [hhalted, hempty]

variable (node) in
theorem Desk.Merges.wake {work work' : Work M R} (h : work.desk.Merges combine work'.desk) :
    Outcome.Paired (fun _ next _ next' => next.desk.Merges combine next'.desk) combine.Faults
      (work.wake node) (work'.wake node) := by
  obtain ⟨d', journal'⟩ := work'
  obtain ⟨hmail⟩ := h
  dsimp only [Work.wake, State.withMail]
  cases work.desk.state.halted.wake node with
  | ok _ halted => exact .ok ⟨hmail⟩
  | error f halted => exact .error ..

variable (node) in
theorem Merging.init (hm : Merging combine engine engine') {work work' : Work M R}
    (h : work.desk.Merges combine work'.desk) :
    Outcome.Paired (fun _ next _ next' => next.desk.Merges combine next'.desk) combine.Faults
      (work.init engine node) (work'.init engine' node) := by
  obtain ⟨d', journal'⟩ := work'
  cases h with | @intro mail hmail
  have hown := fun r => perform_ownPerformed (r := r) engine.graph node
    (engine.computation.init node engine.graph.nodes) (s := work.desk.state)
  unfold Work.init
  dsimp only
  rw [hm.graph, hm.computation, perform_mapState fun op s => ownHandler_withMail op s mail]
  generalize (engine.computation.init node engine.graph.nodes).perform
    (ownHandler engine.graph node) work.desk.state = performance at hown
  obtain ⟨s, calls, result⟩ := performance
  cases result with
  | ok r => exact .ok ⟨(hown r rfl).mail ▸ hmail⟩
  | error f => exact .error ..

theorem Merging.compute (hm : Merging combine engine engine') {work work' : Work M R}
    (h : work.desk.Merges combine work'.desk) {messages messages' : Messages M}
    (hd : (Delivery.combined combine).Delivers messages.waiting messages'.waiting) :
    Outcome.Paired (fun _ next _ next' => next.desk.Merges combine next'.desk) combine.Faults
      (work.compute engine superstep task node messages)
      (work'.compute engine' superstep task node messages') := by
  have hsame := h.compute superstep node hm.folds hd
  dsimp only [Work.compute]
  rw [hm.graph, hm.computation]
  generalize Program.perform _ (engine.computation.compute _ messages) _ = performance at hsame ⊢
  generalize Program.perform _ (engine.computation.compute _ messages') _ = performance'
    at hsame ⊢
  obtain ⟨e, calls, result⟩ := performance
  obtain ⟨e', calls', result'⟩ := performance'
  cases result with
  | ok r =>
    cases result' with
    | ok r' =>
      cases hsame with
      | ok hnext =>
        obtain ⟨hmail⟩ := hnext
        exact .ok ⟨hmail⟩
    | error f =>
      cases hsame with
      | own _ _ _ hf => exact .own _ f _ hf
  | error f =>
    cases result' with
    | ok r' => cases hsame
    | error g => exact .error ..

variable (superstep task node) in
/-- A visit ends the same in both runs, unless the combiner fails in it. -/
theorem Merging.visit (hm : Merging combine engine engine') {d d' : Desk M}
    (h : d.Merges combine d') (journal journal' : Array (Entry M R)) :
    Outcome.Paired (fun _ next _ next' => next.desk.Merges combine next'.desk) combine.Faults
      (Work.visit engine superstep task node ⟨d, journal⟩)
      (Work.visit engine' superstep task node ⟨d', journal'⟩) := by
  rw [visit_eq, visit_eq]
  have htake := h.take journal journal' node
  generalize Work.take node (⟨d, journal⟩ : Work M R) = o at htake
  generalize Work.take node (⟨d', journal'⟩ : Work M R) = o' at htake
  cases htake with
  | error => exact .error ..
  | own _ f _ hf => exact .own _ f _ hf
  | @ok messages taken messages' taken' htaken =>
    obtain ⟨hd, htaken⟩ := htaken
    dsimp only
    rw [htaken.sleeps hd]
    cases taken.sleeps superstep node messages with
    | error f => exact .error ..
    | ok sleeping =>
      cases sleeping with
      | true => exact .ok htaken
      | false =>
        have hwake := htaken.wake node
        dsimp only
        generalize taken.wake node = o at hwake
        generalize taken'.wake node = o' at hwake
        cases hwake with
        | error => exact .error ..
        | own _ f _ hf => exact .own _ f _ hf
        | @ok _ woken _ woken' hwoken =>
          dsimp only
          by_cases h0 : superstep = 0
          · have hinit := hm.init node hwoken
            rw [if_pos h0, if_pos h0]
            generalize woken.init engine node = o at hinit
            generalize woken'.init engine' node = o' at hinit
            cases hinit with
            | error => exact .error ..
            | own _ f _ hf => exact .own _ f _ hf
            | ok hbegun => exact hm.compute hbegun hd
          · rw [if_neg h0, if_neg h0]
            exact hm.compute hwoken hd

end Visits

/-- Two rounds without a fault that differ only in how the messages are kept. -/
inductive Round.Merges (combine : Combiner M) (round : Round M R) : Round M R → Prop
  | intro {mail journal} (clean : round.faults = []) (h : round.state.mail.Merges combine mail) :
    Merges combine round ⟨round.state.withMail mail, round.tallies, round.computed, round.sent,
      round.faults, journal⟩

/-- Two rounds that have come as far: they differ only in how the messages are kept, both have had
a fault, or the first fault of the second one is one of the combiner. -/
inductive Round.Abreast (combine : Combiner M) (round round' : Round M R) : Prop
  | merges (h : round.Merges combine round')
  | faulted (h : round.faults ≠ []) (h' : round'.faults ≠ [])
  | failed (f later) (h : round'.faults = f :: later) (hf : combine.Faults f)

section Rounds

variable {combine : Combiner M} {engine engine' : Engine M R} {superstep : Nat}

theorem Round.Merges.visit (hm : Merging combine engine engine') {round round' : Round M R}
    (h : round.Merges combine round') (task node : Nat) :
    (round.visit engine superstep task node).Abreast combine
      (round'.visit engine' superstep task node) := by
  cases h with | @intro mail journal clean hmail
  dsimp only [Round.visit]
  split
  next => exact .merges ⟨clean, hmail⟩
  next tally _ =>
    split
    next => exact .merges ⟨clean, hmail⟩
    next =>
      have hdesks : (⟨round.state, tally⟩ : Desk M).Merges combine
          ⟨round.state.withMail mail, tally⟩ := ⟨hmail⟩
      have hvisit := hm.visit superstep task node hdesks round.journal journal
      generalize Work.visit engine superstep task node _ = o at hvisit
      generalize Work.visit engine' superstep task node _ = o' at hvisit
      cases hvisit with
      | @ok _ work _ work' hwork =>
        obtain ⟨e', journal'⟩ := work'
        obtain ⟨hmail⟩ := hwork
        exact .merges ⟨clean, hmail⟩
      | error => exact .faulted (by simp) (by simp)
      | own _ f _ hf => exact .failed f [] (by simp [clean]) hf

theorem Round.Merges.finish {round round' : Round M R} (h : round.Merges combine round')
    (task : Nat) : (round.finish task).Abreast combine (round'.finish task) := by
  obtain ⟨clean, hmail⟩ := h
  dsimp only [Round.finish, State.withMail]
  split
  next => exact .merges ⟨clean, hmail⟩
  next tally _ =>
    split
    next => exact .merges ⟨clean, hmail⟩
    next =>
      cases round.state.aggregates.merge tally.partials with
      | ok aggregates => exact .merges ⟨clean, hmail⟩
      | error f => exact .faulted (by simp) (by simp)

theorem Round.Abreast.move (hm : Merging combine engine engine') {round round' : Round M R}
    (h : round.Abreast combine round') (m : Move) :
    (round.move engine superstep m).Abreast combine (round'.move engine' superstep m) := by
  obtain ⟨more, hmore⟩ := faults_grow engine superstep m round
  obtain ⟨more', hmore'⟩ := faults_grow engine' superstep m round'
  cases h with
  | merges h =>
    cases m with
    | visit task node => exact h.visit hm task node
    | finish task => exact h.finish task
  | faulted h h' => exact .faulted (by simp [hmore, h]) (by simp [hmore', h'])
  | failed f later h hf => exact .failed f (later ++ more') (by simp [hmore', h]) hf

variable (superstep) in
/-- Rounds that come abreast stay so, whatever moves are made. -/
theorem Round.Abreast.moves (hm : Merging combine engine engine') {round round' : Round M R}
    (h : round.Abreast combine round') (moves : List Move) :
    (moves.foldl (Round.move engine superstep) round).Abreast combine
      (moves.foldl (Round.move engine' superstep) round') := by
  induction moves generalizing round round' with
  | nil => exact h
  | cons m rest ih => exact ih (h.move hm m)

end Rounds

end BulkSync
