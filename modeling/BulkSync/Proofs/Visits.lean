import BulkSync.Proofs.Performed

namespace BulkSync

variable {M R : Type}

def State.taken (node : Nat) (s : State M) : State M :=
  { s with mail := { s.mail with delivered := s.mail.delivered.setIfInBounds node #[] } }

/-- A node whose messages have been taken and whose halt bit has been cleared. -/
def State.woken (node : Nat) (halted : HaltSet) (s : State M) : State M :=
  { s with
    halted
    mail := { s.mail with delivered := s.mail.delivered.setIfInBounds node #[] } }

section Projections

variable (node : Nat) (halted : HaltSet) (s : State M)

@[simp]
theorem State.woken_values : (s.woken node halted).values = s.values := rfl

@[simp]
theorem State.woken_halted : (s.woken node halted).halted = halted := rfl

@[simp]
theorem State.woken_mail : (s.woken node halted).mail = (s.taken node).mail := rfl

@[simp]
theorem State.woken_aggregates : (s.woken node halted).aggregates = s.aggregates := rfl

@[simp]
theorem State.woken_signals : (s.woken node halted).signals = s.signals := rfl

end Projections

/-- The callbacks before the first `compute`: there is one in superstep 0 and none later. -/
inductive Initialized (engine : Engine M R) (superstep node : Nat) (s : State M) :
    List (Entry M R) → State M → Prop
  | later (h : superstep ≠ 0) : Initialized engine superstep node s [] s
  | first {calls r t} (h : superstep = 0)
      (init : (engine.computation.init node engine.graph.nodes).perform
        (ownHandler engine.graph node) s = ⟨t, calls, .ok r⟩) :
      Initialized engine superstep node s [.init node calls (.ok r)] t

/-- The callbacks of a node that did not fault in a superstep, and the desk they leave. -/
inductive Visited (engine : Engine M R) (superstep task node : Nat) (d : Desk M) :
    List (Entry M R) → Desk M → Prop
  | asleep {slot} (later : superstep ≠ 0)
      (delivered : d.state.mail.delivered[node]? = some slot) (silent : slot.toList = [])
      (halted : d.state.halted.isHalted node = .ok true) :
      Visited engine superstep task node d [] { d with state := d.state.taken node }
  | awake {slot woken inits begun calls r e}
      (delivered : d.state.mail.delivered[node]? = some slot)
      (due : superstep ≠ 0 → ∃ halted, d.state.halted.isHalted node = .ok halted ∧
        (halted && slot.toList.isEmpty) = false)
      (wake : d.state.halted.wake node = .ok () woken)
      (init : Initialized engine superstep node (d.state.woken node woken) inits begun)
      (compute : (engine.computation.compute ⟨node, superstep, engine.graph.nodes⟩
        ⟨slot.toList⟩).perform (nodeHandler engine.graph node) ⟨begun, d.tally⟩ =
          ⟨e, calls, .ok r⟩) :
      Visited engine superstep task node d
        (inits ++ [.compute superstep task node ⟨slot.toList⟩ calls (.ok r)])
        { e with tally := { e.tally with computed := e.tally.computed + 1 } }

theorem visit_eq (engine : Engine M R) (superstep task node : Nat) (work : Work M R) :
    Work.visit engine superstep task node work =
      match work.take node with
      | .error f taken => .error f taken
      | .ok messages taken =>
        match taken.sleeps superstep node messages with
        | .error f => .error f taken
        | .ok true => .ok () taken
        | .ok false =>
          match taken.wake node with
          | .error f woken => .error f woken
          | .ok () woken =>
            match if superstep = 0 then woken.init engine node else .ok () woken with
            | .error f begun => .error f begun
            | .ok () begun => begun.compute engine superstep task node messages := by
  simp only [Work.visit, bind, EStateM.bind, unchanged, pure]
  cases work.take node with
  | error f taken => rfl
  | ok messages taken =>
    dsimp only
    cases taken.sleeps superstep node messages with
    | error f => rfl
    | ok sleeping =>
      cases sleeping with
      | true => rfl
      | false =>
        simp only [Bool.false_eq_true, if_false, EStateM.bind]
        cases taken.wake node with
        | error f woken => rfl
        | ok u woken =>
          dsimp only
          cases superstep with
          | zero =>
            rw [if_pos rfl]
            change EStateM.bind (fun begun => Work.init engine node begun)
              (fun _ => Work.compute engine 0 task node messages) woken = _
            simp only [EStateM.bind]
            cases woken.init engine node <;> rfl
          | succ k => rfl

theorem work_take_ok {node : Nat} {work work' : Work M R} {messages : Messages M}
    (h : work.take node = .ok messages work') :
    ∃ slot, work.desk.state.mail.delivered[node]? = some slot ∧ messages = ⟨slot.toList⟩ ∧
      work' = { work with desk := { work.desk with state := work.desk.state.taken node } } := by
  simp only [Work.take] at h
  split at h
  next messages mail hm =>
    cases h
    obtain ⟨slot, hslot, rfl, rfl⟩ := Mailroom.take_ok hm
    exact ⟨slot, hslot, rfl, rfl⟩
  next => cases h

theorem work_wake_ok {node : Nat} {work work' : Work M R} (h : work.wake node = .ok () work') :
    ∃ halted, work.desk.state.halted.wake node = .ok () halted ∧
      work' = { work with desk :=
        { work.desk with state := { work.desk.state with halted := halted } } } := by
  simp only [Work.wake] at h
  split at h
  next halted hw => cases h; exact ⟨halted, hw, rfl⟩
  next => cases h

theorem work_sleeps_ok {superstep node : Nat} {messages : Messages M} {work : Work M R}
    {sleeping : Bool} (h : work.sleeps superstep node messages = .ok sleeping) :
    (superstep = 0 ∧ sleeping = false) ∨
      (superstep ≠ 0 ∧ ∃ halted, work.desk.state.halted.isHalted node = .ok halted ∧
        sleeping = (halted && messages.isEmpty)) := by
  simp only [Work.sleeps] at h
  split at h
  next h0 => cases h; exact .inl ⟨h0, rfl⟩
  next h0 =>
    simp only [bind, Except.bind] at h
    split at h
    next => cases h
    next halted hh => cases h; exact .inr ⟨h0, halted, hh, rfl⟩

theorem work_init_ok {engine : Engine M R} {superstep node : Nat} {work work' : Work M R}
    (h : (if superstep = 0 then work.init engine node else .ok () work) = .ok () work') :
    ∃ inits, Initialized engine superstep node work.desk.state inits work'.desk.state ∧
      work'.desk.tally = work.desk.tally ∧
      work'.journal.toList = work.journal.toList ++ inits := by
  by_cases h0 : superstep = 0
  · rw [if_pos h0] at h
    unfold Work.init at h
    generalize hp : (engine.computation.init node engine.graph.nodes).perform
      (ownHandler engine.graph node) work.desk.state = p at h
    obtain ⟨t, calls, result⟩ := p
    cases result with
    | ok r => cases h; exact ⟨_, .first h0 hp, rfl, Array.toList_push⟩
    | error f => cases h
  · rw [if_neg h0] at h
    cases h
    exact ⟨[], .later h0, rfl, by simp⟩

theorem work_compute_ok {engine : Engine M R} {superstep task node : Nat} {messages : Messages M}
    {work work' : Work M R}
    (h : work.compute engine superstep task node messages = .ok () work') :
    ∃ e calls r, (engine.computation.compute ⟨node, superstep, engine.graph.nodes⟩
        messages).perform (nodeHandler engine.graph node) work.desk = ⟨e, calls, .ok r⟩ ∧
      work'.desk = { e with tally := { e.tally with computed := e.tally.computed + 1 } } ∧
      work'.journal.toList =
        work.journal.toList ++ [.compute superstep task node messages calls (.ok r)] := by
  simp only [Work.compute] at h
  generalize hp : (engine.computation.compute ⟨node, superstep, engine.graph.nodes⟩
    messages).perform (nodeHandler engine.graph node) work.desk = p at h
  obtain ⟨e, calls, result⟩ := p
  cases result with
  | ok r => cases h; exact ⟨e, calls, r, rfl, rfl, Array.toList_push⟩
  | error f => cases h

/-- A visit that does not fault is one of the two kinds, and is written into the journal. -/
theorem visit_ok {engine : Engine M R} {superstep task node : Nat} {work work' : Work M R}
    (h : Work.visit engine superstep task node work = .ok () work') :
    ∃ new, Visited engine superstep task node work.desk new work'.desk ∧
      work'.journal.toList = work.journal.toList ++ new := by
  rw [visit_eq] at h
  split at h
  next => cases h
  next messages taken htake =>
    obtain ⟨slot, hslot, rfl, rfl⟩ := work_take_ok htake
    split at h
    next => cases h
    next hsleeps =>
      cases h
      rcases work_sleeps_ok hsleeps with ⟨_, hf⟩ | ⟨hlater, halted, hh, hs⟩
      · cases hf
      · obtain ⟨rfl, hempty⟩ := Bool.and_eq_true_iff.mp hs.symm
        exact ⟨[], .asleep hlater hslot (List.isEmpty_iff.mp hempty) hh, by simp⟩
    next hsleeps =>
      split at h
      next => cases h
      next woken hwake =>
        obtain ⟨halted, hw, rfl⟩ := work_wake_ok hwake
        split at h
        next => cases h
        next begun hinit =>
          obtain ⟨inits, hi, htally, hjournal⟩ := work_init_ok hinit
          obtain ⟨e, calls, r, hp, hdesk, hj⟩ := work_compute_ok h
          have hdue : superstep ≠ 0 → ∃ halted, work.desk.state.halted.isHalted node = .ok halted ∧
              (halted && slot.toList.isEmpty) = false := by
            intro hlater
            rcases work_sleeps_ok hsleeps with ⟨h0, _⟩ | ⟨_, halted, hh, hs⟩
            · exact absurd h0 hlater
            · exact ⟨halted, hh, hs.symm⟩
          have hbegun : begun.desk = ⟨begun.desk.state, work.desk.tally⟩ := by rw [← htally]
          rw [hbegun] at hp
          refine ⟨inits ++ [.compute superstep task node ⟨slot.toList⟩ calls (.ok r)], ?_, ?_⟩
          · rw [hdesk]
            exact .awake hslot hdue hw hi hp
          · rw [hj, hjournal, List.append_assoc]

/-- A visit that gets as far as the callback is as good as the callback. -/
theorem visit_awake_eq (engine : Engine M R) {superstep node : Nat} (task : Nat) {d : Desk M}
    {slot : Array M} {woken : HaltSet} {inits : List (Entry M R)} {begun : State M}
    (journal : Array (Entry M R))
    (delivered : d.state.mail.delivered[node]? = some slot)
    (due : superstep ≠ 0 → ∃ halted, d.state.halted.isHalted node = .ok halted ∧
      (halted && slot.toList.isEmpty) = false)
    (wake : d.state.halted.wake node = .ok () woken)
    (init : Initialized engine superstep node (d.state.woken node woken) inits begun) :
    ∃ journal', journal'.toList = journal.toList ++ inits ∧
      Work.visit engine superstep task node ⟨d, journal⟩ =
        Work.compute engine superstep task node ⟨slot.toList⟩ ⟨⟨begun, d.tally⟩, journal'⟩ := by
  have htake : Work.take node ⟨d, journal⟩ =
      .ok ⟨slot.toList⟩ ⟨⟨d.state.taken node, d.tally⟩, journal⟩ := by
    simp only [Work.take, Mailroom.take, delivered]
    rfl
  have hsleeps : Work.sleeps superstep node ⟨slot.toList⟩
      (⟨⟨d.state.taken node, d.tally⟩, journal⟩ : Work M R) = .ok false := by
    unfold Work.sleeps
    by_cases h0 : superstep = 0
    · rw [if_pos h0]
    · obtain ⟨halted, hh, hand⟩ := due h0
      rw [if_neg h0, show (d.state.taken node).halted = d.state.halted from rfl, hh]
      exact congrArg Except.ok hand
  have hwake : Work.wake node (⟨⟨d.state.taken node, d.tally⟩, journal⟩ : Work M R) =
      .ok () ⟨⟨d.state.woken node woken, d.tally⟩, journal⟩ := by
    unfold Work.wake
    rw [show (d.state.taken node).halted = d.state.halted from rfl, wake]
    rfl
  rw [visit_eq, htake]
  simp only [hsleeps, hwake]
  cases init with
  | later h =>
    rw [if_neg h]
    exact ⟨journal, by simp, rfl⟩
  | @first calls r t h hp =>
    rw [if_pos h]
    simp only [hp, Work.init]
    exact ⟨_, Array.toList_push, rfl⟩

/-- What a visit did is what executing it does. -/
theorem Visited.ok {engine : Engine M R} {superstep task node : Nat} {d e : Desk M}
    {new : List (Entry M R)} (h : Visited engine superstep task node d new e)
    (journal : Array (Entry M R)) :
    ∃ journal', journal'.toList = journal.toList ++ new ∧
      Work.visit engine superstep task node ⟨d, journal⟩ = .ok () ⟨e, journal'⟩ := by
  cases h with
  | @asleep slot later delivered silent halted =>
    have hnil : slot = #[] := Array.toList_eq_nil_iff.mp silent
    subst hnil
    refine ⟨journal, by simp, ?_⟩
    have htake : Work.take node ⟨d, journal⟩ =
        .ok ⟨[]⟩ ⟨⟨d.state.taken node, d.tally⟩, journal⟩ := by
      simp only [Work.take, Mailroom.take, delivered]
      rfl
    have hsleeps : Work.sleeps superstep node ⟨[]⟩
        (⟨⟨d.state.taken node, d.tally⟩, journal⟩ : Work M R) = .ok true := by
      unfold Work.sleeps
      rw [if_neg later, show (d.state.taken node).halted = d.state.halted from rfl, halted]
      rfl
    rw [visit_eq, htake]
    simp only [hsleeps]
  | @awake slot woken inits begun calls r e delivered due wake init compute =>
    obtain ⟨journal', hj, hvisit⟩ := visit_awake_eq engine task journal delivered due wake init
    refine ⟨_, ?_, by rw [hvisit]; simp only [Work.compute, compute]; rfl⟩
    rw [Array.toList_push, hj, List.append_assoc]

end BulkSync
