import BulkSync.Proofs.Interleaving
import BulkSync.Proofs.VisitEffects
import Mathlib.Data.List.Induction

namespace BulkSync

variable {M R : Type}

def State.withAggregates (aggregates : Aggregates) (s : State M) : State M :=
  ⟨s.values, s.halted, s.mail, aggregates, s.signals⟩

/-- The rounds that moves without a fault lead to, and the callbacks they run. -/
inductive Played (engine : Engine M R) (superstep : Nat) (begun : Round M R) :
    List Move → List (Entry M R) → Round M R → Prop
  | start : Played engine superstep begun [] [] begun
  | visit {moves es round task node tally new e journal}
      (played : Played engine superstep begun moves es round)
      (found : round.tallies[task]? = some tally) (working : tally.ended = false)
      (visited : Visited engine superstep task node ⟨round.state, tally⟩ new e)
      (written : journal.toList = round.journal.toList ++ new) :
      Played engine superstep begun (moves ++ [.visit task node]) (es ++ new)
        ⟨e.state, round.tallies.setIfInBounds task e.tally, round.computed, round.sent,
          round.faults, journal⟩
  | finish {moves es round task tally aggregates}
      (played : Played engine superstep begun moves es round)
      (found : round.tallies[task]? = some tally) (working : tally.ended = false)
      (merged : round.state.aggregates.merge tally.partials = .ok aggregates) :
      Played engine superstep begun (moves ++ [.finish task]) es
        ⟨round.state.withAggregates aggregates,
          round.tallies.setIfInBounds task { tally with ended := true },
          (round.computed + tally.computed) % countLimit, (round.sent + tally.sent) % countLimit,
          round.faults, round.journal⟩

theorem aggregates_merge_ok {task : Totals} {a b : Aggregates} (h : a.merge task = .ok b) :
    b.declared = a.declared ∧ b.published = a.published ∧
      Totals.merge a.declared a.gathered task = .ok b.gathered := by
  obtain ⟨gathered, hg, hb⟩ := bind_eq_ok_iff.mp h
  cases hb
  exact ⟨rfl, rfl, hg⟩

theorem aggregates_merge_error {task : Totals} {a : Aggregates} {f : Fault}
    (h : a.merge task = .error f) : ∃ b ∈ a.declared, ∃ y z, b.combine y z = .error f := by
  cases hm : Totals.merge a.declared a.gathered task with
  | error g =>
    simp only [Aggregates.merge, hm, bind, Except.bind] at h
    cases h
    exact Totals.merge_error hm
  | ok gathered =>
    simp only [Aggregates.merge, hm, bind, Except.bind] at h
    cases h

/-- All that a round can have done before its barrier, told by the callbacks it ran. -/
structure RoundEffect (superstep : Nat) (begun : Round M R) (moves : List Move)
    (es : List (Entry M R)) (round : Round M R) : Prop where
  fits : begun.state.Fits round.state
  faults : round.faults = begun.faults
  journal : round.journal.toList = begun.journal.toList ++ es
  holds : ∀ log, begun.state.mail.Holds log →
    round.state.mail.Holds fun v => log v ++ es.flatMap (Entry.sentTo v)
  reach : ∀ v, begun.state.mail.pending.size ≤ v → es.flatMap (Entry.sentTo v) = []
  signals : round.state.signals = begun.state.signals.raiseAll (es.flatMap Entry.raised)
  entries : ∀ x ∈ es, ∃ task node, Move.visit task node ∈ moves ∧ x.node? = some node ∧
    (x.task? = none ∨ x.task? = some task) ∧ (x.superstep? = none ∨ x.superstep? = some superstep)

theorem Played.effect {engine : Engine M R} {superstep : Nat} {begun round : Round M R}
    {moves : List Move} {es : List (Entry M R)}
    (h : Played engine superstep begun moves es round) :
    RoundEffect superstep begun moves es round := by
  induction h with
  | start =>
    exact ⟨.refl _, rfl, by simp, fun log hl => by simpa using hl, fun _ _ => rfl, rfl, by simp⟩
  | @visit moves es round task node tally new e journal played found working visited written ih =>
    have hv := visited.effect
    exact {
      fits := ih.fits.trans hv.fits
      faults := ih.faults
      journal := by rw [written, ih.journal, List.append_assoc]
      holds := fun log hl => by
        have hh := hv.holds _ (ih.holds log hl)
        simpa using hh
      reach := fun v hn => by
        rw [List.flatMap_append, ih.reach v hn, hv.reach v (ih.fits.pending ▸ hn)]
        rfl
      signals := by
        rw [List.flatMap_append, raiseAll_append, ← ih.signals]
        exact hv.signals
      entries := by
        intro x hx
        rcases List.mem_append.mp hx with hx | hx
        · obtain ⟨t, v, hm, hrest⟩ := ih.entries x hx
          exact ⟨t, v, List.mem_append_left _ hm, hrest⟩
        · exact ⟨task, node, by simp, hv.entries x hx⟩ }
  | @finish moves es round task tally aggregates played found working merged ih =>
    obtain ⟨hdeclared, hpublished, _⟩ := aggregates_merge_ok merged
    have hfits : round.state.Fits (round.state.withAggregates aggregates) :=
      ⟨rfl, rfl, rfl, id, rfl, hdeclared, hpublished⟩
    exact {
      fits := ih.fits.trans hfits
      faults := ih.faults
      journal := ih.journal
      holds := ih.holds
      reach := ih.reach
      signals := ih.signals
      entries := by
        intro x hx
        obtain ⟨t, v, hm, hrest⟩ := ih.entries x hx
        exact ⟨t, v, List.mem_append_left _ hm, hrest⟩ }

/-- The tasks that have ended are those that have handed over. -/
theorem Played.ended {engine : Engine M R} {superstep tasks : Nat} {s : State M}
    {journal : Array (Entry M R)} {moves : List Move} {es : List (Entry M R)} {round : Round M R}
    (h : Played engine superstep (.start s tasks journal) moves es round) :
    round.tallies.size = tasks ∧ ∀ task tally, round.tallies[task]? = some tally →
      (tally.ended = true ↔ Move.finish task ∈ moves) := by
  induction h with
  | start =>
    refine ⟨by simp [Round.start], fun task tally ht => ?_⟩
    simp only [Round.start, Array.getElem?_replicate] at ht
    split at ht
    next => cases ht; simp
    next => cases ht
  | @visit moves es round task node tally new e journal played found working visited written ih =>
    refine ⟨by simpa using ih.1, fun t other ht => ?_⟩
    by_cases he : task = t
    · subst he
      have hlt := (Array.getElem?_eq_some_iff.mp found).1
      simp only [Array.getElem?_setIfInBounds_self_of_lt hlt, Option.some.injEq] at ht
      rw [← ht, visited.effect.ended, ih.2 task tally found]
      simp
    · simp only [Array.getElem?_setIfInBounds_ne he] at ht
      rw [ih.2 t other ht]
      simp
  | @finish moves es round task tally aggregates played found working merged ih =>
    refine ⟨by simpa using ih.1, fun t other ht => ?_⟩
    by_cases he : task = t
    · subst he
      have hlt := (Array.getElem?_eq_some_iff.mp found).1
      simp only [Array.getElem?_setIfInBounds_self_of_lt hlt, Option.some.injEq] at ht
      simp [← ht]
    · simp only [Array.getElem?_setIfInBounds_ne he] at ht
      rw [ih.2 t other ht]
      simp [Ne.symm he]

/-- A round without a fault so far plays the next move of a task that works, or ends the task
with a fault. -/
theorem Played.move {engine : Engine M R} {superstep : Nat} {begun round : Round M R}
    {moves : List Move} {es : List (Entry M R)} {tally : Tally} (m : Move)
    (h : Played engine superstep begun moves es round)
    (found : round.tallies[m.task]? = some tally) (working : tally.ended = false) :
    (∃ new, Played engine superstep begun (moves ++ [m]) (es ++ new)
        (round.move engine superstep m)) ∨
      ∃ f, (round.move engine superstep m).faults = round.faults ++ [f] := by
  cases m with
  | visit task node =>
    have hfound : round.tallies[task]? = some tally := found
    simp only [Round.move, Round.visit, hfound, working, Bool.false_eq_true, if_false]
    cases hw : Work.visit engine superstep task node ⟨⟨round.state, tally⟩, round.journal⟩ with
    | ok u work =>
      obtain ⟨new, hv, hj⟩ := visit_ok hw
      exact .inl ⟨new, .visit h hfound working hv hj⟩
    | error f work => exact .inr ⟨f, rfl⟩
  | finish task =>
    have hfound : round.tallies[task]? = some tally := found
    simp only [Round.move, Round.finish, hfound, working, Bool.false_eq_true, if_false]
    cases hm : round.state.aggregates.merge tally.partials with
    | ok aggregates =>
      refine .inl ⟨[], ?_⟩
      rw [List.append_nil]
      exact .finish h hfound working hm
    | error f => exact .inr ⟨f, rfl⟩

theorem faults_grow (engine : Engine M R) (superstep : Nat) (m : Move) (round : Round M R) :
    ∃ more, (round.move engine superstep m).faults = round.faults ++ more := by
  cases m with
  | visit task node =>
    simp only [Round.move, Round.visit]
    split
    next => exact ⟨[], by simp⟩
    next =>
      split
      next => exact ⟨[], by simp⟩
      next =>
        split
        next => exact ⟨[], by simp⟩
        next f _ _ => exact ⟨[f], rfl⟩
  | finish task =>
    simp only [Round.move, Round.finish]
    split
    next => exact ⟨[], by simp⟩
    next =>
      split
      next => exact ⟨[], by simp⟩
      next =>
        split
        next => exact ⟨[], by simp⟩
        next f _ => exact ⟨[f], rfl⟩

theorem visit_fault {engine : Engine M R} {superstep task node : Nat} {round : Round M R}
    {f : Fault} (hn : round.faults = [])
    (h : (round.move engine superstep (.visit task node)).faults = [f]) :
    ∃ tally work, round.tallies[task]? = some tally ∧
      Work.visit engine superstep task node ⟨⟨round.state, tally⟩, round.journal⟩ =
        .error f work := by
  simp only [Round.move, Round.visit] at h
  split at h
  next => rw [hn] at h; cases h
  next tally htally =>
    split at h
    next => rw [hn] at h; cases h
    next =>
      split at h
      next => rw [hn] at h; cases h
      next g work hw =>
        simp only [hn, List.nil_append, List.cons.injEq, and_true] at h
        exact ⟨tally, work, htally, h ▸ hw⟩

theorem finish_fault {engine : Engine M R} {superstep task : Nat} {round : Round M R}
    {f : Fault} (hn : round.faults = [])
    (h : (round.move engine superstep (.finish task)).faults = [f]) :
    ∃ tally, round.tallies[task]? = some tally ∧
      round.state.aggregates.merge tally.partials = .error f := by
  simp only [Round.move, Round.finish] at h
  split at h
  next => rw [hn] at h; cases h
  next tally htally =>
    split at h
    next => rw [hn] at h; cases h
    next =>
      split at h
      next => rw [hn] at h; cases h
      next g hg =>
        simp only [hn, List.nil_append, List.cons.injEq, and_true] at h
        exact ⟨tally, htally, h ▸ hg⟩

/-- Executing the moves of all tasks in some order leads to a round without a fault, or the first
fault is one of those that a move after faultless moves can end with. -/
theorem played_or_fault (engine : Engine M R) (superstep : Nat) (s : State M)
    (journal : Array (Entry M R)) {partitions : List Partition} {moves : List Move}
    (hi : Interleaves partitions moves) (bad : Fault → Prop)
    (hbad : ∀ done m rest es round f, moves = done ++ m :: rest →
      Played engine superstep (.start s partitions.length journal) done es round →
      (round.move engine superstep m).faults = [f] → bad f) :
    (∃ es, Played engine superstep (.start s partitions.length journal) moves es
        (moves.foldl (Round.move engine superstep) (.start s partitions.length journal))) ∨
      ∃ f rest, (moves.foldl (Round.move engine superstep)
        (.start s partitions.length journal)).faults = f :: rest ∧ bad f := by
  suffices h : ∀ done rest, moves = done ++ rest →
      (∃ es, Played engine superstep (.start s partitions.length journal) done es
          (done.foldl (Round.move engine superstep) (.start s partitions.length journal))) ∨
        ∃ f later, (done.foldl (Round.move engine superstep)
          (.start s partitions.length journal)).faults = f :: later ∧ bad f from
    h moves [] (by simp)
  -- induction on the moves played so far: after a fault the tasks move on, but it stays the first
  intro done
  induction done using List.reverseRecOn with
  | nil => exact fun _ _ => .inl ⟨[], .start⟩
  | append_singleton done m ih =>
    intro rest hmoves
    rw [List.append_assoc, List.singleton_append] at hmoves
    rw [List.foldl_append, List.foldl_cons, List.foldl_nil]
    rcases ih (m :: rest) hmoves with ⟨es, hp⟩ | ⟨f, later, hf, hb⟩
    · obtain ⟨hlt, hnew⟩ := Interleaves.pending (hmoves ▸ hi)
      obtain ⟨hsize, hended⟩ := hp.ended
      have hget := Array.getElem?_eq_getElem (hsize ▸ hlt :
        m.task < (done.foldl (Round.move engine superstep) _).tallies.size)
      have hworking := mt (hended _ _ hget).mp hnew
      rcases hp.move m hget (Bool.eq_false_iff.mpr hworking) with ⟨new, hp'⟩ | ⟨f, hf⟩
      · exact .inl ⟨es ++ new, hp'⟩
      · rw [hp.effect.faults] at hf
        exact .inr ⟨f, [], hf, hbad done m rest es _ f hmoves hp hf⟩
    · obtain ⟨more, hmore⟩ := faults_grow engine superstep m
        (done.foldl (Round.move engine superstep) (.start s partitions.length journal))
      exact .inr ⟨f, later ++ more, by rw [hmore, hf]; rfl, hb⟩

end BulkSync
