import BulkSync.Proofs.Combining
import BulkSync.Proofs.DoubleBuffers

namespace BulkSync

variable {M : Type}

/-- Histories that differ only in the order of what was asked between two turns, before the first
one or after the last one. -/
inductive Reordered : List (MailOp M) → List (MailOp M) → Prop
  | period {ops ops'} (still : ∀ op ∈ ops, op.isTurn = false) (same : ops.Perm ops') :
      Reordered ops ops'
  | turn {earlier earlier' ops ops'} (before : Reordered earlier earlier')
      (still : ∀ op ∈ ops, op.isTurn = false) (same : ops.Perm ops') :
      Reordered (earlier ++ .turn :: ops) (earlier' ++ .turn :: ops')

theorem sinceTurn_still {ops : List (MailOp M)} (h : ∀ op ∈ ops, op.isTurn = false) :
    sinceTurn ops = ops :=
  sinceTurn_append [] h

theorem untilTurn_still {ops : List (MailOp M)} (h : ∀ op ∈ ops, op.isTurn = false) :
    untilTurn ops = [] :=
  untilTurn_append [] h

theorem sinceTurn_period {earlier ops : List (MailOp M)} (h : ∀ op ∈ ops, op.isTurn = false) :
    sinceTurn (earlier ++ .turn :: ops) = ops := by
  rw [List.append_cons, sinceTurn_append _ h, sinceTurn_turn, List.nil_append]

theorem untilTurn_period {earlier ops : List (MailOp M)} (h : ∀ op ∈ ops, op.isTurn = false) :
    untilTurn (earlier ++ .turn :: ops) = earlier := by
  rw [List.append_cons, untilTurn_append _ h, untilTurn_turn]

theorem still_of_perm {ops ops' : List (MailOp M)} (h : ∀ op ∈ ops, op.isTurn = false)
    (same : ops.Perm ops') : ∀ op ∈ ops', op.isTurn = false :=
  fun op hop => h op (same.mem_iff.mpr hop)

namespace Reordered

variable {ops ops' : List (MailOp M)}

theorem perm (h : Reordered ops ops') : ops.Perm ops' := by
  induction h with
  | period _ same => exact same
  | turn _ _ same ih => exact ih.append (same.cons _)

theorem sinceTurn (h : Reordered ops ops') : (sinceTurn ops).Perm (sinceTurn ops') := by
  cases h with
  | period still same =>
    rwa [sinceTurn_still still, sinceTurn_still (still_of_perm still same)]
  | turn _ still same =>
    rwa [sinceTurn_period still, sinceTurn_period (still_of_perm still same)]

theorem untilTurn (h : Reordered ops ops') : Reordered (untilTurn ops) (untilTurn ops') := by
  cases h with
  | period still same =>
    rw [untilTurn_still still, untilTurn_still (still_of_perm still same)]
    exact .period (by simp) .nil
  | turn before still same =>
    rwa [untilTurn_period still, untilTurn_period (still_of_perm still same)]

/-- What is due to a node does not change but for its order. -/
theorem due (h : Reordered ops ops') (node : Nat) : (due node ops).Perm (due node ops') := by
  have htaken := h.sinceTurn.any_eq (f := MailOp.takes node)
  have hsent : (sentTo node (lastPeriod ops)).Perm (sentTo node (lastPeriod ops')) :=
    h.untilTurn.sinceTurn.filterMap _
  unfold BulkSync.due
  rw [htaken]
  split
  next => exact .nil
  next => exact hsent

theorem receivers (h : Reordered ops ops') (nodes : Nat) :
    receivers nodes ops' = receivers nodes ops := by
  unfold BulkSync.receivers
  rw [h.perm.any_eq]

end Reordered

/-- As long as its combiner does not fail, a mailroom that folds messages hands out one message for
a receiver where one that keeps them hands out a list, the fold of this list from the left, and
nothing where the other one hands out nothing; neither hands out anything for whoever is not a
receiver. If the combiner is associative and commutative, what is handed out does not depend on the
order of what was sent between two turns. -/
theorem combined_folds_queued {memory memory' : Memory} {combine : Combiner M} {nodes : Nat}
    {queue slots : Mailroom M} (created : Mailroom.create memory .queued nodes = .ok queue)
    (created' : Mailroom.create memory' (.combined combine) nodes = .ok slots)
    {ops : List (MailOp M)} (calm : slots.Calm ops) :
    (∀ node < receivers nodes ops, ∃ messages received queue' slots',
      (queue.after ops).take node = .ok ⟨messages⟩ queue' ∧
      (slots.after ops).take node = .ok ⟨received⟩ slots' ∧
      (messages = [] → received = []) ∧
      (messages ≠ [] → ∃ m, combine.fold messages = .ok (some m) ∧ received = [m])) ∧
    (∀ node, receivers nodes ops ≤ node → ∃ f,
      (queue.after ops).take node = .error f (queue.after ops) ∧
      (slots.after ops).take node = .error f (slots.after ops)) ∧
    (combine.Lawful → ∀ ops', Reordered ops ops' → slots.Calm ops' →
      ∀ node messages slots', (slots.after ops).take node = .ok messages slots' →
        ∃ slots'', (slots.after ops').take node = .ok messages slots'') := by
  have hqueue : queue.Keeps .queued nodes [] := .create created
  have hslots : slots.Keeps (.combined combine) nodes [] := .create created'
  have hq := hqueue.after (Mailroom.calm_of_total (hqueue.kept ▸ trivial) ops)
  have hs := hslots.after calm
  refine ⟨fun node hn => ?_, fun node hn => ?_, fun lawful ops' hreordered calm' node => ?_⟩
  · obtain ⟨messages, queue', hqtake, hall⟩ := hq.taken hn
    obtain ⟨received, slots', hstake, folded, hfold, hreceived⟩ := hs.taken hn
    have hmessages : messages = due node ops := hall
    rw [← hmessages] at hfold
    refine ⟨messages, received, queue', slots', hqtake, hstake, ?_, ?_⟩
    · rintro rfl
      cases hfold
      exact hreceived
    · intro hne
      cases folded with
      | none => exact absurd (fold_eq_none hfold) hne
      | some m => exact ⟨m, hfold, hreceived⟩
  · exact ⟨_, hq.take_outside hn, hs.take_outside hn⟩
  · intro messages slots' htake
    have hs' := hslots.after calm'
    have hn : node < receivers nodes ops := by
      by_contra hge
      rw [hs.take_outside (Nat.le_of_not_lt hge)] at htake
      cases htake
    obtain ⟨received, next, hstake, folded, hfold, hreceived⟩ := hs.taken hn
    obtain ⟨received', next', hstake', folded', hfold', hreceived'⟩ :=
      hs'.taken (by rwa [hreordered.receivers nodes])
    have hsame : folded = folded' := fold_eq_of_perm lawful (hreordered.due node) hfold hfold'
    have hequal : received' = received := by rw [hreceived', hreceived, hsame]
    rw [hstake] at htake
    cases htake
    exact ⟨next', by rw [hstake', hequal]⟩

/-- Of two numbers sent to a node, one mailroom hands out both and the other one their sum, in
whichever order they are sent; the sum might have overflowed. -/
theorem combined_folds_two : ∃ (queue slots queue' slots' slots'' : Mailroom Int64),
    Mailroom.create .addressable .queued 1 = .ok queue ∧
    Mailroom.create .addressable (.combined addLongs) 1 = .ok slots ∧
    (queue.after [.send 0 3, .send 0 1, .turn]).take 0 = .ok ⟨[3, 1]⟩ queue' ∧
    (slots.after [.send 0 3, .send 0 1, .turn]).take 0 = .ok ⟨[4]⟩ slots' ∧
    (slots.after [.send 0 1, .send 0 3, .turn]).take 0 = .ok ⟨[4]⟩ slots'' := by
  have hqueue : Mailroom.create (M := Int64) .addressable .queued 1 =
      .ok ⟨.queued, #[#[]], #[#[]]⟩ := rfl
  have hslots : Mailroom.create (M := Int64) .addressable (.combined addLongs) 1 =
      .ok ⟨.combined addLongs, #[#[]], #[#[]]⟩ := rfl
  have hcalm : Mailroom.Calm (⟨.combined addLongs, #[#[]], #[#[]]⟩ : Mailroom Int64)
      [.send 0 3, .send 0 1, .turn] := Mailroom.calm_two rfl rfl
  have hcalm' : Mailroom.Calm (⟨.combined addLongs, #[#[]], #[#[]]⟩ : Mailroom Int64)
      [.send 0 1, .send 0 3, .turn] := Mailroom.calm_two rfl rfl
  have hperiod : Reordered [MailOp.send 0 (3 : Int64), .send 0 1] [.send 0 1, .send 0 3] :=
    .period (by simp [MailOp.isTurn]) (.swap _ _ _)
  have hreordered := hperiod.turn (by simp) (.refl [])
  obtain ⟨hfolds, _, hlawful⟩ := combined_folds_queued hqueue hslots hcalm
  obtain ⟨messages, received, queue', slots', hqtake, hstake, _, hfolded⟩ := hfolds 0 (by decide)
  have hmessages : messages = [3, 1] := by
    cases hqtake
    rfl
  subst hmessages
  obtain ⟨m, hm, rfl⟩ := hfolded (by simp)
  cases hm
  obtain ⟨slots'', hstake'⟩ := hlawful addLongs_lawful _ hreordered hcalm' 0 _ _ hstake
  exact ⟨_, _, queue', slots', slots'', hqueue, hslots, hqtake, hstake, hstake'⟩

end BulkSync
