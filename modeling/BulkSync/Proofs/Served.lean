import BulkSync.Proofs.Gathering
import BulkSync.Proofs.Journal
import BulkSync.Proofs.Performance
import BulkSync.Proofs.StoreWrites

namespace BulkSync

variable {M : Type}

def Signals.raiseAll (raised : List Signal) (signals : Signals) : Signals :=
  raised.foldl (fun signals signal => signals.raise signal) signals

/-- All that an answered operation of a node on its own can have done. -/
structure OwnServed (node : Nat) (call : Call ownSignature) (s t : State M) : Prop where
  mail : t.mail = s.mail
  halted : t.halted = s.halted
  aggregates : t.aggregates = s.aggregates
  signals : t.signals = s.signals.raiseAll call.ownRaised
  values : ∀ other, other ≠ node → s.values.AgreeAt other t.values

/-- All that an answered operation of a computing node can have done. -/
structure Served (node : Nat) (call : Call (nodeSignature M)) (d e : Desk M) : Prop where
  mail : d.state.mail.Beside e.state.mail
  holds : ∀ log, d.state.mail.Holds log → e.state.mail.Holds fun v => log v ++ call.sentTo v
  reach : ∀ v, d.state.mail.pending.size ≤ v → call.sentTo v = []
  halted : if call.isVote then d.state.halted.halt node = .ok () e.state.halted
    else e.state.halted = d.state.halted
  aggregates : e.state.aggregates = d.state.aggregates
  signals : e.state.signals = d.state.signals.raiseAll call.raised
  values : ∀ other, other ≠ node → d.state.values.AgreeAt other e.state.values
  computed : e.tally.computed = d.tally.computed
  ended : e.tally.ended = d.tally.ended
  sent : e.tally.sent = d.tally.sent + call.sends
  length : e.tally.partials.length = d.tally.partials.length
  partials : ∀ given, (d.state.aggregates.declared.map Aggregator.key).Nodup →
    Totals.Gathers d.state.aggregates.declared given d.tally.partials →
    Totals.Gathers d.state.aggregates.declared (fun key => given key ++ call.gave key)
      e.tally.partials

theorem unchanged_ok {σ α : Type} {result : Except Fault α} {s t : σ} {x : α}
    (h : unchanged result s = .ok x t) : result = .ok x ∧ t = s := by
  cases result with
  | ok y => cases h; exact ⟨rfl, rfl⟩
  | error f => cases h

theorem unchanged_error {σ α : Type} {result : Except Fault α} {s t : σ} {fault : Fault}
    (h : unchanged result s = .error fault t) : t = s := by
  cases result with
  | ok y => cases h
  | error f => cases h; rfl

theorem OwnServed.still {node : Nat} {call : Call ownSignature} (s : State M)
    (h : call.ownRaised = []) : OwnServed node call s s :=
  ⟨rfl, rfl, rfl, by rw [h]; rfl, fun other _ => .refl other _⟩

theorem ownHandler_ok {graph : Graph} {node : Nat} {op : OwnOp} {s t : State M} {x : op.Answer}
    (h : ownHandler graph node op s = .ok x t) : OwnServed node ⟨op, x⟩ s t := by
  cases op with
  | read sc key => obtain ⟨_, rfl⟩ := unchanged_ok h; exact .still _ rfl
  | readArray sc key => obtain ⟨_, rfl⟩ := unchanged_ok h; exact .still _ rfl
  | write sc key cell =>
    simp only [ownHandler] at h
    split at h
    next values hw =>
      cases h
      exact ⟨rfl, rfl, rfl, rfl, fun _ hne => ValueStore.write_frame hne hw⟩
    next => cases h
  | writeArray sc key cells =>
    simp only [ownHandler] at h
    split at h
    next values hw =>
      cases h
      exact ⟨rfl, rfl, rfl, rfl, fun _ hne => ValueStore.writeArray_frame hne hw⟩
    next => cases h
  | degree => obtain ⟨_, rfl⟩ := unchanged_ok h; exact .still _ rfl
  | raise signal => cases h; exact ⟨rfl, rfl, rfl, rfl, fun other _ => .refl other _⟩

/-- What a node does to itself concerns its values and the signals only. -/
theorem ownHandler_mapState {graph : Graph} {node : Nat} {f : State M → State M}
    (hread : ∀ s, (f s).values = s.values)
    (hwrite : ∀ s values, { f s with values := values } = f { s with values := values })
    (hraise : ∀ s signal, { f s with signals := (f s).signals.raise signal } =
      f { s with signals := s.signals.raise signal }) (op : OwnOp) (s : State M) :
    ownHandler graph node op (f s) = Outcome.mapState f (ownHandler graph node op s) := by
  cases op with
  | read sc key =>
    simp only [ownHandler, unchanged, hread]
    cases s.values.read sc key node <;> rfl
  | readArray sc key =>
    simp only [ownHandler, unchanged, hread]
    cases s.values.readArray sc key node <;> rfl
  | write sc key cell =>
    simp only [ownHandler, hread]
    cases s.values.write sc key node cell <;> simp only [hwrite, Outcome.mapState]
  | writeArray sc key cells =>
    simp only [ownHandler, hread]
    cases s.values.writeArray sc key node cells <;> simp only [hwrite, Outcome.mapState]
  | degree =>
    simp only [ownHandler, unchanged]
    cases graph.degree node <;> rfl
  | raise signal => exact congrArg _ (hraise s signal)

/-- A call that sends, votes, raises and contributes nothing may leave the desk as it is. -/
theorem Served.still {node : Nat} {call : Call (nodeSignature M)} (d : Desk M)
    (hsent : ∀ v, call.sentTo v = []) (hvote : call.isVote = false) (hraised : call.raised = [])
    (hsends : call.sends = 0) (hgave : ∀ key, call.gave key = []) : Served node call d d where
  mail := .refl _
  holds := fun log hl => by simpa [hsent] using hl
  reach := fun v _ => hsent v
  halted := by simp [hvote]
  aggregates := rfl
  signals := by rw [hraised]; rfl
  values := fun other _ => .refl other _
  computed := rfl
  ended := rfl
  sent := by rw [hsends, Nat.add_zero]
  length := rfl
  partials := fun given _ hg => by simpa [hgave] using hg

theorem desk_sendAll_ok {m : M} {targets : List Nat} {d e : Desk M}
    (h : d.sendAll m targets = .ok () e) :
    ∃ mail, d.state.mail.sendAll m targets = .ok () mail ∧
      addCounts d.tally.sent targets.length = .ok e.tally.sent ∧
      e = ⟨{ d.state with mail }, { d.tally with sent := e.tally.sent }⟩ := by
  simp only [Desk.sendAll] at h
  split at h
  next mail hmail =>
    simp only [Desk.countSent] at h
    split at h
    next sent hsent => cases h; exact ⟨mail, hmail, hsent, rfl⟩
    next => cases h
  next => cases h

theorem served_sendAll {node : Nat} {call : Call (nodeSignature M)} {m : M} {targets : List Nat}
    {d e : Desk M} (h : d.sendAll m targets = .ok () e)
    (hsent : ∀ v, call.sentTo v = List.replicate (targets.count v) m)
    (hvote : call.isVote = false) (hraised : call.raised = [])
    (hsends : call.sends = targets.length) (hgave : ∀ key, call.gave key = []) :
    Served node call d e := by
  obtain ⟨mail, hmail, hcount, he⟩ := desk_sendAll_ok h
  obtain ⟨hsum, _⟩ := addCounts_eq_ok_iff.mp hcount
  obtain ⟨hbeside, htargets⟩ := Mailroom.sendAll_beside hmail
  have hreach : ∀ v, d.state.mail.pending.size ≤ v → targets.count v = 0 := by
    intro v hv
    refine List.count_eq_zero.mpr fun hm => ?_
    have hlt := htargets v hm
    omega
  rw [he]
  exact {
    mail := hbeside
    holds := fun log hl => by simpa only [hsent] using Mailroom.sendAll_holds hl hmail
    reach := fun v hv => by rw [hsent, hreach v hv]; rfl
    halted := by simp [hvote]
    aggregates := rfl
    signals := by rw [hraised]; rfl
    values := fun other _ => .refl other _
    computed := rfl
    ended := rfl
    sent := by rw [hsends]; exact hsum
    length := rfl
    partials := fun given _ hg => by simpa [hgave] using hg }

theorem nodeHandler_ok {graph : Graph} {node : Nat} {op : NodeOp M} {d e : Desk M} {x : op.Answer}
    (h : nodeHandler graph node op d = .ok x e) : Served node ⟨op, x⟩ d e := by
  cases op with
  | own op =>
    simp only [nodeHandler] at h
    split at h
    next y t hown =>
      cases h
      have ho := ownHandler_ok hown
      exact {
        mail := by rw [ho.mail]; exact .refl _
        holds := fun log hl => by simpa [ho.mail, Call.sentTo] using hl
        reach := fun _ _ => rfl
        halted := by simp [Call.isVote, ho.halted]
        aggregates := ho.aggregates
        signals := ho.signals
        values := ho.values
        computed := rfl
        ended := rfl
        sent := rfl
        length := rfl
        partials := fun given _ hg => by simpa [Call.gave] using hg }
    next => cases h
  | readOf sc key other =>
    obtain ⟨_, rfl⟩ := unchanged_ok h
    exact .still _ (fun _ => rfl) rfl rfl rfl fun _ => rfl
  | neighbors =>
    obtain ⟨_, rfl⟩ := unchanged_ok h
    exact .still _ (fun _ => rfl) rfl rfl rfl fun _ => rfl
  | send target m =>
    refine served_sendAll h ?_ rfl rfl rfl fun _ => rfl
    intro v
    by_cases hv : target = v <;> simp [Call.sentTo, hv]
  | sendNeighbors m =>
    simp only [nodeHandler] at h
    split at h
    next => cases h
    next targets _ =>
      split at h
      next e' hsend =>
        cases h
        exact served_sendAll hsend (fun _ => rfl) rfl rfl rfl fun _ => rfl
      next => cases h
  | vote =>
    simp only [nodeHandler] at h
    split at h
    next halted hhalt =>
      cases h
      exact {
        mail := .refl _
        holds := fun log hl => by simpa [Call.sentTo] using hl
        reach := fun _ _ => rfl
        halted := by simpa [Call.isVote] using hhalt
        aggregates := rfl
        signals := rfl
        values := fun other _ => .refl other _
        computed := rfl
        ended := rfl
        sent := rfl
        length := rfl
        partials := fun given _ hg => by simpa [Call.gave] using hg }
    next => cases h
  | aggregate key y =>
    simp only [nodeHandler] at h
    split at h
    next partials hp =>
      cases h
      exact {
        mail := .refl _
        holds := fun log hl => by simpa [Call.sentTo] using hl
        reach := fun _ _ => rfl
        halted := by simp [Call.isVote]
        aggregates := rfl
        signals := rfl
        values := fun other _ => .refl other _
        computed := rfl
        ended := rfl
        sent := rfl
        length := (Totals.contribute_length hp).1
        partials := fun given hd hg => Totals.contribute_gathers hd hg hp }
    next => cases h
  | aggregated key =>
    cases h
    exact .still _ (fun _ => rfl) rfl rfl rfl fun _ => rfl

end BulkSync
