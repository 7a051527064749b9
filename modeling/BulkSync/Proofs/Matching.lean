import BulkSync.Proofs.Combining
import BulkSync.Proofs.VisitEffects

namespace BulkSync

variable {M R : Type}

/-- Whether an operation keeps to the node's own values. -/
def NodeOp.Keeps (node : Nat) : NodeOp M → Prop
  | .readOf _ _ other => other = node
  | _ => True

/-- A computation whose callbacks at a node read no values of other nodes, and take the messages
as they come in any order. -/
structure Computation.Local (computation : Computation M R) : Prop where
  keeps : ∀ place messages,
    (computation.compute place messages).Asks (NodeOp.Keeps place.node)
  unordered : ∀ place {l m : List M}, l.Perm m →
    computation.compute place ⟨l⟩ = computation.compute place ⟨m⟩

/-- Two states of different runs in which a node finds the same. -/
structure State.Matches (node : Nat) (s t : State M) : Prop where
  values : s.values.AgreeAt node t.values
  bit : s.halted.bit node = t.halted.bit node
  sound : s.halted.Sound
  sound' : t.halted.Sound
  nodes : t.halted.nodes = s.halted.nodes
  delivery : t.mail.delivery = s.mail.delivery
  pending : t.mail.pending.size = s.mail.pending.size
  declared : t.aggregates.declared = s.aggregates.declared
  published : t.aggregates.published = s.aggregates.published

/-- The faults by which a desk can refuse a callback that another one has served: a combiner
fails, a counter overflows, or there is no total for every aggregator. -/
def Desk.Refuses (desk : Desk M) (sends : Nat) (f : Fault) : Prop :=
  FoldFault desk.state.aggregates.declared desk.state.mail.delivery f ∨
    countLimit ≤ desk.tally.sent + sends ∨
    desk.tally.partials.length ≠ desk.state.aggregates.declared.length

theorem Served.fits {node : Nat} {call : Call (nodeSignature M)} {d e : Desk M}
    (h : Served node call d e) : d.state.Fits e.state where
  delivery := h.mail.delivery
  pending := h.mail.pending
  delivered := by rw [h.mail.delivered]
  sound := fun hs => by
    have hh := h.halted
    split at hh
    · exact (HaltSet.halt_sound hs hh).1
    · rwa [hh]
  nodes := by
    have hh := h.halted
    split at hh
    · obtain ⟨_, _, he⟩ := HaltSet.update_ok hh
      rw [he]
    · rw [hh]
  declared := by rw [h.aggregates]
  published := by rw [h.aggregates]

theorem State.Matches.of_fits {node : Nat} {s s' t t' : State M} (h : s.Matches node t)
    (hs : s.Fits s') (ht : t.Fits t') (values : s'.values.AgreeAt node t'.values)
    (bit : s'.halted.bit node = t'.halted.bit node) : s'.Matches node t' where
  values := values
  bit := bit
  sound := hs.sound h.sound
  sound' := ht.sound h.sound'
  nodes := by rw [hs.nodes, ht.nodes, h.nodes]
  delivery := by rw [hs.delivery, ht.delivery, h.delivery]
  pending := by rw [hs.pending, ht.pending, h.pending]
  declared := by rw [hs.declared, ht.declared, h.declared]
  published := by rw [hs.published, ht.published, h.published]

/-- The same call leaves matching states, if it leaves values in agreement. -/
theorem Served.matches {node : Nat} {call : Call (nodeSignature M)} {d d' e e' : Desk M}
    (hm : d.state.Matches node d'.state) (h : Served node call d e) (h' : Served node call d' e')
    (hv : e.state.values.AgreeAt node e'.state.values) : e.state.Matches node e'.state := by
  refine hm.of_fits h.fits h'.fits hv ?_
  have hh := h.halted
  have hh' := h'.halted
  split at hh
  next hvote =>
    rw [if_pos hvote] at hh'
    rw [HaltSet.halt_bit hh, HaltSet.halt_bit hh']
    simp
  next hvote =>
    rw [if_neg hvote] at hh'
    rw [hh, hh', hm.bit]

/-- What a node did to itself in one state it can do in every state that agrees with it. -/
theorem ownHandler_agree {graph : Graph} {node : Nat} {op : OwnOp} {s t s' : State M}
    {x : op.Answer} (ha : s.values.AgreeAt node t.values)
    (h : ownHandler graph node op s = .ok x s') :
    ∃ t', ownHandler graph node op t = .ok x t' ∧ s'.values.AgreeAt node t'.values := by
  cases op with
  | read sc key =>
    obtain ⟨hx, rfl⟩ := unchanged_ok h
    refine ⟨t, ?_, ha⟩
    simp only [ownHandler, ← ha.read, hx]
    rfl
  | readArray sc key =>
    obtain ⟨hx, rfl⟩ := unchanged_ok h
    refine ⟨t, ?_, ha⟩
    simp only [ownHandler, ← ha.readArray, hx]
    rfl
  | write sc key cell =>
    simp only [ownHandler] at h
    split at h
    next values hw =>
      cases h
      obtain ⟨values', hw', hagree⟩ := ha.write hw
      exact ⟨_, by simp only [ownHandler, hw']; rfl, hagree⟩
    next => cases h
  | writeArray sc key cells =>
    simp only [ownHandler] at h
    split at h
    next values hw =>
      cases h
      obtain ⟨values', hw', hagree⟩ := ha.writeArray hw
      exact ⟨_, by simp only [ownHandler, hw']; rfl, hagree⟩
    next => cases h
  | degree =>
    obtain ⟨hx, rfl⟩ := unchanged_ok h
    exact ⟨t, by simp only [ownHandler, hx]; rfl, ha⟩
  | raise signal => cases h; exact ⟨_, rfl, ha⟩

theorem perform_own_agree {graph : Graph} {node : Nat} (p : OwnProgram R) {s t s' : State M}
    {calls : List (Call ownSignature)} {r : R} (ha : s.values.AgreeAt node t.values)
    (h : p.perform (ownHandler graph node) s = ⟨s', calls, .ok r⟩) :
    ∃ t', p.perform (ownHandler graph node) t = ⟨t', calls, .ok r⟩ ∧
      s'.values.AgreeAt node t'.values := by
  induction p generalizing s t calls with
  | done a => cases h; exact ⟨t, rfl, ha⟩
  | fail f => cases h
  | call op next ih =>
    cases hop : ownHandler graph node op s with
    | error f s'' => rw [perform_call_error hop] at h; cases h
    | ok x s'' =>
      rw [perform_call_ok hop] at h
      obtain ⟨t'', hop', ha'⟩ := ownHandler_agree ha hop
      generalize hrest : (next x).perform (ownHandler graph node) s'' = rest at h
      obtain ⟨u, later, result⟩ := rest
      cases h
      obtain ⟨t', hp, hagree⟩ := ih x ha' hrest
      exact ⟨t', by rw [perform_call_ok hop', hp], hagree⟩

/-- Messages that one desk has sent another one sends too, or refuses. -/
theorem sendAll_matches {node : Nat} {m : M} {targets : List Nat} {d d' e : Desk M}
    (hm : d.state.Matches node d'.state) (h : d.sendAll m targets = .ok () e) :
    (∃ e', d'.sendAll m targets = .ok () e') ∨
      ∃ f e', d'.sendAll m targets = .error f e' ∧ d'.Refuses targets.length f := by
  obtain ⟨mail, hmail, _, _⟩ := desk_sendAll_ok h
  have hrange : ∀ target ∈ targets, target < d'.state.mail.pending.size := by
    rw [hm.pending]
    exact (Mailroom.sendAll_beside hmail).2
  rcases Mailroom.sendAll_exists m hrange with ⟨mail', hok⟩ | ⟨f, mail', hf, hfold⟩
  · simp only [Desk.sendAll, hok, Desk.countSent]
    cases hc : addCounts d'.tally.sent targets.length with
    | ok sent => exact .inl ⟨_, rfl⟩
    | error f =>
      refine .inr ⟨f, _, rfl, .inr (.inl ?_)⟩
      by_contra hlt
      rw [addCounts_eq_ok_iff.mpr ⟨rfl, Nat.lt_of_not_le hlt⟩] at hc
      cases hc
  · refine .inr ⟨f, _, by simp only [Desk.sendAll, hf]; rfl, .inl (.inr hfold)⟩

theorem desk_sendAll_values {m : M} {targets : List Nat} {d e : Desk M}
    (h : d.sendAll m targets = .ok () e) : e.state.values = d.state.values := by
  obtain ⟨mail, _, _, he⟩ := desk_sendAll_ok h
  rw [he]

/-- What one desk has contributed another one contributes too, or refuses. -/
theorem contribute_matches {node : Nat} {key : String} {y : Float} {d d' : Desk M}
    {partials : Totals} (hm : d.state.Matches node d'.state)
    (h : Totals.contribute key y d.state.aggregates.declared d.tally.partials = .ok partials) :
    (∃ partials', Totals.contribute key y d'.state.aggregates.declared d'.tally.partials =
      .ok partials') ∨
      ∃ f, Totals.contribute key y d'.state.aggregates.declared d'.tally.partials = .error f ∧
        d'.Refuses 0 f := by
  by_cases hl : d'.tally.partials.length = d'.state.aggregates.declared.length
  · obtain ⟨_, hkey⟩ := Totals.contribute_length h
    rw [← hm.declared] at hkey
    rcases Totals.contribute_exists y hl hkey with hok | ⟨f, hf, hfold⟩
    · exact .inl hok
    · exact .inr ⟨f, hf, .inl (.inl hfold)⟩
  · cases hp : Totals.contribute key y d'.state.aggregates.declared d'.tally.partials with
    | ok partials' => exact .inl ⟨partials', rfl⟩
    | error f => exact .inr ⟨f, rfl, .inr (.inr hl)⟩

/-- A call that one desk has answered another one answers the same way, or refuses. -/
theorem nodeHandler_matches {graph : Graph} {node : Nat} {op : NodeOp M} {d d' e : Desk M}
    {x : op.Answer} (hk : op.Keeps node) (hm : d.state.Matches node d'.state)
    (h : nodeHandler graph node op d = .ok x e) :
    (∃ e', nodeHandler graph node op d' = .ok x e' ∧ e.state.Matches node e'.state) ∨
      ∃ f e', nodeHandler graph node op d' = .error f e' ∧
        d'.Refuses (Call.sends ⟨op, x⟩) f := by
  -- it is enough to find an outcome with the same answer and values in agreement
  suffices hs : (∃ e', nodeHandler graph node op d' = .ok x e' ∧
      e.state.values.AgreeAt node e'.state.values) ∨
      ∃ f e', nodeHandler graph node op d' = .error f e' ∧
        d'.Refuses (Call.sends ⟨op, x⟩) f by
    rcases hs with ⟨e', he', hv⟩ | hr
    · exact .inl ⟨e', he', (nodeHandler_ok h).matches hm (nodeHandler_ok he') hv⟩
    · exact .inr hr
  cases op with
  | own op =>
    simp only [nodeHandler] at h
    split at h
    next y s hown =>
      cases h
      obtain ⟨t, ht, hv⟩ := ownHandler_agree hm.values hown
      exact .inl ⟨_, by simp only [nodeHandler, ht]; rfl, hv⟩
    next => cases h
  | readOf sc key other =>
    have hother : other = node := hk
    subst hother
    obtain ⟨hx, rfl⟩ := unchanged_ok h
    refine .inl ⟨d', ?_, hm.values⟩
    simp only [nodeHandler, ← hm.values.read, hx]
    rfl
  | neighbors =>
    obtain ⟨hx, rfl⟩ := unchanged_ok h
    exact .inl ⟨d', by simp only [nodeHandler, hx]; rfl, hm.values⟩
  | send target m =>
    rcases sendAll_matches hm h with ⟨e', he'⟩ | ⟨f, e', he', hr⟩
    · refine .inl ⟨e', he', ?_⟩
      rw [desk_sendAll_values h, desk_sendAll_values he']
      exact hm.values
    · exact .inr ⟨f, e', he', hr⟩
  | sendNeighbors m =>
    simp only [nodeHandler] at h ⊢
    cases hn : graph.neighbors node with
    | error f => rw [hn] at h; cases h
    | ok targets =>
      rw [hn] at h
      dsimp only at h ⊢
      split at h
      next e₀ hsend =>
        cases h
        rcases sendAll_matches hm hsend with ⟨e', he'⟩ | ⟨f, e', he', hr⟩
        · refine .inl ⟨e', by rw [he'], ?_⟩
          rw [desk_sendAll_values hsend, desk_sendAll_values he']
          exact hm.values
        · exact .inr ⟨f, e', by rw [he'], hr⟩
      next => cases h
  | vote =>
    simp only [nodeHandler] at h
    split at h
    next halted hhalt =>
      cases h
      have hlt := (HaltSet.update_ok hhalt).1
      obtain ⟨halted', hhalt'⟩ : ∃ halted', d'.state.halted.halt node = .ok () halted' :=
        ⟨_, HaltSet.update_exists _ hm.sound' (by rw [hm.nodes]; exact hlt)⟩
      refine .inl ⟨⟨⟨d'.state.values, halted', d'.state.mail, d'.state.aggregates,
        d'.state.signals⟩, d'.tally⟩, ?_, hm.values⟩
      simp only [nodeHandler, hhalt']
    next => cases h
  | aggregate key y =>
    simp only [nodeHandler] at h
    split at h
    next partials hp =>
      cases h
      rcases contribute_matches hm hp with ⟨partials', hp'⟩ | ⟨f, hf, hr⟩
      · refine .inl ⟨⟨d'.state, ⟨partials', d'.tally.computed, d'.tally.sent, d'.tally.ended⟩⟩, ?_,
          hm.values⟩
        simp only [nodeHandler, hp']
      · exact .inr ⟨f, d', by simp only [nodeHandler, hf], hr⟩
    next => cases h
  | aggregated key =>
    cases h
    refine .inl ⟨d', ?_, hm.values⟩
    simp only [nodeHandler, Aggregates.value?, hm.declared, hm.published]

/-- A callback that one desk has served another one serves with the same answers, or refuses. -/
theorem perform_matches {graph : Graph} {node : Nat} (p : NodeProgram M R)
    (hk : p.Asks (NodeOp.Keeps node)) {d d' e : Desk M} {calls : List (Call (nodeSignature M))}
    {r : R} (hm : d.state.Matches node d'.state)
    (h : p.perform (nodeHandler graph node) d = ⟨e, calls, .ok r⟩) :
    (∃ e', p.perform (nodeHandler graph node) d' = ⟨e', calls, .ok r⟩ ∧
      e.state.Matches node e'.state) ∨
    ∃ f e' calls', p.perform (nodeHandler graph node) d' = ⟨e', calls', .error f⟩ ∧
      d'.Refuses (calls.map Call.sends).sum f := by
  induction p generalizing d d' calls with
  | done a => cases h; exact .inl ⟨d', rfl, hm⟩
  | fail f => cases h
  | call op next ih =>
    obtain ⟨hop, hnext⟩ := hk
    cases hcall : nodeHandler graph node op d with
    | error f e₁ => rw [perform_call_error hcall] at h; cases h
    | ok x e₁ =>
      rw [perform_call_ok hcall] at h
      generalize hrest : (next x).perform (nodeHandler graph node) e₁ = rest at h
      obtain ⟨u, later, result⟩ := rest
      cases h
      rcases nodeHandler_matches hop hm hcall with ⟨e₁', hcall', hm'⟩ | ⟨f, e', hcall', hr⟩
      · rcases ih x (hnext x) hm' hrest with ⟨e', hp, he⟩ | ⟨f, e', calls', hp, hr⟩
        · exact .inl ⟨e', by rw [perform_call_ok hcall', hp], he⟩
        · refine .inr ⟨f, e', ⟨op, x⟩ :: calls', by rw [perform_call_ok hcall', hp], ?_⟩
          have hs := nodeHandler_ok hcall'
          unfold Desk.Refuses at hr ⊢
          rw [hs.aggregates, hs.mail.delivery, hs.sent, hs.length] at hr
          rw [List.map_cons, List.sum_cons, ← Nat.add_assoc]
          exact hr
      · refine .inr ⟨f, e', [], perform_call_error hcall', ?_⟩
        rw [List.map_cons, List.sum_cons]
        rcases hr with hr | hr | hr
        · exact .inl hr
        · exact .inr (.inl (by omega))
        · exact .inr (.inr hr)

end BulkSync
