import BulkSync.Proofs.NodeTurns
import BulkSync.Proofs.Supersteps

namespace BulkSync

variable {M R : Type}

/-- The engines that can be built for a graph and a computation: a created one, and what is left
of it when another signal is watched or a signal is raised. -/
inductive Engine.Built (memory : Memory) (graph : Graph) (config : Config)
    (computation : Computation M R) (delivery : Delivery M) : Engine M R → Prop
  | create {signals engine}
      (h : Engine.create memory signals graph config computation delivery = .ok engine) :
      Built memory graph config computation delivery engine
  | watch {engine} (signal : Signal)
      (built : Built memory graph config computation delivery engine) :
      Built memory graph config computation delivery (engine.watch signal)
  | raise {engine} (signal : Signal)
      (built : Built memory graph config computation delivery engine) :
      Built memory graph config computation delivery (engine.raise signal)

/-- An engine that has not run yet. -/
structure Engine.Ready (engine : Engine M R) (delivery : Delivery M) : Prop where
  strategy : engine.config.strategy engine.graph = .ok engine.strategy
  mail : engine.state.mail =
    ⟨delivery, .replicate engine.graph.nodes #[], .replicate engine.graph.nodes #[]⟩
  sound : engine.state.halted.Sound
  nodes : engine.state.halted.nodes = engine.graph.nodes
  awake : ∀ node, engine.state.halted.bit node = false
  keys : (engine.computation.aggregators.map Aggregator.key).Nodup
  aggregates : engine.state.aggregates = ⟨engine.computation.aggregators,
    .blank engine.computation.aggregators, .blank engine.computation.aggregators⟩

theorem exists_of_any {ε α : Type} {e : Except ε α} {f : α → Bool}
    (h : e.toOption.any f = true) : ∃ a, e = .ok a ∧ f a = true := by
  cases e with
  | ok a => exact ⟨a, rfl, h⟩
  | error x => cases h

/-- Three nodes in a row, with edges both ways between neighbors. -/
def threeInARow : Graph :=
  (⟨#[0, 1, 3, 4], #[1, 0, 2, 1]⟩ : Adjacency).toGraph

theorem orFailure_ok {α : Type} {result : Except Fault α} {a : α}
    (h : orFailure result = .ok a) : result = .ok a := by
  cases result with
  | ok b => cases h; rfl
  | error f => cases h

theorem engine_create_ok {memory : Memory} {signals : Signals} {graph : Graph} {config : Config}
    {computation : Computation M R} {delivery : Delivery M} {engine : Engine M R}
    (h : Engine.create memory signals graph config computation delivery = .ok engine) :
    ∃ schema values halted mail strategy aggregates,
      ValueStore.create memory schema graph.nodes = .ok values ∧
      Schema.ofFields computation.fields = .ok schema ∧
      HaltSet.create memory graph.nodes = .ok halted ∧
      Mailroom.create memory delivery graph.nodes = .ok mail ∧
      config.strategy graph = .ok strategy ∧
      Aggregates.create computation.aggregators = .ok aggregates ∧
      engine = ⟨graph, config, computation, strategy, signals.create.1,
        ⟨values, halted, mail, aggregates, signals.create.2⟩⟩ := by
  simp only [Engine.create, bind_eq_ok_iff] at h
  obtain ⟨_, _, schema, hschema, values, hvalues, halted, hhalted, mail, hmail, strategy, hstrategy,
    aggregates, haggregates, hengine⟩ := h
  cases hengine
  exact ⟨schema, values, halted, mail, strategy, aggregates, hvalues, orFailure_ok hschema, hhalted,
    hmail, orFailure_ok hstrategy, orFailure_ok haggregates, rfl⟩

theorem Engine.Built.parts {memory : Memory} {graph : Graph} {config : Config}
    {computation : Computation M R} {delivery : Delivery M} {engine : Engine M R}
    (h : Engine.Built memory graph config computation delivery engine) :
    engine.graph = graph ∧ engine.config = config ∧ engine.computation = computation := by
  induction h with
  | create h =>
    obtain ⟨_, _, _, _, _, _, _, _, _, _, _, _, rfl⟩ := engine_create_ok h
    exact ⟨rfl, rfl, rfl⟩
  | watch signal built ih => exact ih
  | raise signal built ih => exact ih

/-- The values and the halt bits an engine starts with do not depend on its configuration. -/
theorem Engine.Built.beginning {memory : Memory} {graph : Graph} {config : Config}
    {computation : Computation M R} {delivery : Delivery M} {engine : Engine M R}
    (h : Engine.Built memory graph config computation delivery engine) :
    ∃ schema, Schema.ofFields computation.fields = .ok schema ∧
      ValueStore.create memory schema graph.nodes = .ok engine.state.values ∧
      HaltSet.create memory graph.nodes = .ok engine.state.halted := by
  induction h with
  | create h =>
    obtain ⟨schema, values, halted, mail, strategy, aggregates, hvalues, hschema, hhalted, _, _, _,
      rfl⟩ := engine_create_ok h
    exact ⟨schema, hschema, hvalues, hhalted⟩
  | watch signal built ih => exact ih
  | raise signal built ih => exact ih

/-- What was checked of the settings of an engine. -/
theorem Engine.Built.validated {memory : Memory} {graph : Graph} {config : Config}
    {computation : Computation M R} {delivery : Delivery M} {engine : Engine M R}
    (h : Engine.Built memory graph config computation delivery engine) :
    config.validate = .ok () := by
  induction h with
  | create h =>
    obtain ⟨_, hvalid, _⟩ := bind_eq_ok_iff.mp h
    exact hvalid
  | watch signal built ih => exact ih
  | raise signal built ih => exact ih

theorem Config.maxSupersteps_pos {config : Config} (h : config.validate = .ok ()) :
    0 < config.maxSupersteps := by
  unfold Config.validate at h
  split at h
  next => cases h
  next =>
    split at h
    next => cases h
    next hne => exact Nat.pos_of_ne_zero hne

theorem Engine.Built.ready {memory : Memory} {graph : Graph} {config : Config}
    {computation : Computation M R} {delivery : Delivery M} {engine : Engine M R}
    (h : Engine.Built memory graph config computation delivery engine) : engine.Ready delivery := by
  induction h with
  | create h =>
    obtain ⟨schema, values, halted, mail, strategy, aggregates, _, _, hhalted, hmail, hstrategy,
      haggregates, rfl⟩ := engine_create_ok h
    obtain ⟨hsound, hnodes, hbits⟩ := HaltSet.create_ok hhalted
    obtain ⟨hagg, hkeys⟩ := Aggregates.create_ok haggregates
    exact ⟨hstrategy, Mailroom.create_ok hmail, hsound, hnodes, hbits, hkeys, hagg⟩
  | watch signal built ih => exact ⟨ih.1, ih.2, ih.3, ih.4, ih.5, ih.6, ih.7⟩
  | raise signal built ih => exact ⟨ih.1, ih.2, ih.3, ih.4, ih.5, ih.6, ih.7⟩

/-- What holds of the state at every boundary, told by the journal up to there. -/
structure Settled (engine : Engine M R) (delivery : Delivery M) (p : Progress M R) : Prop where
  delivery : p.state.mail.delivery = delivery
  pending : p.state.mail.pending.size = engine.graph.nodes
  delivered : p.state.mail.delivered.size = engine.graph.nodes
  sound : p.state.halted.Sound
  nodes : p.state.halted.nodes = engine.graph.nodes
  declared : p.state.aggregates.declared = engine.computation.aggregators
  gathered : p.state.aggregates.gathered = .blank engine.computation.aggregators
  holds : p.state.mail.Holds fun v => messagesBefore p.stats.size v p.journal.toList
  bit : ∀ v < engine.graph.nodes,
    p.state.halted.bit v = votedBefore p.stats.size v p.journal.toList
  before : Before p.stats.size p.journal.toList
  inside : ∀ x ∈ p.journal.toList, ∀ v, x.node? = some v → v < engine.graph.nodes

theorem Engine.Ready.settled {engine : Engine M R} {delivery : Delivery M}
    (h : engine.Ready delivery) : Settled engine delivery ⟨engine.state, #[], #[]⟩ where
  delivery := by rw [h.mail]
  pending := by rw [h.mail]; exact Array.size_replicate
  delivered := by rw [h.mail]; exact Array.size_replicate
  sound := h.sound
  nodes := h.nodes
  declared := by rw [h.aggregates]
  gathered := by rw [h.aggregates]
  holds := by
    intro v slot hslot
    rw [h.mail] at hslot ⊢
    simp only [Array.getElem?_replicate] at hslot
    split at hslot
    next => cases hslot; exact Delivery.delivers_nil delivery
    next => cases hslot
  bit := fun v _ => h.awake v
  before := by simp [Before]
  inside := by simp

/-- However the tasks of a superstep interleave, they visit every node once. -/
theorem visits_perm {engine : Engine M R} {delivery : Delivery M} {partitions : List Partition}
    {moves : List Move} (hr : engine.Ready delivery)
    (ht : engine.strategy.tasks engine.graph.nodes = .ok partitions)
    (hi : Interleaves partitions moves) :
    (moves.filterMap Move.node?).Perm (List.range engine.graph.nodes) := by
  refine hi.visits.trans (.of_eq ?_)
  rw [(tasks_tiles hr.strategy ht).ids, List.range_eq_range', Nat.sub_zero]

section Stepping

variable {engine : Engine M R} {delivery : Delivery M} {schedule : Schedule} {p q : Progress M R}
  {partitions : List Partition} {es : List (Entry M R)} {round : Round M R}
  {calls : List (Call masterSignature)} {stop : Bool} {report : R}

theorem Stepped.visits (hr : engine.Ready delivery) (hv : schedule.Valid)
    (h : Stepped engine schedule p partitions es round calls stop report q) :
    ((schedule.moves p.stats.size partitions).filterMap Move.node?).Perm
      (List.range engine.graph.nodes) :=
  visits_perm hr h.tasks (hv p.stats.size partitions)

theorem Stepped.during (h : Stepped engine schedule p partitions es round calls stop report q) :
    During p.stats.size
      (es ++ [.master p.stats.size calls (.ok (stop, report))] : List (Entry M R)) := by
  intro x hx
  rcases List.mem_append.mp hx with hx | hx
  · obtain ⟨_, _, _, _, _, hs⟩ := h.played.effect.entries x hx
    exact hs
  · rw [List.mem_singleton.mp hx]
    exact .inl rfl

theorem ownEntries_master (v superstep : Nat) (es : List (Entry M R))
    (calls : List (Call masterSignature)) (result : Except Fault (Bool × R)) :
    ownEntries v (es ++ [.master superstep calls result]) = ownEntries v es := by
  rw [ownEntries_append]
  exact List.append_nil _

/-- Every node is visited in a superstep. Its visit stands together in the journal, and nothing
before or after it concerns the node. -/
theorem Stepped.visited (hr : engine.Ready delivery) (hv : schedule.Valid)
    (h : Stepped engine schedule p partitions es round calls stop report q) {v : Nat}
    (hn : v < engine.graph.nodes) :
    ∃ task d e, p.state.turned.Fits d.state ∧ p.state.turned.AgreeAt v d.state ∧
      Visited engine p.stats.size task v d (ownEntries v es) e ∧ e.state.AgreeAt v round.state ∧
      ownEntries v es <:+: es := by
  have hperm := h.visits hr hv
  have hpassed := h.played.passed (hperm.nodup_iff.mpr List.nodup_range) v
  generalize ownEntries v es = own at hpassed
  cases hpassed with
  | unvisited absent => exact absurd (hperm.mem_iff.mpr (List.mem_range.mpr hn)) absent
  | visited fits before visit after together =>
    exact ⟨_, _, _, fits, before, visit, after, together⟩

/-- A node's part of a superstep from a settled boundary is a turn, its callbacks stand together
in the journal, and they decide its halt bit. -/
theorem Stepped.turn (hr : engine.Ready delivery) (hs : Settled engine delivery p)
    (hv : schedule.Valid) (h : Stepped engine schedule p partitions es round calls stop report q)
    {v : Nat} (hn : v < engine.graph.nodes) :
    NodeTurn delivery p.stats.size v p.journal.toList (ownEntries v es) ∧
      ownEntries v es <:+: es ∧
      round.state.halted.bit v =
        if ownEntries v es = [] then p.state.halted.bit v
        else (ownEntries v es).any Entry.voted := by
  obtain ⟨task, d, e, fits, before, visit, after, together⟩ := h.visited hr hv hn
  have hsound : d.state.halted.Sound := fits.sound hs.sound
  have hnodes : d.state.halted.nodes = engine.graph.nodes := fits.nodes.trans hs.nodes
  have hbit : d.state.halted.bit v = p.state.halted.bit v := before.bit.symm
  refine ⟨?_, together, ?_⟩
  · refine visit.turn hsound (hnodes ▸ hn) (hbit.trans (hs.bit v hn)) fun slot hslot => ?_
    have hslot' : p.state.mail.pending[v]? = some slot := before.delivered.trans hslot
    have hh := hs.holds v slot hslot'
    rwa [hs.delivery] at hh
  · rw [← after.bit, visit.effect.bit, hbit]

/-- The messages on their way after a superstep are those sent in it. -/
theorem Stepped.messages (hs : Settled engine delivery p)
    (h : Stepped engine schedule p partitions es round calls stop report q) (v : Nat) :
    messagesBefore q.stats.size v q.journal.toList = es.flatMap (Entry.sentTo v) := by
  have hsize : q.stats.size = p.stats.size + 1 := h.size
  rw [hsize, h.journal]
  refine (messagesSent_before hs.before).trans ?_
  rw [messagesSent_during h.during]
  simp [Entry.sentTo]

/-- Executing a superstep leads from a settled boundary to a settled boundary. -/
theorem Stepped.settled (hr : engine.Ready delivery) (hs : Settled engine delivery p)
    (hv : schedule.Valid)
    (h : Stepped engine schedule p partitions es round calls stop report q) :
    Settled engine delivery q := by
  have heffect := h.played.effect
  have hdirected := h.consulted.directed
  have hfits : p.state.turned.Fits round.state := heffect.fits
  have hmail : q.state.mail = round.state.mail := hdirected.mail
  have hhalted : q.state.halted = round.state.halted := hdirected.halted
  have haggregates : q.state.aggregates = round.state.aggregates.publish := hdirected.aggregates
  have hsize : q.stats.size = p.stats.size + 1 := h.size
  have hdeclared : round.state.aggregates.declared = engine.computation.aggregators :=
    hfits.declared.trans hs.declared
  exact {
    delivery := by rw [hmail]; exact hfits.delivery.trans hs.delivery
    pending := by
      rw [hmail, hfits.pending]
      exact Array.size_map.trans hs.delivered
    delivered := by
      rw [hmail, hfits.delivered]
      exact hs.pending
    sound := by rw [hhalted]; exact hfits.sound hs.sound
    nodes := by rw [hhalted]; exact hfits.nodes.trans hs.nodes
    declared := by rw [haggregates]; exact hdeclared
    gathered := by rw [haggregates, ← hdeclared]; rfl
    holds := by
      have hh := heffect.holds _ (Mailroom.turn_holds p.state.mail)
      intro v slot hslot
      rw [hmail] at hslot ⊢
      dsimp only
      rw [h.messages hs]
      exact hh v slot hslot
    bit := by
      intro v hn
      obtain ⟨hturn, _, hbit⟩ := h.turn hr hs hv hn
      rw [← ownEntries_master v p.stats.size es calls (.ok (stop, report))] at hturn hbit
      rw [hhalted, hbit, hsize, h.journal, hturn.voted hs.before, hs.bit v hn]
    before := by
      rw [hsize, h.journal]
      exact hs.before.succ.append h.during.before
    inside := by
      intro x hx v hxv
      rw [h.journal] at hx
      rcases List.mem_append.mp hx with hx | hx
      · exact hs.inside x hx v hxv
      · rcases List.mem_append.mp hx with hx | hx
        · obtain ⟨task, node, hm, hnode, _⟩ := heffect.entries x hx
          rw [hnode] at hxv
          cases hxv
          have hmem := (h.visits hr hv).mem_iff.mp (node_mem_of_visit hm)
          exact List.mem_range.mp hmem
        · rw [List.mem_singleton.mp hx] at hxv
          cases hxv }

end Stepping

theorem boundary_settled {engine : Engine M R} {delivery : Delivery M} {schedule : Schedule}
    {converged : Bool} {p : Progress M R} (hr : engine.Ready delivery) (hv : schedule.Valid)
    (h : Boundary engine schedule converged p) : Settled engine delivery p := by
  induction h with
  | start => exact hr.settled
  | next reached step ih =>
    obtain ⟨_, _, _, _, _, _, hstep, _⟩ := superstep_ok hv step
    exact hstep.settled hr ih hv

end BulkSync
