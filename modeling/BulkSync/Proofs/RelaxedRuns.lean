import BulkSync.Proofs.Endings
import BulkSync.Proofs.RelaxedSteps
import BulkSync.Proofs.Walks

namespace BulkSync

namespace Relaxing

variable {s : Scalar} {α : Type} [LinearOrder α]

/-- The least values that reach a node along at most so many edges. -/
abbrev Reaches (row : Nat → List Nat) (start : Nat → α) (pass : α → α) (edges node : Nat) (a : α) :
    Prop :=
  IsLeast (offers (fun u v => v ∈ row u) start pass edges node) a

/-- An engine that runs a relaxing computation on numbers that stand for values, all of which
fit. -/
structure Sets (r : Relaxing s) (code : α → s.Number) (fits : α → Prop) (start : Nat → α)
    (pass : α → α) (row : Nat → List Nat) (delivery : Delivery s.Number)
    (engine : Engine s.Number Unit) : Prop where
  stands : r.Stands code fits start pass
  least : delivery.Least code fits
  total : delivery.Total
  computation : engine.computation = r.computation
  rows : engine.graph.Rows row
  ready : engine.Ready delivery
  admits : ∀ v < engine.graph.nodes, engine.state.values.admits s r.key v = .ok ()
  small : engine.graph.nodes < countLimit
  covers : ∀ edges, ∀ v < engine.graph.nodes, ∀ a, Reaches row start pass edges v a →
    fits a ∧ fits (pass a)

/-- A boundary after a superstep at which every node has the least value that reached it along as
many edges as there were supersteps before this one. What was passed on in it is on its way, and
what was not would improve nothing. -/
structure Relaxed (r : Relaxing s) (code : α → s.Number) (start : Nat → α) (pass : α → α)
    (row : Nat → List Nat) (engine : Engine s.Number Unit) (edges : Nat)
    (p : Progress s.Number Unit) (value : Nat → α) : Prop where
  size : p.stats.size = edges + 1
  signals : p.state.signals = engine.state.signals
  least : ∀ v < engine.graph.nodes, Reaches row start pass edges v (value v)
  read : ∀ v < engine.graph.nodes, p.state.values.read s r.key v = .ok (s.ofNumber (code (value v)))
  halted : ∀ v < engine.graph.nodes, p.state.halted.bit v = true
  sent : ∀ v, ∀ m ∈ messagesBefore p.stats.size v p.journal.toList, ∃ u < engine.graph.nodes,
    v ∈ row u ∧ m = code (pass (value u))
  told : ∀ u < engine.graph.nodes, ∀ v ∈ row u,
    code (pass (value u)) ∈ messagesBefore p.stats.size v p.journal.toList ∨
      value v ≤ pass (value u)
  fresh : edges ≠ 0 → ∀ v, messagesBefore p.stats.size v p.journal.toList ≠ [] →
    ∃ u < engine.graph.nodes, ∃ a, Reaches row start pass (edges - 1) u a ∧ value u < a

section Running

variable {r : Relaxing s} {code : α → s.Number} {fits : α → Prop} {start : Nat → α} {pass : α → α}
  {row : Nat → List Nat} {delivery : Delivery s.Number} {engine : Engine s.Number Unit}
  {schedule : Schedule} {edges : Nat} {p q : Progress s.Number Unit} {value : Nat → α}

theorem Sets.edges_inside (h : r.Sets code fits start pass row delivery engine) (u v : Nat)
    (hv : v ∈ row u) : u < engine.graph.nodes ∧ v < engine.graph.nodes :=
  h.rows.inside u v hv

theorem reaches_zero (v : Nat) : Reaches row start pass 0 v (start v) :=
  ⟨mem_offers_zero.mpr rfl, fun _ hb => le_of_eq (mem_offers_zero.mp hb).symm⟩

theorem Sets.outset (h : r.Sets code fits start pass row delivery engine) :
    r.Outset code fits engine ⟨engine.state, #[], #[]⟩ start fun _ => [] where
  due := fun v hv => ⟨fun _ => ⟨h.admits v hv, (h.stands.first v).symm⟩, fun h0 => absurd rfl h0⟩
  sent := fun _ _ => rfl
  held := fun v hv => (h.covers 0 v hv _ (reaches_zero v)).1
  heard := by simp

/-- What the nodes are offered after a superstep. -/
theorem Relaxed.outset (hp : r.Relaxed code start pass row engine edges p value)
    (h : r.Sets code fits start pass row delivery engine) :
    ∃ offered, r.Outset code fits engine p value offered ∧
      (∀ v, ∀ b ∈ offered v, ∃ u < engine.graph.nodes, v ∈ row u ∧ b = pass (value u)) ∧
      ∀ u < engine.graph.nodes, ∀ v ∈ row u, pass (value u) ∈ offered v ∨
        value v ≤ pass (value u) := by
  have hfits : ∀ u < engine.graph.nodes, fits (value u) ∧ fits (pass (value u)) :=
    fun u hu => h.covers edges u hu _ (hp.least u hu)
  have : Nonempty α := ⟨start 0⟩
  choose! worth hworth using fun (v : Nat) (m : s.Number)
    (hm : m ∈ messagesBefore p.stats.size v p.journal.toList) =>
      show ∃ b, (∃ u < engine.graph.nodes, v ∈ row u ∧ b = pass (value u)) ∧ m = code b by
        obtain ⟨u, hu, hv, he⟩ := hp.sent v m hm
        exact ⟨_, ⟨u, hu, hv, rfl⟩, he⟩
  have hsource : ∀ v, ∀ b ∈ (messagesBefore p.stats.size v p.journal.toList).map (worth v),
      ∃ u < engine.graph.nodes, v ∈ row u ∧ b = pass (value u) := by
    intro v b hb
    obtain ⟨m, hm, rfl⟩ := List.mem_map.mp hb
    exact (hworth v m hm).1
  refine ⟨fun v => (messagesBefore p.stats.size v p.journal.toList).map (worth v), ⟨?_, ?_, ?_, ?_⟩,
    hsource, ?_⟩
  · intro v hv
    refine ⟨fun h0 => ?_, fun _ => hp.read v hv⟩
    have hsize := hp.size
    omega
  · intro v _
    rw [List.map_map]
    exact ((List.map_congr_left fun m hm => (hworth v m hm).2.symm).trans (List.map_id _)).symm
  · exact fun v hv => (hfits v hv).1
  · intro v _ b hb
    obtain ⟨u, hu, _, rfl⟩ := hsource v b hb
    exact (hfits u hu).2
  · intro u hu v hv
    rcases hp.told u hu v hv with hm | hle
    · refine .inl ?_
      obtain ⟨⟨w, hw, _, hb⟩, he⟩ := hworth v _ hm
      have hfit : fits (worth v (code (pass (value u)))) := hb ▸ (hfits w hw).2
      have hworth' := h.stands.inj (hfits u hu).2 hfit he
      refine List.mem_map.mpr ⟨_, hm, hworth'.symm⟩
    · exact .inr hle

/-- The least of what a node has and is offered is the least that reaches it along one edge
more. -/
theorem Relaxed.reaches (hp : r.Relaxed code start pass row engine edges p value)
    (h : r.Sets code fits start pass row delivery engine) {offered : Nat → List α}
    (hsource : ∀ v, ∀ b ∈ offered v, ∃ u < engine.graph.nodes, v ∈ row u ∧ b = pass (value u))
    (htold : ∀ u < engine.graph.nodes, ∀ v ∈ row u, pass (value u) ∈ offered v ∨
      value v ≤ pass (value u)) {v : Nat} (hv : v < engine.graph.nodes) :
    Reaches row start pass (edges + 1) v ((offered v).foldl min (value v)) := by
  obtain ⟨hmem, hle⟩ := least_foldl_min (value v) (offered v)
  constructor
  · rcases hmem with he | hm
    · rw [he]
      exact offers_mono (Nat.le_succ edges) (hp.least v hv).1
    · obtain ⟨u, hu, hstep, he⟩ := hsource v _ hm
      exact mem_offers_succ.mpr (.inr ⟨u, hstep, value u, (hp.least u hu).1, he⟩)
  · intro a ha
    rcases mem_offers_succ.mp ha with hold | ⟨u, hstep, b, hb, rfl⟩
    · exact (hle (.inl rfl)).trans ((hp.least v hv).2 hold)
    · have hu := (h.edges_inside u v hstep).1
      have hpass : pass (value u) ≤ pass b := h.stands.mono ((hp.least u hu).2 hb)
      rcases htold u hu v hstep with hm | hkept
      · exact (hle (.inr hm)).trans hpass
      · exact (hle (.inl rfl)).trans (hkept.trans hpass)

section Stepping

variable {partitions : List Partition} {es : List (Entry s.Number Unit)}
  {round : Round s.Number Unit} {calls : List (Call masterSignature)} {stop : Bool} {report : Unit}

theorem Sets.first (h : r.Sets code fits start pass row delivery engine) (hv : schedule.Valid)
    (hstep : Stepped engine schedule ⟨engine.state, #[], #[]⟩ partitions es round calls stop report
      q) : r.Relaxed code start pass row engine 0 q start := by
  have himproved := h.outset.improved h.stands h.least h.computation h.rows h.ready
    h.ready.settled hv (fun v hn => (h.covers 0 v hn _ (reaches_zero v)).2) hstep
  exact {
    size := himproved.size
    signals := himproved.signals
    least := fun v _ => reaches_zero v
    read := himproved.read
    halted := himproved.halted
    sent := by
      intro v m hm
      obtain ⟨u, hu, hrow, _, he⟩ := himproved.sent v m hm
      exact ⟨u, hu, hrow, he⟩
    told := by
      intro u hu v hrow
      by_cases hann : r.announces 0 (code (start u)) = true
      · exact .inl (himproved.told u hu v hrow (.inr hann))
      · exact .inr (h.stands.silent u _ (h.covers 0 u hu _ (reaches_zero u)).1
          (Bool.eq_false_iff.mpr hann))
    fresh := fun h0 => absurd rfl h0 }

theorem Relaxed.next (hp : r.Relaxed code start pass row engine edges p value)
    (h : r.Sets code fits start pass row delivery engine) (hs : Settled engine delivery p)
    (hv : schedule.Valid)
    (hstep : Stepped engine schedule p partitions es round calls stop report q) :
    ∃ next, r.Relaxed code start pass row engine (edges + 1) q next := by
  obtain ⟨offered, houtset, hsource, htold⟩ := hp.outset h
  have hreaches : ∀ v < engine.graph.nodes,
      Reaches row start pass (edges + 1) v ((offered v).foldl min (value v)) :=
    fun v hn => hp.reaches h hsource htold hn
  have himproved := houtset.improved h.stands h.least h.computation h.rows h.ready hs hv
    (fun v hn => (h.covers _ v hn _ (hreaches v hn)).2) hstep
  have hlate : p.stats.size ≠ 0 := by
    have hsize := hp.size
    omega
  refine ⟨fun v => (offered v).foldl min (value v), ?_⟩
  exact {
    size := by rw [himproved.size, hp.size]
    signals := himproved.signals.trans hp.signals
    least := hreaches
    read := himproved.read
    halted := himproved.halted
    sent := by
      intro v m hm
      obtain ⟨u, hu, hrow, _, he⟩ := himproved.sent v m hm
      exact ⟨u, hu, hrow, he⟩
    told := by
      intro u hu v hrow
      by_cases hless : (offered u).foldl min (value u) < value u
      · exact .inl (himproved.told u hu v hrow (.inl hless))
      -- what did not improve was passed on before
      · have hle : (offered u).foldl min (value u) ≤ value u := (least_foldl_min _ _).2 (.inl rfl)
        have hsame : (offered u).foldl min (value u) = value u := le_antisymm hle (not_lt.mp hless)
        have hleast := (least_foldl_min (value v) (offered v)).2
        rw [hsame]
        rcases htold u hu v hrow with hm | hkept
        · exact .inr (hleast (.inr hm))
        · exact .inr ((hleast (.inl rfl)).trans hkept)
    fresh := by
      intro _ v hne
      obtain ⟨m, hm⟩ := List.exists_mem_of_ne_nil _ hne
      obtain ⟨u, hu, _, hless | hann, _⟩ := himproved.sent v m hm
      · exact ⟨u, hu, value u, hp.least u hu, hless⟩
      · rw [h.stands.later _ _ hlate] at hann
        cases hann }

end Stepping

/-- At every boundary after the first one the nodes have relaxed along so many edges. -/
theorem Sets.relaxed (h : r.Sets code fits start pass row delivery engine) (hv : schedule.Valid)
    {converged : Bool} (hp : Boundary engine schedule converged p) (hsize : p.stats.size ≠ 0) :
    ∃ value, r.Relaxed code start pass row engine (p.stats.size - 1) p value := by
  induction hp with
  | start => exact absurd rfl hsize
  | @next o q converged reached step ih =>
    obtain ⟨_, _, _, _, _, _, hstep, _⟩ := superstep_ok hv step
    by_cases h0 : o.stats.size = 0
    · obtain rfl := boundary_first reached h0
      have hfirst := h.first hv hstep
      rw [hfirst.size]
      exact ⟨start, hfirst⟩
    · obtain ⟨value, hrelaxed⟩ := ih h0
      obtain ⟨next, hnext⟩ := hrelaxed.next h (boundary_settled h.ready hv reached) hv hstep
      have hsize' := hnext.size
      rw [show o.stats.size - 1 + 1 = q.stats.size - 1 by omega] at hnext
      exact ⟨next, hnext⟩

/-- At every boundary the nodes are about to improve their numbers. -/
theorem Sets.ahead (h : r.Sets code fits start pass row delivery engine) (hv : schedule.Valid)
    {converged : Bool} (hp : Boundary engine schedule converged p) :
    ∃ current, r.Ahead engine p current := by
  have hs := boundary_settled h.ready hv hp
  by_cases h0 : p.stats.size = 0
  · obtain rfl := boundary_first hp h0
    exact ⟨_, h.outset.ahead h.stands h.least hs⟩
  · obtain ⟨value, hrelaxed⟩ := h.relaxed hv hp h0
    obtain ⟨offered, houtset, -⟩ := hrelaxed.outset h
    exact ⟨_, houtset.ahead h.stands h.least hs⟩

theorem Sets.unhindered (h : r.Sets code fits start pass row delivery engine)
    (hv : schedule.Valid) {converged : Bool} (hp : Boundary engine schedule converged p) :
    Unhindered engine row p := by
  obtain ⟨current, hahead⟩ := h.ahead hv hp
  exact hahead.unhindered h.computation h.rows (boundary_settled h.ready hv hp) h.total

theorem Sets.superstep (h : r.Sets code fits start pass row delivery engine) (hv : schedule.Valid)
    {converged : Bool} (hp : Boundary engine schedule converged p) :
    ∃ converged q, engine.superstep schedule p = .ok converged q := by
  exact (h.unhindered hv hp).superstep h.rows h.ready (boundary_settled h.ready hv hp) hv h.small

theorem Sets.signals (h : r.Sets code fits start pass row delivery engine) (hv : schedule.Valid)
    {converged : Bool} (hp : Boundary engine schedule converged p) :
    p.state.signals = engine.state.signals := by
  by_cases h0 : p.stats.size = 0
  · rw [boundary_first hp h0]
  · obtain ⟨value, hrelaxed⟩ := h.relaxed hv hp h0
    exact hrelaxed.signals

/-- Where a run has converged, no edge would improve a value. -/
theorem Sets.closed (h : r.Sets code fits start pass row delivery engine) (hv : schedule.Valid)
    (hq : Boundary engine schedule true q)
    (hrelaxed : r.Relaxed code start pass row engine edges q value) (u v : Nat) (hrow : v ∈ row u) :
    value v ≤ pass (value u) := by
  have hu := (h.edges_inside u v hrow).1
  cases hq with
  | @next p _ _ reached step =>
    obtain ⟨partitions, es, round, calls, stop, report, hstep, hconverged⟩ := superstep_ok hv step
    have hs := boundary_settled h.ready hv reached
    have hvisits := hstep.visits h.ready hv
    have hstop : stop = false := by
      have hperformed := hstep.consulted.performed
      rw [h.computation] at hperformed
      have hresult : Except.ok (false, ()) = .ok (stop, report) :=
        congrArg Performance.result hperformed
      cases hresult
      rfl
    rw [hstop, Bool.false_or] at hconverged
    have hsmall : sendCount p.stats.size q.journal.toList < countLimit := by
      rw [hstep.sendCount_eq hs]
      exact (h.unhindered hv reached).sends_lt h.rows hstep.played
        (hvisits.nodup_iff.mpr List.nodup_range)
        fun u hu => List.mem_range.mp (hvisits.mem_iff.mp hu)
    have hquiet := (hstep.isQuiet_iff h.ready hs hv).mp hconverged.symm
    rw [Nat.mod_eq_of_lt hsmall] at hquiet
    have hsilent : messagesBefore q.stats.size v q.journal.toList = [] := by
      rw [hstep.stats, Array.size_push]
      exact sendCount_eq_zero_iff.mp hquiet.1 v
    rcases hrelaxed.told u hu v hrow with hm | hle
    · rw [hsilent] at hm
      cases hm
    · exact hle

/-- A run goes on for at most as many supersteps as there are nodes. -/
theorem Sets.size_le (h : r.Sets code fits start pass row delivery engine) (hv : schedule.Valid)
    (hp : Boundary engine schedule false p) : p.stats.size ≤ engine.graph.nodes := by
  by_cases h0 : p.stats.size = 0
  · omega
  · obtain ⟨value, hrelaxed⟩ := h.relaxed hv hp h0
    have hs := boundary_settled h.ready hv hp
    obtain ⟨v, hn, hdue⟩ := boundary_awake h.ready hv hp h0
    have hmail : messagesBefore p.stats.size v p.journal.toList ≠ [] := by
      rcases hdue with hvoted | hmail
      · rw [← hs.bit v hn, hrelaxed.halted v hn] at hvoted
        cases hvoted
      · exact hmail
    by_contra hlarge
    -- a message that is still on its way tells of a value that got less after it had to be least
    obtain ⟨u, hu, a, ha, hless⟩ := hrelaxed.fresh (by omega) v hmail
    have hlast := least_offers_of_nodes_le h.edges_inside h.stands.mono h.stands.grows hu
      (by omega) ha (Nat.sub_le (p.stats.size - 1) 1)
    exact absurd ((hrelaxed.least u hu).unique hlast) (ne_of_lt hless)

/-- A run that nobody cancels ends with the least values along as many edges as it had supersteps
before the last one. They are least along any number of edges if it has converged or had as many
supersteps as there are nodes, and with one more it converges. -/
theorem Sets.run (h : r.Sets code fits start pass row delivery engine) (hv : schedule.Valid)
    (calm : engine.state.signals.isRaised engine.watched = false)
    (still : ∀ superstep, schedule.interrupts superstep = false)
    (hcap : 0 < engine.config.maxSupersteps) :
    ∃ (result : RunResult) (value : Nat → α), (engine.runWith schedule).result = .ok result ∧
      result.status ≠ .cancelled ∧
      (∀ v < engine.graph.nodes, result.values.read s r.key v = .ok (s.ofNumber (code (value v))) ∧
        Reaches row start pass (result.ran - 1) v (value v)) ∧
      (result.status = .converged ∨ engine.graph.nodes ≤ engine.config.maxSupersteps →
        ∀ v < engine.graph.nodes, ∀ edges, result.ran - 1 ≤ edges →
          Reaches row start pass edges v (value v)) ∧
      (engine.graph.nodes < engine.config.maxSupersteps → result.status = .converged) := by
  obtain ⟨status, q, hresult, hstatus, hq, hbegun, -, hran⟩ := run_exists
    (fun _ hp => not_cancelled calm still (h.signals hv hp))
    (fun _ hp => h.superstep hv hp) hcap
  obtain ⟨value, hrelaxed⟩ := h.relaxed hv hq (Nat.ne_of_gt hbegun)
  refine ⟨_, value, hresult, hstatus, fun v hn => ⟨hrelaxed.read v hn, hrelaxed.least v hn⟩, ?_,
    ?_⟩
  · intro hdone v hn edges hedges
    cases status with
    | converged =>
      exact least_offers_of_closed h.stands.mono hrelaxed.least h.edges_inside
        (h.closed hv hq hrelaxed) hn hedges
    | maxSupersteps =>
      have hnodes : engine.graph.nodes ≤ engine.config.maxSupersteps :=
        hdone.resolve_left (by simp)
      have hall := hran rfl
      exact least_offers_of_nodes_le h.edges_inside h.stands.mono h.stands.grows hn (by omega)
        (hrelaxed.least v hn) hedges
    | cancelled => exact absurd rfl hstatus
  · intro hlarge
    cases status with
    | converged => rfl
    | maxSupersteps =>
      have hle := h.size_le hv hq
      rw [hran rfl] at hle
      omega
    | cancelled => exact absurd rfl hstatus

end Running

end Relaxing

end BulkSync
