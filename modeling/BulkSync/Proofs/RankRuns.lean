import BulkSync.Proofs.RankIteration

namespace BulkSync

section Running

variable {tolerance : Float} {g : Adjacency} {edges told : List (Nat × Nat)}
  {engine : Engine Float Unit} {schedule : Schedule} {converged : Bool}
  {p : Progress Float Unit} {step : Nat}

/-- At every boundary after the first one the nodes hold the ranks of power iteration. -/
theorem Ranks.iterated (h : Ranks tolerance g edges engine) (htold : g.edges = .ok told)
    (hv : schedule.Valid) (hp : Boundary engine schedule converged p)
    (hsize : p.stats.size = step + 1) : Iterated g told step p := by
  -- by the boundaries before: only the first superstep has no step of power iteration behind it
  induction hp generalizing step with
  | start => cases hsize
  | next reached next ih =>
    obtain ⟨_, _, _, _, _, _, hstep, _⟩ := superstep_ok hv next
    have hgrown := hstep.size
    cases step with
    | zero =>
      obtain rfl := boundary_first reached (by omega)
      exact h.first htold hv hstep
    | succ earlier =>
      exact (ih (by omega)).next h htold (boundary_settled h.ready hv reached) hv hstep

theorem Ranks.poised_at (h : Ranks tolerance g edges engine) (hv : schedule.Valid)
    (hp : Boundary engine schedule converged p) : ∃ rank, Poised engine p rank := by
  by_cases h0 : p.stats.size = 0
  · obtain rfl := boundary_first hp h0
    exact ⟨_, h.poised⟩
  · have hsize : p.stats.size = p.stats.size - 1 + 1 := by omega
    exact ⟨_, (h.iterated h.holds.edges_eq hv hp hsize).poised h⟩

theorem Ranks.paced (h : Ranks tolerance g edges engine) (hv : schedule.Valid)
    (hp : Boundary engine schedule converged p) : Paced g engine p := by
  induction hp with
  | start => exact ⟨rfl, by simp, by simp, rfl⟩
  | next reached next ih =>
    obtain ⟨_, _, _, _, _, _, hstep, _⟩ := superstep_ok hv next
    obtain ⟨rank, hpoised⟩ := h.poised_at hv reached
    have hreranked := h.reranked hpoised (boundary_settled h.ready hv reached) hv hstep
    exact ih.next h hreranked hstep

theorem Ranks.superstep (h : Ranks tolerance g edges engine) (hv : schedule.Valid)
    (hp : Boundary engine schedule converged p) :
    ∃ converged q, engine.superstep schedule p = .ok converged q := by
  have hs := boundary_settled h.ready hv hp
  obtain ⟨rank, hpoised⟩ := h.poised_at hv hp
  have htotal : (Delivery.combined (Message.sum : Combiner Float)).Total := fun x y => ⟨_, rfl⟩
  exact (hpoised.unhindered h.computation h.degrees hs htotal).superstep h.degrees.toRows h.ready
    hs hv h.small

/-- A run has converged after a superstep exactly if the ranks settled in it: no node ever halts,
so no superstep is quiet. -/
theorem Ranks.converged_iff (h : Ranks tolerance g edges engine) (positive : 0 < g.nodes)
    (htold : g.edges = .ok told) (hv : schedule.Valid)
    (hp : Boundary engine schedule converged p) (hsize : p.stats.size = step + 1) :
    converged = true ↔ RanksSettle tolerance g.nodes told step := by
  have hiterated := h.iterated htold hv hp hsize
  cases hp with
  | start => cases hsize
  | next reached next =>
    obtain ⟨_, _, round, _, stop, _, hstep, hconverged⟩ := superstep_ok hv next
    have hs := boundary_settled h.ready hv reached
    -- a quiet superstep would need node 0 to have halted
    have hloud : round.isQuiet = false := by
      refine Bool.eq_false_iff.mpr fun hquiet => ?_
      have hhalted := ((hstep.isQuiet_iff h.ready hs hv).mp hquiet).2 0 (h.nodes ▸ positive)
      rw [hiterated.awake 0 positive] at hhalted
      cases hhalted
    obtain ⟨-, hstop⟩ := hstep.rank_decision h.computation
    rw [hconverged, hloud, Bool.or_false, hstop, hiterated.change, ranksSettle_iff]

/-- A run goes on only after supersteps in which the ranks did not settle. -/
theorem Ranks.unsettled (h : Ranks tolerance g edges engine) (positive : 0 < g.nodes)
    (htold : g.edges = .ok told) (hv : schedule.Valid)
    (hp : Boundary engine schedule converged p) (hlater : step + 1 < p.stats.size) :
    ¬ RanksSettle tolerance g.nodes told step := by
  induction hp with
  | start => cases hlater
  | next reached next ih =>
    have hgrown := superstep_size next
    rcases Nat.lt_or_eq_of_le (Nat.le_of_lt_succ (hgrown ▸ hlater)) with hearlier | hlast
    · exact ih hearlier
    · have hiff := h.converged_iff positive htold hv reached hlast.symm
      exact fun hsettle => by cases hiff.mpr hsettle

end Running

/-- An engine that was built to rank the nodes of a graph by one worker over a range. -/
theorem ranks_of_built {memory : Memory} {tolerance : Float} {g : Adjacency}
    {edges : List (Nat × Nat)} {config : Config} {engine : Engine Float Unit}
    (built : Engine.Built memory g.toGraph config (pageRank tolerance) (.combined Message.sum)
      engine) (holds : g.Holds edges) (one : config.concurrency = 1)
    (range : config.partitioning = .range) : Ranks tolerance g edges engine := by
  obtain ⟨hgraph, hconfig, hcomputation⟩ := built.parts
  obtain ⟨schema, hschema, hvalues, -⟩ := built.beginning
  have hsmall : g.nodes < countLimit := by
    have hslots := slots_lt holds.room
    omega
  have hstrategy := built.ready.strategy
  rw [hconfig] at hstrategy
  exact {
    graph := hgraph
    computation := hcomputation
    holds := holds
    ready := built.ready
    one := fun partitions htasks => one_task hstrategy one range htasks
    admits := by
      rw [hgraph, ValueStore.create_ok hvalues, Schema.ofFields_ok hschema]
      exact fun v hv => ValueStore.zeros_single_admits "rank" .double hsmall hv }

/-- Ranking the nodes of a graph by one worker over a range, with messages summed up, is plain
power iteration. After every superstep the nodes hold the ranks of as many steps as there were
supersteps before; every superstep lets each node compute once and sends a message along every
edge. A run that nobody cancels ends, converged right after the first superstep in which the ranks
settled, or at the cap if they settled in none before it. -/
theorem pageRank_iterates {memory : Memory} {tolerance : Float} {g : Adjacency} {config : Config}
    {engine : Engine Float Unit} {schedule : Schedule} (made : g.Made) (positive : 0 < g.nodes)
    (one : config.concurrency = 1) (range : config.partitioning = .range)
    (built : Engine.Built memory g.toGraph config (pageRank tolerance) (.combined Message.sum)
      engine) (valid : schedule.Valid)
    (calm : engine.state.signals.isRaised engine.watched = false)
    (still : ∀ superstep, schedule.interrupts superstep = false) :
    ∃ edges, g.edges = .ok edges ∧
      (∀ superstep converged p, Boundary engine schedule converged p →
        p.stats.size = superstep + 1 →
        (∀ v < g.nodes, p.state.values.read .double "rank" v =
          .ok (.ofFloat (powerRank g.nodes edges superstep v))) ∧
        (∀ v < g.nodes, computeCount superstep v p.journal.toList = 1) ∧
        sendCount superstep p.journal.toList = g.relationships) ∧
      ∃ result superstep, (engine.runWith schedule).result = .ok result ∧
        result.ran = superstep + 1 ∧ result.ran ≤ config.maxSupersteps ∧
        (∀ v < g.nodes, result.values.read .double "rank" v =
          .ok (.ofFloat (powerRank g.nodes edges superstep v))) ∧
        result.stats.toList =
          (List.range result.ran).map (fun i => ⟨i, g.nodes, g.relationships⟩) ∧
        (∀ earlier < superstep, ¬ RanksSettle tolerance g.nodes edges earlier) ∧
        (RanksSettle tolerance g.nodes edges superstep ∧ 1 ≤ superstep ∧
            result.status = .converged ∨
          ¬ RanksSettle tolerance g.nodes edges superstep ∧
            result.ran = config.maxSupersteps ∧ result.status = .maxSupersteps) := by
  obtain ⟨edges, holds⟩ := made.holds
  obtain ⟨told, htold, -⟩ := holds.told
  have hranks := ranks_of_built built holds one range
  refine ⟨told, htold, ?_, ?_⟩
  · intro superstep converged p hp hsize
    have hpaced := hranks.paced valid hp
    exact ⟨(hranks.iterated htold valid hp hsize).read,
      hpaced.computed superstep (by omega), hpaced.sends superstep (by omega)⟩
  · have hcap : 0 < engine.config.maxSupersteps := by
      rw [built.parts.2.1]
      exact Config.maxSupersteps_pos built.validated
    obtain ⟨status, q, hresult, hstatus, hq, hbegun, hle, hfull⟩ := run_exists
      (fun _ hp => not_cancelled calm still (hranks.paced valid hp).signals)
      (fun _ hp => hranks.superstep valid hp) hcap
    rw [built.parts.2.1] at hle hfull
    have hsize : q.stats.size = q.stats.size - 1 + 1 := by omega
    have hsettle := hranks.converged_iff positive htold valid hq hsize
    refine ⟨_, q.stats.size - 1, hresult, hsize, hle,
      (hranks.iterated htold valid hq hsize).read, (hranks.paced valid hq).stats,
      fun earlier hearlier => hranks.unsettled positive htold valid hq (by omega), ?_⟩
    cases status with
    | converged =>
      have hsettled := hsettle.mp rfl
      exact .inl ⟨hsettled, hsettled.pos, rfl⟩
    | maxSupersteps =>
      have hunsettled : ¬ RanksSettle tolerance g.nodes told (q.stats.size - 1) := by
        intro hsettled
        cases hsettle.mpr hsettled
      exact .inr ⟨hunsettled, hfull rfl, rfl⟩
    | cancelled => exact absurd rfl hstatus

/-- Three nodes, of which the first two point to each other and the second to the third twice. -/
theorem pageRank_iterates_three : ∃ (g : Adjacency) (engine : Engine Float Unit)
    (edges : List (Nat × Nat)) (result : RunResult) (superstep : Nat),
    Adjacency.ofEdges 3 [(0, 1), (1, 0), (1, 2), (1, 2)] = .ok g ∧
    Engine.Built .addressable g.toGraph ⟨1, 20, 1, .range⟩ (pageRank 0.001)
      (.combined Message.sum) engine ∧
    g.edges = .ok edges ∧ (engine.runWith .sequential).result = .ok result ∧
    result.ran = superstep + 1 ∧
    (∀ v < 3, result.values.read .double "rank" v =
      .ok (.ofFloat (powerRank 3 edges superstep v))) ∧
    result.stats.toList = (List.range result.ran).map fun i => ⟨i, 3, 4⟩ := by
  have hg : Adjacency.ofEdges 3 [(0, 1), (1, 0), (1, 2), (1, 2)] =
      .ok ⟨#[0, 1, 4, 4], #[1, 0, 2, 2]⟩ := rfl
  have hcheck : (Engine.create (R := Unit) .addressable .none
      (⟨#[0, 1, 4, 4], #[1, 0, 2, 2]⟩ : Adjacency).toGraph ⟨1, 20, 1, .range⟩ (pageRank 0.001)
      (.combined Message.sum)).toOption.any (fun _ => true) = true := by
    decide +kernel
  obtain ⟨engine, hcreate, -⟩ := exists_of_any hcheck
  have hcalm : engine.state.signals.isRaised engine.watched = false := by
    obtain ⟨_, _, _, _, _, _, _, _, _, _, _, _, rfl⟩ := engine_create_ok hcreate
    rfl
  obtain ⟨edges, htold, -, result, superstep, hresult, hran, -, hvalues, hstats, -⟩ :=
    pageRank_iterates (.ofEdges hg) (by decide) rfl rfl (.create hcreate) sequential_valid hcalm
      fun _ => rfl
  exact ⟨_, engine, edges, result, superstep, hg, .create hcreate, htold, hresult, hran, hvalues,
    hstats⟩

end BulkSync
