import BulkSync.Proofs.Adjacencies
import BulkSync.Proofs.NewStores
import BulkSync.Proofs.RelaxedRuns
import BulkSync.Proofs.StoreWrites

namespace BulkSync

/-- A new store of one value admits it at every node. -/
theorem ValueStore.zeros_single_admits {nodes : Nat} (key : String) (s : Scalar)
    (hn : nodes < countLimit) {v : Nat} (hv : v < nodes) :
    (ValueStore.zeros nodes [⟨key, .single s⟩]).admits s key v = .ok () := by
  have hcount : cellCount nodes 1 = nodes := by simp [cellCount, hn]
  refine admits_of_cells hv List.lookup_cons_self ?_
  change v < (Array.replicate (cellCount nodes 1) s.zero).size
  rw [hcount, Array.size_replicate]
  exact hv

/-- The edges of a graph are the rows of what is asked of it. -/
theorem Adjacency.Holds.rows {g : Adjacency} {edges : List (Nat × Nat)} (h : g.Holds edges) :
    g.toGraph.Rows fun u => outgoing u edges where
  neighbors := h.neighbors
  inside := fun _ _ hv => h.inside _ (mem_outgoing.mp hv)
  small := Nat.lt_of_le_of_lt (Nat.le_of_eq h.groupStart_nodes) h.small

/-- Minima are delivered either as they are sent or combined. -/
theorem least_of_lt_iff {M α : Type} [LT M] [DecidableLT M] [LinearOrder α] {code : α → M}
    {fits : α → Prop} {delivery : Delivery M}
    (hlt : ∀ a b, fits a → fits b → (code a < code b ↔ a < b))
    (hd : delivery = .queued ∨ delivery = .combined .min) :
    delivery.Least code fits ∧ delivery.Total := by
  rcases hd with rfl | rfl
  · exact ⟨trivial, trivial⟩
  · refine ⟨fun a b ha hb => ?_, fun x y => ⟨_, rfl⟩⟩
    refine congrArg Except.ok ?_
    split
    next h => rw [min_eq_right ((hlt b a hb ha).mp h).le]
    next h => rw [min_eq_left (not_lt.mp (mt (hlt b a hb ha).mpr h))]

/-- An engine that was built for a relaxing computation and a graph. -/
theorem Relaxing.sets_of_built {s : Scalar} {α : Type} [LinearOrder α] {r : Relaxing s}
    {code : α → s.Number} {fits : α → Prop} {start : Nat → α} {pass : α → α} {memory : Memory}
    {g : Adjacency} {edges : List (Nat × Nat)} {config : Config} {delivery : Delivery s.Number}
    {engine : Engine s.Number Unit}
    (built : Engine.Built memory g.toGraph config r.computation delivery engine)
    (holds : g.Holds edges) (stands : r.Stands code fits start pass)
    (least : delivery.Least code fits) (total : delivery.Total)
    (covers : ∀ t, ∀ v < g.nodes, ∀ a,
      Reaches (fun u => outgoing u edges) start pass t v a → fits a ∧ fits (pass a)) :
    r.Sets code fits start pass (fun u => outgoing u edges) delivery engine := by
  obtain ⟨hgraph, -, hcomputation⟩ := built.parts
  obtain ⟨schema, hschema, hvalues, -⟩ := built.beginning
  have hsmall : g.nodes < countLimit := by
    have hslots := slots_lt holds.room
    omega
  have hnodes : engine.graph.nodes = g.nodes := by rw [hgraph]; rfl
  exact {
    stands := stands
    least := least
    total := total
    computation := hcomputation
    rows := by
      rw [hgraph]
      exact holds.rows
    ready := built.ready
    admits := by
      rw [hnodes, ValueStore.create_ok hvalues, Schema.ofFields_ok hschema]
      exact fun v hv => ValueStore.zeros_single_admits r.key s hsmall hv
    small := by
      rw [hnodes]
      exact hsmall
    covers := by
      rw [hnodes]
      exact covers }

/-- What a run over a graph comes to: after every superstep the least values that reach the nodes
along as many edges as there were supersteps before, and at its end, where it has converged or had
as many supersteps as there are nodes, the least along any number of edges. -/
theorem Relaxing.Sets.exact {s : Scalar} {α : Type} [LinearOrder α] {r : Relaxing s}
    {code : α → s.Number} {fits : α → Prop} {start : Nat → α} {pass : α → α} {memory : Memory}
    {g : Adjacency} {edges : List (Nat × Nat)} {config : Config} {delivery : Delivery s.Number}
    {engine : Engine s.Number Unit} {schedule : Schedule} {edge : Nat → Nat → Prop}
    (h : r.Sets code fits start pass (fun u => outgoing u edges) delivery engine)
    (hedge : ∀ a b, (a, b) ∈ edges ↔ edge a b)
    (built : Engine.Built memory g.toGraph config r.computation delivery engine)
    (hv : schedule.Valid) (calm : engine.state.signals.isRaised engine.watched = false)
    (still : ∀ superstep, schedule.interrupts superstep = false) :
    (∀ superstep converged p, Boundary engine schedule converged p →
      p.stats.size = superstep + 1 → ∀ v < g.nodes,
        ∃ a, IsLeast (offers edge start pass superstep v) a ∧
          p.state.values.read s r.key v = .ok (s.ofNumber (code a))) ∧
    ∃ result, (engine.runWith schedule).result = .ok result ∧ result.status ≠ .cancelled ∧
      (result.status = .converged ∨ max g.nodes 1 ≤ config.maxSupersteps → ∀ v < g.nodes,
        ∃ a, (∀ t, result.ran - 1 ≤ t → IsLeast (offers edge start pass t v) a) ∧
          result.values.read s r.key v = .ok (s.ofNumber (code a))) ∧
      (g.nodes + 1 ≤ config.maxSupersteps → result.status = .converged) := by
  have hsame : (fun a b => b ∈ outgoing a edges) = edge := by
    funext a b
    rw [mem_outgoing, hedge]
  obtain ⟨hgraph, hconfig, -⟩ := built.parts
  have hn : engine.graph.nodes = g.nodes := by
    rw [hgraph]
    rfl
  constructor
  · intro superstep converged p hp hsize v hvn
    obtain ⟨value, hrelaxed⟩ := h.relaxed hv hp (by omega)
    have hleast := hrelaxed.least v (by omega)
    rw [hsize, Nat.add_sub_cancel, Relaxing.Reaches, hsame] at hleast
    exact ⟨value v, hleast, hrelaxed.read v (by omega)⟩
  · obtain ⟨result, value, hresult, hstatus, hread, hdone, hconverged⟩ :=
      h.run hv calm still (by rw [hconfig]; exact Config.maxSupersteps_pos built.validated)
    rw [hn, hconfig] at hdone hconverged
    refine ⟨result, hresult, hstatus, fun hend v hvn => ⟨value v, ?_, (hread v (by omega)).1⟩,
      hconverged⟩
    have hall := hdone (hend.imp_right fun hle => (le_max_left _ _).trans hle) v hvn
    simp only [Relaxing.Reaches] at hall
    rwa [hsame] at hall

end BulkSync
