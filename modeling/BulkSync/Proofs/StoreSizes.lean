import BulkSync.Proofs.Boundaries
import BulkSync.Proofs.Confinement
import BulkSync.Proofs.NewStores
import BulkSync.Tool

namespace BulkSync

variable {M R : Type}

theorem ValueStore.set_nodes {s t : ValueStore} {key : String} {node : Nat} {value : Value}
    (h : s.set key node value = .ok () t) : t.nodes = s.nodes :=
  (ValueStore.set_frame (Nat.succ_ne_self node) h).nodes.symm

theorem masterHandler_store_nodes {op : MasterOp} {s t : State M} {x : op.Answer}
    (h : masterHandler op s = .ok x t) : t.values.nodes = s.values.nodes := by
  cases op with
  | set key node value =>
    simp only [masterHandler] at h
    split at h
    next values hset =>
      cases h
      exact ValueStore.set_nodes hset
    next => cases h
  | _ => rw [(masterHandler_ok h).values rfl]

theorem Consulted.store_nodes {engine : Engine M R} {superstep : Nat}
    {calls : List (Call masterSignature)} {stop : Bool} {report : R} {p q : Progress M R}
    (h : Consulted engine superstep calls stop report p q) :
    q.state.values.nodes = p.state.values.nodes := by
  have hkept : ((engine.computation.master superstep engine.graph.nodes).perform masterHandler
      p.state).state.values.nodes = p.state.values.nodes :=
    perform_invariant (I := fun _ (t : State M) => t.values.nodes = p.state.values.nodes)
      (fun _ _ _ _ _ ht hop => (masterHandler_store_nodes hop).trans ht) _ rfl
      (by rw [h.performed])
  rwa [h.performed] at hkept

/-- A superstep does not change how many nodes have values: no one visits the node after the last
one, so the store is as before there. -/
theorem Stepped.store_nodes {engine : Engine M R} {delivery : Delivery M} {schedule : Schedule}
    {p q : Progress M R} {partitions : List Partition} {es : List (Entry M R)} {round : Round M R}
    {calls : List (Call masterSignature)} {stop : Bool} {report : R}
    (hr : engine.Ready delivery) (hv : schedule.Valid)
    (h : Stepped engine schedule p partitions es round calls stop report q) :
    q.state.values.nodes = p.state.values.nodes := by
  have hperm := h.visits hr hv
  have hpassed := h.played.passed (hperm.nodup_iff.mpr List.nodup_range) engine.graph.nodes
  have hround : round.state.values.nodes = p.state.values.nodes := by
    generalize ownEntries engine.graph.nodes es = own at hpassed
    cases hpassed with
    | unvisited absent agree => exact agree.values.nodes.symm
    | visited fits before visit after together present =>
      have hlt := List.mem_range.mp (hperm.mem_iff.mp (node_mem_of_visit present))
      exact absurd hlt (Nat.lt_irrefl _)
  exact h.consulted.store_nodes.trans hround

theorem boundary_store_nodes {engine : Engine M R} {delivery : Delivery M} {schedule : Schedule}
    {converged : Bool} {p : Progress M R} (hr : engine.Ready delivery) (hv : schedule.Valid)
    (h : Boundary engine schedule converged p) :
    p.state.values.nodes = engine.state.values.nodes := by
  induction h with
  | start => rfl
  | next reached step ih =>
    obtain ⟨_, _, _, _, _, _, hstep, _⟩ := superstep_ok hv step
    exact (hstep.store_nodes hr hv).trans ih

/-- A run to its end was the run of an engine that was built for it. -/
theorem runToEnd_ok {graph : Graph} {config : Config} {computation : Computation M R}
    {delivery : Delivery M} {result : RunResult}
    (h : runToEnd graph config computation delivery = .ok result) :
    ∃ engine, Engine.Built .addressable graph config computation delivery engine ∧
      engine.run.result = .ok result := by
  obtain ⟨engine, hcreate, hrun⟩ := bind_eq_ok_iff.mp h
  exact ⟨engine, .create hcreate, orFailure_ok hrun⟩

/-- What is left of a run are values of as many nodes as the graph has. -/
theorem runToEnd_store_nodes {graph : Graph} {config : Config} {computation : Computation M R}
    {delivery : Delivery M} {result : RunResult}
    (h : runToEnd graph config computation delivery = .ok result) :
    result.values.nodes = graph.nodes := by
  obtain ⟨engine, built, hrun⟩ := runToEnd_ok h
  obtain ⟨q, hboundary, -, -, hresult⟩ := runWith_ok hrun
  obtain ⟨schema, -, hvalues, -⟩ := built.beginning
  rw [hresult]
  refine (boundary_store_nodes built.ready sequential_valid hboundary).trans ?_
  rw [ValueStore.create_ok hvalues]
  rfl

theorem collectFrom_ok {α : Type} {f : Nat → Except Fault α} {count id : Nat} {found : Array α}
    {xs : List α} (h : collectFrom f count id found = .ok xs) :
    ∃ new, xs = found.toList ++ new ∧
      List.Forall₂ (fun node x => f node = .ok x) (List.range' id count) new := by
  induction count generalizing id found with
  | zero =>
    cases h
    exact ⟨[], (List.append_nil _).symm, .nil⟩
  | succ count ih =>
    simp only [collectFrom] at h
    split at h
    next x hx =>
      obtain ⟨new, rfl, hnew⟩ := ih h
      exact ⟨x :: new, by simp, .cons hx hnew⟩
    next => cases h

/-- The cells of a key are those of all nodes in order. -/
theorem ValueStore.readAll_ok {store : ValueStore} {s : Scalar} {key : String}
    {cells : List s.Cell} (h : store.readAll s key = .ok cells) :
    List.Forall₂ (fun node x => store.read s key node = .ok x) (List.range store.nodes) cells := by
  obtain ⟨_, _, hcollect⟩ := bind_eq_ok_iff.mp h
  obtain ⟨new, rfl, hnew⟩ := collectFrom_ok hcollect
  rwa [List.range_eq_range']

end BulkSync
