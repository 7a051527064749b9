import BulkSync.Proofs.Adjacencies

namespace BulkSync

/-- An edge between nodes that exist. -/
def Inside (nodes : Nat) (e : Nat × Nat) : Prop :=
  e.1 < nodes ∧ e.2 < nodes

section Outside

variable {nodes : Nat} {edges : List (Nat × Nat)}

theorem outgoing_eq_filter (node : Nat) (edges : List (Nat × Nat)) :
    outgoing node edges = (edges.filter fun e => e.1 == node).map Prod.snd := by
  have hkey : ∀ e : Nat × Nat, (some e.1 == some node) = (e.1 == node) := fun _ => rfl
  simp only [outgoing, withKey, hkey]

/-- Of the edges that leave the graph there is a first one. -/
theorem exists_first_outside (h : ¬ ∀ e ∈ edges, Inside nodes e) :
    ∃ earlier e later, edges = earlier ++ e :: later ∧ (∀ d ∈ earlier, Inside nodes d) ∧
      ¬ Inside nodes e := by
  induction edges with
  | nil => exact absurd (List.forall_mem_nil _) h
  | cons e rest ih =>
    by_cases he : Inside nodes e
    · have hrest : ¬ ∀ d ∈ rest, Inside nodes d :=
        fun hall => h (List.forall_mem_cons.mpr ⟨he, hall⟩)
      obtain ⟨earlier, d, later, rfl, hearlier, hd⟩ := ih hrest
      exact ⟨e :: earlier, d, later, rfl, List.forall_mem_cons.mpr ⟨he, hearlier⟩, hd⟩
    · exact ⟨[], e, rest, rfl, List.forall_mem_nil _, he⟩

/-- The first edge that leaves the graph is named, whatever comes after it. -/
theorem ofEdges_outside {earlier later : List (Nat × Nat)} {e : Nat × Nat}
    (room : (nodes + 1) * countSize < objectLimit) (hearlier : ∀ d ∈ earlier, Inside nodes d)
    (he : ¬ Inside nodes e) :
    Adjacency.ofEdges nodes (earlier ++ e :: later) = .error (.edgeRange e.1 e.2 nodes) := by
  have hfind : ((earlier ++ e :: later).find? fun d =>
      !(decide (d.1 < nodes) && decide (d.2 < nodes))) = some e := by
    have hout : (!(decide (e.1 < nodes) && decide (e.2 < nodes))) = true := by
      rw [← Bool.decide_and, Bool.not_eq_true', decide_eq_false_iff_not]
      exact he
    rw [List.find?_append, find_outside_eq_none.mpr hearlier, Option.none_or]
    exact List.find?_cons_of_pos hout
  simp only [Adjacency.ofEdges, bind, Except.bind, addCounts_eq_ok_iff.mpr ⟨rfl, slots_lt room⟩,
    makeRoom_eq_ok_iff.mpr room, hfind]
  rfl

end Outside

/-- Where each node of a graph tells how many edges leave it, the numbers add up to all edges. -/
theorem Adjacency.Holds.degrees {g : Adjacency} {edges : List (Nat × Nat)} (h : g.Holds edges) :
    ∃ degrees, (List.range g.nodes).mapM g.degree = .ok degrees ∧ degrees.sum = edges.length := by
  have hdegrees := mapM_ok fun u hu => h.degree u (List.mem_range.mp hu)
  exact ⟨_, hdegrees, h.groupStart_nodes⟩

/-- Edges are grouped by source and keep their order. If one of them leaves the graph, the first one
that does is named; otherwise every node tells the targets of its edges as they were given, as often
as they were, and how many there are, and together those are all edges. -/
theorem ofEdges_groups_by_source {nodes : Nat} {edges : List (Nat × Nat)}
    (hroom : makeRoom (nodes + 1) countSize = .ok ()) (hsmall : edges.length < countLimit) :
    ((∃ fault, Adjacency.ofEdges nodes edges = .error fault) ↔
      ∃ e ∈ edges, nodes ≤ e.1 ∨ nodes ≤ e.2) ∧
    (∀ earlier e later, edges = earlier ++ e :: later →
      (∀ d ∈ earlier, d.1 < nodes ∧ d.2 < nodes) → (nodes ≤ e.1 ∨ nodes ≤ e.2) →
        Adjacency.ofEdges nodes edges = .error (.edgeRange e.1 e.2 nodes)) ∧
    ((∀ e ∈ edges, e.1 < nodes ∧ e.2 < nodes) →
      ∃ g, Adjacency.ofEdges nodes edges = .ok g ∧ g.toGraph.nodes = nodes ∧
        g.toGraph.relationships = edges.length ∧
        (∀ u < nodes,
          g.neighbors u = .ok ((edges.filter fun e => e.1 == u).map Prod.snd) ∧
          g.toGraph.neighbors u = .ok ((edges.filter fun e => e.1 == u).map Prod.snd) ∧
          g.degree u = .ok ((edges.filter fun e => e.1 == u).map Prod.snd).length ∧
          g.toGraph.degree u = .ok ((edges.filter fun e => e.1 == u).map Prod.snd).length) ∧
        ∃ degrees, (List.range nodes).mapM g.toGraph.degree = .ok degrees ∧
          degrees.sum = g.toGraph.relationships) := by
  have room := makeRoom_eq_ok_iff.mp hroom
  have hout : ∀ e : Nat × Nat, (nodes ≤ e.1 ∨ nodes ≤ e.2) ↔ ¬ Inside nodes e := by
    intro e
    unfold Inside
    omega
  refine ⟨⟨?_, ?_⟩, ?_, ?_⟩
  · rintro ⟨fault, hfault⟩
    by_contra hnone
    have inside : ∀ e ∈ edges, Inside nodes e := by
      intro e he
      by_contra hleaves
      exact hnone ⟨e, he, (hout e).mpr hleaves⟩
    obtain ⟨g, hg⟩ := ofEdges_exists room hsmall inside
    rw [hg] at hfault
    cases hfault
  · rintro ⟨e, he, hleaves⟩
    have hnot : ¬ ∀ d ∈ edges, Inside nodes d := fun hall => (hout e).mp hleaves (hall e he)
    obtain ⟨earlier, d, later, rfl, hearlier, hd⟩ := exists_first_outside hnot
    exact ⟨_, ofEdges_outside room hearlier hd⟩
  · rintro earlier e later rfl hearlier hleaves
    exact ofEdges_outside room hearlier ((hout e).mp hleaves)
  · intro inside
    obtain ⟨g, hg⟩ := ofEdges_exists room hsmall inside
    obtain ⟨hnodes, holds⟩ := ofEdges_holds hg
    obtain ⟨degrees, hdegrees, hsum⟩ := holds.degrees
    rw [hnodes] at hdegrees
    refine ⟨g, hg, hnodes, holds.relationships, fun u hu => ?_, degrees, hdegrees,
      hsum.trans holds.relationships.symm⟩
    have hneighbors := holds.neighbors u (hnodes.symm ▸ hu)
    have hdegree := holds.degree u (hnodes.symm ▸ hu)
    rw [outgoing_eq_filter] at hneighbors hdegree
    exact ⟨hneighbors, hneighbors, hdegree, hdegree⟩

/-- Edges out of order, one twice and one from a node to itself; with an edge to a fourth node in
the middle, that edge is named. -/
theorem ofEdges_groups_three :
    (∃ g, Adjacency.ofEdges 3 [(2, 0), (0, 1), (2, 2), (0, 1), (2, 1)] = .ok g ∧
      g.toGraph.neighbors 0 = .ok [1, 1] ∧ g.toGraph.neighbors 1 = .ok [] ∧
      g.neighbors 2 = .ok [0, 2, 1] ∧ g.toGraph.degree 2 = .ok 3) ∧
    Adjacency.ofEdges 3 [(2, 0), (0, 3), (4, 4)] = .error (.edgeRange 0 3 3) := by
  constructor
  · obtain ⟨_, _, hgroups⟩ :=
      @ofEdges_groups_by_source 3 [(2, 0), (0, 1), (2, 2), (0, 1), (2, 1)] rfl (by decide)
    obtain ⟨g, hg, _, _, hread, _⟩ := hgroups (by decide)
    exact ⟨g, hg, (hread 0 (by decide)).2.1, (hread 1 (by decide)).2.1, (hread 2 (by decide)).1,
      (hread 2 (by decide)).2.2.2⟩
  · have hedges : [(2, 0), (0, 3), (4, 4)] = [(2, 0)] ++ (0, 3) :: [(4, 4)] := rfl
    exact (ofEdges_groups_by_source rfl (by decide)).2.1 [(2, 0)] (0, 3) [(4, 4)] hedges
      (by decide) (by decide)

end BulkSync
