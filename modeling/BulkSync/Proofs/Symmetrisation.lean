import BulkSync.Proofs.WeakComponents

namespace BulkSync

theorem count_outgoing (node target : Nat) (edges : List (Nat × Nat)) :
    (outgoing node edges).count target = edges.count (node, target) := by
  induction edges with
  | nil => rfl
  | cons e rest ih =>
    have hcons : outgoing node (e :: rest) = outgoing node [e] ++ outgoing node rest :=
      outgoing_append node [e] rest
    obtain ⟨source, other⟩ := e
    rw [hcons, List.count_append, ih, List.count_cons, Nat.add_comm]
    by_cases hs : source = node
    · subst hs
      simp [outgoing_single_self, List.count_singleton]
    · simp [outgoing_single_other hs, hs]

namespace Adjacency

/-- How many edges lead from one node to another, by what a graph tells of the first. -/
def edgeCount (g : Adjacency) (source target : Nat) : Nat :=
  match g.neighbors source with
  | .ok targets => targets.count target
  | .error _ => 0

variable {g u : Adjacency} {edges es : List (Nat × Nat)}

theorem Holds.edgeCount_eq (h : g.Holds edges) (a b : Nat) :
    g.edgeCount a b = edges.count (a, b) := by
  unfold edgeCount
  by_cases ha : a < g.nodes
  · rw [h.neighbors a ha]
    exact count_outgoing a b edges
  · obtain ⟨f, hf⟩ := h.outside a (Nat.le_of_not_lt ha)
    have hnone : (a, b) ∉ edges := fun hab => ha (h.inside _ hab).1
    rw [hf, List.count_eq_zero_of_not_mem hnone]

theorem Holds.edge_iff_edgeCount_pos (h : g.Holds edges) (a b : Nat) :
    g.Edge a b ↔ 0 < g.edgeCount a b := by
  rw [h.edge_iff, h.edgeCount_eq, List.count_pos_iff]

end Adjacency

open Adjacency

/-- With every edge followed by its reverse, a graph is made that leads from one node to another by
as many edges as there were between them in both directions; what led from a node to itself does so
twice as often. It has the same nodes, and paths in it are what weakly connects two nodes of the
graph it was made of. -/
theorem undirected_symmetrises {g : Adjacency} (made : g.Made)
    (few : g.relationships < 2 ^ 62) :
    ∃ u, g.undirected = .ok u ∧ u.nodes = g.nodes ∧ u.relationships = 2 * g.relationships ∧
      (∀ a < g.nodes, ∃ targets, u.neighbors a = .ok targets ∧
        ∀ b, targets.count b = g.edgeCount a b + g.edgeCount b a) ∧
      (∀ a b, u.edgeCount a b = u.edgeCount b a) ∧
      (∀ nodes edges, Adjacency.ofEdges nodes edges = .ok g →
        ∀ a b, g.edgeCount a b = edges.count (a, b)) ∧
      ∀ a b, (∃ length, Walk u.Edge length a b) ↔ Relation.EqvGen g.Edge a b := by
  obtain ⟨edges, hholds⟩ := made.holds
  have hfew : 2 * edges.length < countLimit := by
    rw [← hholds.relationships, show countLimit = 2 ^ 64 from rfl]
    omega
  obtain ⟨u, es, hu, hes, hnodes, hlength, hcount⟩ := hholds.undirected_count hfew
  have hboth : ∀ a b, u.edgeCount a b = g.edgeCount a b + g.edgeCount b a := by
    intro a b
    rw [hes.edgeCount_eq, hholds.edgeCount_eq, hholds.edgeCount_eq, hcount]
  have hlinked : u.Edge = g.Linked := by
    funext a b
    rw [eq_iff_iff, hes.edge_iff_edgeCount_pos, hboth, Nat.add_pos_iff_pos_or_pos,
      ← hholds.edge_iff_edgeCount_pos, ← hholds.edge_iff_edgeCount_pos]
    rfl
  refine ⟨u, hu, hnodes, ?_, fun a ha => ?_, fun a b => ?_, fun nodes es hmade => ?_, fun a b => ?_⟩
  · rw [hes.relationships, hlength, hholds.relationships]
  · refine ⟨outgoing a es, hes.neighbors a (by omega), fun b => ?_⟩
    rw [count_outgoing, ← hes.edgeCount_eq, hboth]
  · rw [hboth, hboth, Nat.add_comm]
  · exact (ofEdges_holds hmade).2.edgeCount_eq
  · rw [hlinked]
    exact mem_component.symm

/-- An edge that is there twice, one of them with its reverse, and an edge from a node to itself. -/
theorem undirected_symmetrises_four : ∃ g u,
    Adjacency.ofEdges 4 [(0, 1), (0, 1), (1, 0), (2, 2), (3, 1)] = .ok g ∧
    g.undirected = .ok u ∧ u.nodes = 4 ∧ u.relationships = 10 ∧
    (∃ targets, u.neighbors 1 = .ok targets ∧ targets.count 0 = 3 ∧ targets.count 3 = 1) ∧
    (∃ targets, u.neighbors 2 = .ok targets ∧ targets.count 2 = 2) ∧
    ∃ length, Walk u.Edge length 0 3 := by
  have hg : Adjacency.ofEdges 4 [(0, 1), (0, 1), (1, 0), (2, 2), (3, 1)] =
      .ok ⟨#[0, 2, 3, 4, 5], #[1, 1, 0, 2, 1]⟩ := rfl
  obtain ⟨u, hu, hnodes, hrelationships, hread, -, hcount, hpath⟩ :=
    undirected_symmetrises (.ofEdges hg) (by decide)
  have hcounts := hcount _ _ hg
  simp only [hcounts] at hread
  have hedge : ∀ a b, (a, b) ∈ [(0, 1), (0, 1), (1, 0), (2, 2), (3, 1)] →
      Edge ⟨#[0, 2, 3, 4, 5], #[1, 1, 0, 2, 1]⟩ a b :=
    fun a b => ((ofEdges_holds hg).2.edge_iff a b).mpr
  refine ⟨_, u, hg, hu, hnodes, hrelationships, ?_, ?_, ?_⟩
  · obtain ⟨targets, htargets, hall⟩ := hread 1 (by decide)
    exact ⟨targets, htargets, hall 0, hall 3⟩
  · obtain ⟨targets, htargets, hall⟩ := hread 2 (by decide)
    exact ⟨targets, htargets, hall 2⟩
  · exact (hpath 0 3).mpr (.trans _ 1 _ (.rel _ _ (hedge 0 1 (by decide)))
      (.symm _ _ (.rel _ _ (hedge 3 1 (by decide)))))

end BulkSync
