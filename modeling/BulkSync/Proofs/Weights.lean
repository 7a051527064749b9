import BulkSync.Partition
import BulkSync.Proofs.Adjacencies

namespace BulkSync

/-- The degrees that a graph tells of its nodes, together as many as it has relationships. -/
structure Graph.HasDegrees (g : Graph) (degree : Nat → Nat) : Prop where
  each : ∀ u < g.nodes, g.degree u = .ok (degree u)
  sum : ((List.range g.nodes).map degree).sum = g.relationships

theorem Adjacency.Made.hasDegrees {g : Adjacency} (made : g.Made) :
    ∃ degree, g.toGraph.HasDegrees degree := by
  obtain ⟨edges, hg⟩ := made.holds
  exact ⟨fun u => (outgoing u edges).length, hg.degree,
    hg.groupStart_nodes.trans hg.relationships.symm⟩

/-- What nodes weigh together: each weighs its degree and one more. -/
def weigh (degree : Nat → Nat) (nodes : List Nat) : Nat :=
  (nodes.map fun u => degree u + 1).sum

section Weights

variable (degree : Nat → Nat)

@[simp]
theorem weigh_nil : weigh degree [] = 0 := rfl

@[simp]
theorem weigh_cons (u : Nat) (us : List Nat) :
    weigh degree (u :: us) = degree u + 1 + weigh degree us := rfl

@[simp]
theorem weigh_append (us vs : List Nat) :
    weigh degree (us ++ vs) = weigh degree us + weigh degree vs := by
  rw [weigh, List.map_append, List.sum_append]
  rfl

theorem length_le_weigh (us : List Nat) : us.length ≤ weigh degree us := by
  induction us with
  | nil => exact Nat.le_refl 0
  | cons u us ih =>
    rw [List.length_cons, weigh_cons]
    omega

theorem weigh_range_succ (start count : Nat) :
    weigh degree (List.range' start (count + 1)) =
      weigh degree (List.range' start count) + (degree (start + count) + 1) := by
  rw [List.range'_1_concat, weigh_append, weigh_cons, weigh_nil, Nat.add_zero]

theorem weigh_within {start count first some : Nat} (hfirst : start ≤ first)
    (hlast : first + some ≤ start + count) :
    weigh degree (List.range' first some) ≤ weigh degree (List.range' start count) := by
  have hcount : count = first - start + (some + (start + count - (first + some))) := by omega
  have hstart : start + (first - start) = first := by omega
  rw [hcount, ← List.range'_append_1, ← List.range'_append_1, hstart, weigh_append, weigh_append]
  omega

end Weights

theorem Graph.HasDegrees.weigh_nodes {g : Graph} {degree : Nat → Nat} (h : g.HasDegrees degree) :
    weigh degree (List.range g.nodes) = g.relationships + g.nodes := by
  rw [weigh, List.sum_map_add, h.sum, List.map_const', List.sum_replicate_nat, List.length_range,
    Nat.mul_one]

theorem Partition.ids_dropLast (p : Partition) :
    p.ids.dropLast = List.range' p.start (p.length - 1) := by
  unfold Partition.ids
  cases p.length with
  | zero => rfl
  | succ length => rw [List.range'_1_concat, List.dropLast_concat, Nat.add_sub_cancel]

theorem Partition.length_le_weigh (degree : Nat → Nat) (p : Partition) :
    p.length ≤ weigh degree p.ids := by
  have hlength := BulkSync.length_le_weigh degree p.ids
  rwa [Partition.ids, List.length_range'] at hlength

end BulkSync
