import BulkSync.PageRank
import BulkSync.Proofs.Adjacencies

namespace BulkSync

/-- Folds a list from the left, its first member starting it. -/
def leftFold {α : Type} (f : α → α → α) : List α → Option α
  | [] => none
  | x :: xs => some (xs.foldl f x)

/-- The sources of the edges into a node, in the order of the edges. -/
def incoming (node : Nat) (edges : List (Nat × Nat)) : List Nat :=
  (edges.filter fun e => e.2 == node).map Prod.fst

/-- What a node is given along the edges into it, if the source of an edge gives each of its edges
the same part of its rank. -/
def given (edges : List (Nat × Nat)) (rank : Nat → Float) (node : Nat) : List Float :=
  (incoming node edges).map fun u => rank u / Float.ofNat (outgoing u edges).length

/-- The ranks of plain power iteration after so many steps: at first all nodes have the same, and a
step adds up what each is given. -/
def powerRank (nodes : Nat) (edges : List (Nat × Nat)) : Nat → Nat → Float
  | 0, _ => 1.0 / Float.ofNat nodes
  | step + 1, node =>
    let total := leftFold (· + ·) (given edges (powerRank nodes edges step) node)
    (1.0 - damping) / Float.ofNat nodes + damping * total.toList.foldl (· + ·) 0.0

/-- The greatest change of a rank in a step; before the first one there is none. -/
def rankChange (nodes : Nat) (edges : List (Nat × Nat)) : Nat → Option Float
  | 0 => none
  | step + 1 => leftFold (fun a b => if a < b then b else a) ((List.range nodes).map fun v =>
      (powerRank nodes edges (step + 1) v - powerRank nodes edges step v).abs)

/-- In a step no rank changed by as much as the tolerance. -/
def RanksSettle (tolerance : Float) (nodes : Nat) (edges : List (Nat × Nat)) (step : Nat) : Prop :=
  ∃ change, rankChange nodes edges step = some change ∧ change < tolerance

theorem fold_eq_leftFold {α : Type} (f : α → α → α) (l : List α) :
    Combiner.fold (fun a b => .ok (f a b)) l = .ok (leftFold f l) := by
  cases l with
  | nil => rfl
  | cons x xs =>
    have hfold : xs.foldlM (fun a b => (.ok (f a b) : Except Fault α)) x = .ok (xs.foldl f x) :=
      List.foldlM_pure
    simp only [Combiner.fold, hfold, bind, Except.bind]
    rfl

section Settling

variable {tolerance : Float} {nodes step : Nat} {edges : List (Nat × Nat)}

theorem ranksSettle_iff : RanksSettle tolerance nodes edges step ↔
    (rankChange nodes edges step).any (· < tolerance) = true := by
  unfold RanksSettle
  cases rankChange nodes edges step <;> simp

/-- Nothing settles before the first step. -/
theorem RanksSettle.pos (h : RanksSettle tolerance nodes edges step) : 0 < step := by
  obtain ⟨change, hchange, -⟩ := h
  cases step with
  | zero => cases hchange
  | succ step => exact Nat.succ_pos step

end Settling

/-- What the nodes give a node, one after the other, is what it is given along its edges. -/
theorem given_in_node_order {g : Adjacency} {edges told : List (Nat × Nat)} (h : g.Holds edges)
    (ht : g.edges = .ok told) (rank : Nat → Float) (node : Nat) :
    ((List.range g.nodes).flatMap fun u => List.replicate ((outgoing u edges).count node)
      (rank u / Float.ofNat (outgoing u edges).length)) = given told rank node := by
  -- the edges that the graph tells are all of them in another order, so degrees are the same
  have hlength : ∀ u, (outgoing u told).length = (outgoing u edges).length := by
    obtain ⟨es, hes, hperm⟩ := h.told
    cases hes.symm.trans ht
    intro u
    exact ((hperm.filter _).map _).length_eq
  cases h.edges_eq.symm.trans ht
  have hincoming : ∀ u, ((((outgoing u edges).map fun target => (u, target)).filter fun e =>
      e.2 == node).map Prod.fst) = .replicate ((outgoing u edges).count node) u := by
    intro u
    generalize outgoing u edges = row
    induction row with
    | nil => rfl
    | cons target rest ih =>
      by_cases hnode : target = node
      · simp [hnode, List.replicate_succ, ← ih]
      · simp [hnode, ← ih]
  rw [given, incoming, List.filter_flatMap, List.map_flatMap, List.map_flatMap]
  refine List.flatMap_congr fun u _ => ?_
  rw [hincoming, List.map_replicate, hlength]

end BulkSync
