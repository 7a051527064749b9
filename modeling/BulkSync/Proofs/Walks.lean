import Mathlib.Data.Finset.Card
import Mathlib.Order.Bounds.Basic
import Mathlib.Order.Iterate

namespace BulkSync

/-- A walk along so many edges. -/
inductive Walk (edge : Nat → Nat → Prop) : (length source target : Nat) → Prop
  | refl (node) : Walk edge 0 node node
  | tail {length source mid target} (walk : Walk edge length source mid)
      (step : edge mid target) : Walk edge (length + 1) source target

namespace Walk

variable {edge : Nat → Nat → Prop} {nodes i j k u v w : Nat}

theorem append (h : Walk edge i u v) (h' : Walk edge j v w) : Walk edge (i + j) u w := by
  induction h' with
  | refl => exact h
  | tail _ step ih => exact (ih h).tail step

/-- Where every edge can be walked back, so can every walk. -/
theorem reverse (sym : ∀ a b, edge a b → edge b a) (h : Walk edge k u v) : Walk edge k v u := by
  induction h with
  | refl node => exact .refl node
  | @tail k u mid w _ step ih =>
    rw [Nat.add_comm]
    exact ((Walk.refl w).tail (sym mid w step)).append ih

/-- A walk passes a node after any number of its edges. -/
theorem split (h : Walk edge k u w) (hj : j ≤ k) :
    ∃ v, Walk edge j u v ∧ Walk edge (k - j) v w := by
  induction h with
  | refl node =>
    obtain rfl : j = 0 := by omega
    exact ⟨node, .refl node, .refl node⟩
  | @tail k u mid w walk step ih =>
    by_cases hlast : j = k + 1
    · subst hlast
      refine ⟨w, walk.tail step, ?_⟩
      rw [Nat.sub_self]
      exact .refl w
    · obtain ⟨v, hfirst, hrest⟩ := ih (by omega)
      refine ⟨v, hfirst, ?_⟩
      rw [show k + 1 - j = k - j + 1 by omega]
      exact hrest.tail step

theorem source_lt (inside : ∀ a b, edge a b → a < nodes ∧ b < nodes) (h : Walk edge k u v)
    (hv : v < nodes) : u < nodes := by
  induction h with
  | refl => exact hv
  | tail _ step ih => exact ih (inside _ _ step).1

theorem target_lt (inside : ∀ a b, edge a b → a < nodes ∧ b < nodes) (h : Walk edge k u v)
    (hu : u < nodes) : v < nodes := by
  cases h with
  | refl => exact hu
  | tail _ step => exact (inside _ _ step).2

/-- A walk that is not shorter than the number of nodes passes some node twice, and what is
between can be left out. -/
theorem exists_shorter (inside : ∀ a b, edge a b → a < nodes ∧ b < nodes) (h : Walk edge k u v)
    (hv : v < nodes) (hk : nodes ≤ k) : ∃ j < k, Walk edge j u v := by
  have hu : u < nodes := h.source_lt inside hv
  choose! passed hfirst hrest using fun j (hj : j ≤ k) => h.split hj
  have hcard : (Finset.range nodes).card < (Finset.range (k + 1)).card := by
    rw [Finset.card_range, Finset.card_range]
    omega
  have hmaps : Set.MapsTo passed (Finset.range (k + 1)) (Finset.range nodes) := by
    intro j hj
    have hj' : j ≤ k := Nat.le_of_lt_succ (Finset.mem_range.mp hj)
    exact Finset.mem_coe.mpr (Finset.mem_range.mpr ((hfirst j hj').target_lt inside hu))
  obtain ⟨a, ha, b, hb, hne, hsame⟩ := Finset.exists_ne_map_eq_of_card_lt_of_maps_to hcard hmaps
  have ha' : a ≤ k := Nat.le_of_lt_succ (Finset.mem_range.mp ha)
  have hb' : b ≤ k := Nat.le_of_lt_succ (Finset.mem_range.mp hb)
  rcases Nat.lt_or_gt_of_ne hne with hlt | hgt
  · refine ⟨a + (k - b), by omega, (hfirst a ha').append ?_⟩
    rw [hsame]
    exact hrest b hb'
  · refine ⟨b + (k - a), by omega, (hfirst b hb').append ?_⟩
    rw [← hsame]
    exact hrest a ha'

theorem exists_lt_nodes (inside : ∀ a b, edge a b → a < nodes ∧ b < nodes) (h : Walk edge k u v)
    (hv : v < nodes) : ∃ j < nodes, j ≤ k ∧ Walk edge j u v := by
  induction k using Nat.strong_induction_on with
  | _ k ih =>
    by_cases hk : k < nodes
    · exact ⟨k, hk, Nat.le_refl k, h⟩
    · obtain ⟨j, hj, hshorter⟩ := h.exists_shorter inside hv (by omega)
      obtain ⟨i, hi, hle, hwalk⟩ := ih j hj hshorter
      exact ⟨i, hi, by omega, hwalk⟩

end Walk

section Offers

variable {α : Type}

/-- The values that reach a node along at most so many edges: each node starts with one, and every
edge makes of it what is passed on. -/
def offers (edge : Nat → Nat → Prop) (start : Nat → α) (pass : α → α) (edges node : Nat) : Set α :=
  {a | ∃ k ≤ edges, ∃ u, Walk edge k u node ∧ a = pass^[k] (start u)}

variable {edge : Nat → Nat → Prop} {start : Nat → α} {pass : α → α} {nodes s t v : Nat} {a : α}

theorem mem_offers_zero : a ∈ offers edge start pass 0 v ↔ a = start v := by
  constructor
  · rintro ⟨k, hk, u, hwalk, rfl⟩
    obtain rfl : k = 0 := by omega
    cases hwalk
    rfl
  · rintro rfl
    exact ⟨0, Nat.le_refl 0, v, .refl v, rfl⟩

theorem offers_mono (h : s ≤ t) : offers edge start pass s v ⊆ offers edge start pass t v := by
  rintro a ⟨k, hk, u, hwalk, ha⟩
  exact ⟨k, hk.trans h, u, hwalk, ha⟩

theorem mem_offers_succ : a ∈ offers edge start pass (s + 1) v ↔
    a ∈ offers edge start pass s v ∨
      ∃ u, edge u v ∧ ∃ b ∈ offers edge start pass s u, a = pass b := by
  constructor
  · rintro ⟨k, hk, u, hwalk, rfl⟩
    cases hwalk with
    | refl => exact .inl ⟨0, Nat.zero_le s, v, .refl v, rfl⟩
    | @tail k u mid v walk step =>
      refine .inr ⟨mid, step, pass^[k] (start u), ⟨k, by omega, u, walk, rfl⟩, ?_⟩
      rw [Function.iterate_succ_apply']
  · rintro (h | ⟨u, step, b, ⟨k, hk, w, hwalk, rfl⟩, rfl⟩)
    · exact offers_mono (Nat.le_succ s) h
    · exact ⟨k + 1, by omega, w, hwalk.tail step, by rw [Function.iterate_succ_apply']⟩

variable [LinearOrder α]

/-- What is least along fewer edges than there are nodes is least along any number of them. -/
theorem least_offers_of_nodes_le (inside : ∀ a b, edge a b → a < nodes ∧ b < nodes)
    (mono : Monotone pass) (grows : ∀ a, a ≤ pass a) (hv : v < nodes) (hs : nodes ≤ s + 1)
    (h : IsLeast (offers edge start pass s v) a) (ht : s ≤ t) :
    IsLeast (offers edge start pass t v) a := by
  refine ⟨offers_mono ht h.1, ?_⟩
  rintro b ⟨k, hk, u, hwalk, rfl⟩
  obtain ⟨j, hj, hle, hshort⟩ := hwalk.exists_lt_nodes inside hv
  have hleast : a ≤ pass^[j] (start u) := h.2 ⟨j, by omega, u, hshort, rfl⟩
  exact hleast.trans (mono.monotone_iterate_of_le_map (grows (start u)) hle)

/-- Values that no edge improves are least along any number of edges. -/
theorem least_offers_of_closed {value : Nat → α} (mono : Monotone pass)
    (h : ∀ v < nodes, IsLeast (offers edge start pass s v) (value v))
    (inside : ∀ a b, edge a b → a < nodes ∧ b < nodes)
    (closed : ∀ u v, edge u v → value v ≤ pass (value u)) (hv : v < nodes) (ht : s ≤ t) :
    IsLeast (offers edge start pass t v) (value v) := by
  refine ⟨offers_mono ht (h v hv).1, ?_⟩
  rintro b ⟨k, -, u, hwalk, rfl⟩
  clear ht
  induction hwalk with
  | refl v => exact (h v hv).2 ⟨0, Nat.zero_le s, v, .refl v, rfl⟩
  | @tail k u mid v walk step ih =>
    rw [Function.iterate_succ_apply']
    exact (closed mid v step).trans (mono (ih (inside mid v step).1))

end Offers

end BulkSync
