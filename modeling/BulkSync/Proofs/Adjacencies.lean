import BulkSync.Graph
import BulkSync.Proofs.Grouping
import Mathlib.Data.List.Induction

namespace BulkSync

/-- The targets of the edges out of a node, in the order of the list. -/
def outgoing (node : Nat) (edges : List (Nat × Nat)) : List Nat :=
  (withKey (fun e => some e.1) node edges).map Prod.snd

/-- How many edges leave the nodes before a node. -/
def groupStart (node : Nat) (edges : List (Nat × Nat)) : Nat :=
  ((List.range node).map fun u => (outgoing u edges).length).sum

section Groups

variable {edges : List (Nat × Nat)} {node nodes : Nat}

theorem outgoing_append (node : Nat) (first later : List (Nat × Nat)) :
    outgoing node (first ++ later) = outgoing node first ++ outgoing node later := by
  rw [outgoing, withKey_append, List.map_append]
  rfl

theorem outgoing_single_self (node target : Nat) : outgoing node [(node, target)] = [target] := by
  simp [outgoing, withKey]

theorem outgoing_single_other {node source : Nat} (h : source ≠ node) (target : Nat) :
    outgoing node [(source, target)] = [] := by
  simp [outgoing, withKey, h]

theorem mem_outgoing {target : Nat} : target ∈ outgoing node edges ↔ (node, target) ∈ edges := by
  simp [outgoing, withKey]

theorem groupStart_succ (node : Nat) (edges : List (Nat × Nat)) :
    groupStart (node + 1) edges = groupStart node edges + (outgoing node edges).length := by
  simp [groupStart, List.range_succ]

theorem groupStart_le {u v : Nat} (h : u ≤ v) (edges : List (Nat × Nat)) :
    groupStart u edges ≤ groupStart v edges := by
  induction h with
  | refl => exact Nat.le_refl _
  | step _ ih =>
    rw [groupStart_succ]
    omega

/-- All edges leave some node. -/
theorem groupStart_all (h : ∀ e ∈ edges, e.1 < nodes) : groupStart nodes edges = edges.length := by
  have hsum := sum_groups (fun e : Nat × Nat => some e.1) nodes (fun _ => 1) edges
    fun e he _ => ⟨e.1, h e he, rfl⟩
  simpa [groupStart, outgoing] using hsum

end Groups

theorem bumpCell_ok {cells cells' : Array Nat} {i : Nat} (h : bumpCell cells i = .ok cells') :
    ∃ x, cells[i]? = some x ∧ x + 1 < countLimit ∧ cells' = cells.setIfInBounds i (x + 1) := by
  unfold bumpCell at h
  split at h
  next => cases h
  next x hx =>
    obtain ⟨y, hy, hcells⟩ := bind_eq_ok_iff.mp h
    obtain ⟨rfl, hlt⟩ := addCounts_eq_ok_iff.mp hy
    exact ⟨x, hx, hlt, (Except.ok.inj hcells).symm⟩

theorem bumpCell_exists {cells : Array Nat} {i x : Nat} (hx : cells[i]? = some x)
    (hlt : x + 1 < countLimit) : bumpCell cells i = .ok (cells.setIfInBounds i (x + 1)) := by
  simp only [bumpCell, hx, bind, Except.bind, addCounts_eq_ok_iff.mpr ⟨rfl, hlt⟩]
  rfl

theorem sourceCounts_snoc (nodes : Nat) (edges : List (Nat × Nat)) (e : Nat × Nat) :
    sourceCounts nodes (edges ++ [e]) =
      (sourceCounts nodes edges).bind fun counts => bumpCell counts e.1 := by
  simp only [sourceCounts, List.foldlM_append, List.foldlM_cons, List.foldlM_nil]
  cases List.foldlM (fun counts e => bumpCell counts e.1) (Array.replicate nodes 0) edges with
  | error f => rfl
  | ok counts =>
    simp only [bind, Except.bind]
    cases bumpCell counts e.1 <;> rfl

/-- The counts are the numbers of edges out of each node. -/
theorem sourceCounts_ok {nodes : Nat} {edges : List (Nat × Nat)} {counts : Array Nat}
    (h : sourceCounts nodes edges = .ok counts) :
    counts.size = nodes ∧ ∀ u < nodes, counts[u]? = some (outgoing u edges).length := by
  induction edges using List.reverseRecOn generalizing counts with
  | nil =>
    cases h
    exact ⟨Array.size_replicate, fun u hu => by simp [hu, outgoing, withKey]⟩
  | append_singleton edges e ih =>
    obtain ⟨source, target⟩ := e
    rw [sourceCounts_snoc] at h
    cases hold : sourceCounts nodes edges with
    | error f => rw [hold] at h; cases h
    | ok old =>
      rw [hold] at h
      obtain ⟨hsize, hcounts⟩ := ih hold
      obtain ⟨x, hx, _, rfl⟩ := bumpCell_ok h
      refine ⟨by rw [Array.size_setIfInBounds, hsize], fun u hu => ?_⟩
      rw [outgoing_append]
      by_cases he : source = u
      · have hlast := hcounts u hu
        rw [← he] at hlast hu ⊢
        rw [hlast] at hx
        cases hx
        rw [Array.getElem?_setIfInBounds_self_of_lt (by omega), outgoing_single_self]
        simp
      · rw [Array.getElem?_setIfInBounds_ne he, hcounts u hu, outgoing_single_other he]
        simp

theorem sourceCounts_toList {nodes : Nat} {edges : List (Nat × Nat)} {counts : Array Nat}
    (h : sourceCounts nodes edges = .ok counts) :
    counts.toList = (List.range nodes).map fun u => (outgoing u edges).length := by
  obtain ⟨hsize, hcounts⟩ := sourceCounts_ok h
  refine List.ext_getElem? fun u => ?_
  by_cases hu : u < nodes
  · simp [hcounts u hu, hu]
  · simp [hsize, hu]

theorem sourceCounts_exists {nodes : Nat} {edges : List (Nat × Nat)}
    (h : ∀ e ∈ edges, e.1 < nodes) (hsmall : edges.length < countLimit) :
    ∃ counts, sourceCounts nodes edges = .ok counts := by
  induction edges using List.reverseRecOn with
  | nil => exact ⟨_, rfl⟩
  | append_singleton edges e ih =>
    rw [List.length_append, List.length_singleton] at hsmall
    obtain ⟨old, hold⟩ := ih (fun x hx => h x (List.mem_append_left _ hx)) (by omega)
    have hlast := (sourceCounts_ok hold).2 e.1 (h e (by simp))
    have hle : (outgoing e.1 edges).length ≤ edges.length := by
      rw [outgoing, List.length_map]
      exact List.length_filter_le _ _
    rw [sourceCounts_snoc, hold]
    exact ⟨_, bumpCell_exists hlast (by omega)⟩

/-- Running totals of some counts, after those already there. -/
theorem runningTotals_ok {totals offsets : Array Nat} {total : Nat} {counts : List Nat}
    (h : runningTotals totals total counts = .ok offsets) :
    offsets.toList = totals.toList ++ counts.scanl (· + ·) total ∧
      (counts = [] ∨ total + counts.sum < countLimit) := by
  induction counts generalizing totals total with
  | nil => cases h; exact ⟨by simp, .inl rfl⟩
  | cons x rest ih =>
    obtain ⟨next, hnext, hrest⟩ := bind_eq_ok_iff.mp h
    obtain ⟨rfl, hlt⟩ := addCounts_eq_ok_iff.mp hnext
    obtain ⟨hlist, hsmall⟩ := ih hrest
    refine ⟨by rw [hlist]; simp, .inr ?_⟩
    rw [List.sum_cons]
    rcases hsmall with rfl | hsmall
    · simpa using hlt
    · omega

theorem runningTotals_exists (totals : Array Nat) {total : Nat} {counts : List Nat}
    (h : total + counts.sum < countLimit) :
    ∃ offsets, runningTotals totals total counts = .ok offsets := by
  induction counts generalizing totals total with
  | nil => exact ⟨_, rfl⟩
  | cons x rest ih =>
    rw [List.sum_cons] at h
    simp only [runningTotals, bind, Except.bind, addCounts_eq_ok_iff.mpr ⟨rfl,
      (show total + x < countLimit by omega)⟩]
    exact ih _ (by omega)

/-- The offsets are where the groups start. -/
theorem offsets_ok {nodes : Nat} {edges : List (Nat × Nat)} {counts offsets : Array Nat}
    (hc : sourceCounts nodes edges = .ok counts)
    (ho : runningTotals #[] 0 counts.toList = .ok offsets) :
    offsets.size = nodes + 1 ∧ (nodes = 0 ∨ groupStart nodes edges < countLimit) ∧
      ∀ u ≤ nodes, offsets[u]? = some (groupStart u edges) := by
  obtain ⟨hlist, hsmall⟩ := runningTotals_ok ho
  rw [sourceCounts_toList hc] at hlist hsmall
  refine ⟨?_, ?_, fun u hu => ?_⟩
  · rw [← Array.length_toList, hlist]
    simp
  · rcases hsmall with h0 | hlt
    · exact .inl (by simpa using h0)
    · exact .inr (by rwa [Nat.zero_add] at hlt)
  · rw [← Array.getElem?_toList, hlist, Array.toList_empty, List.nil_append, List.getElem?_scanl,
      if_pos (by simpa), ← List.map_take, List.take_range, Nat.min_eq_left hu,
      ← List.sum_eq_foldl]
    rfl

/-- Where the targets stand when the edges so far have been placed: each group has been filled up
to its cursor. -/
structure Placing (nodes : Nat) (edges done : List (Nat × Nat)) (cursor targets : Array Nat) :
    Prop where
  size : targets.size = edges.length
  cursor : ∀ u < nodes, cursor[u]? = some (groupStart u edges + (outgoing u done).length)
  placed : ∀ u < nodes, ∀ i < (outgoing u done).length,
    targets[groupStart u edges + i]? = (outgoing u done)[i]?

section Placing

variable {nodes source target : Nat} {edges done rest : List (Nat × Nat)}
  {cursor targets : Array Nat}

theorem outgoing_done_le (hedges : edges = done ++ rest) (u : Nat) :
    (outgoing u done).length ≤ (outgoing u edges).length := by
  rw [hedges, outgoing_append, List.length_append]
  exact Nat.le_add_right _ _

theorem outgoing_done_lt (hedges : edges = done ++ (source, target) :: rest) :
    (outgoing source done).length < (outgoing source edges).length := by
  rw [hedges, List.append_cons, outgoing_append, outgoing_append, outgoing_single_self,
    List.length_append, List.length_append, List.length_singleton]
  omega

theorem Placing.begin {offsets : Array Nat}
    (h : ∀ u ≤ nodes, offsets[u]? = some (groupStart u edges)) :
    Placing nodes edges [] offsets (.replicate edges.length 0) where
  size := Array.size_replicate
  cursor := fun u hu => h u (Nat.le_of_lt hu)
  placed := fun u _ i hi => absurd hi (by simp [outgoing, withKey])

theorem Placing.step (h : Placing nodes edges done cursor targets) (hs : source < nodes)
    (hedges : edges = done ++ (source, target) :: rest)
    (hfit : groupStart source edges + (outgoing source done).length < edges.length) :
    Placing nodes edges (done ++ [(source, target)])
      (cursor.setIfInBounds source (groupStart source edges + (outgoing source done).length + 1))
      (targets.setIfInBounds (groupStart source edges + (outgoing source done).length)
        target) where
  size := by rw [Array.size_setIfInBounds, h.size]
  cursor := by
    intro u hu
    rw [outgoing_append]
    by_cases he : source = u
    · subst he
      have hlt := (Array.getElem?_eq_some_iff.mp (h.cursor source hs)).1
      rw [Array.getElem?_setIfInBounds_self_of_lt hlt, outgoing_single_self, List.length_append]
      rfl
    · rw [Array.getElem?_setIfInBounds_ne he, h.cursor u hu, outgoing_single_other he,
        List.append_nil]
  placed := by
    intro u hu i hi
    rw [outgoing_append] at hi ⊢
    by_cases he : source = u
    · subst he
      rw [outgoing_single_self, List.length_append, List.length_singleton] at hi
      rw [outgoing_single_self]
      by_cases hlast : i = (outgoing source done).length
      · rw [hlast, Array.getElem?_setIfInBounds_self_of_lt (by rw [h.size]; exact hfit)]
        simp
      · rw [Array.getElem?_setIfInBounds_ne (by omega), List.getElem?_append_left (by omega)]
        exact h.placed source hs i (by omega)
    · rw [outgoing_single_other he, List.append_nil] at hi ⊢
      -- a group never grows beyond the start of the next one
      have hbelow := outgoing_done_le hedges u
      have hroom := outgoing_done_lt hedges
      have hends := groupStart_succ u edges
      have hends' := groupStart_succ source edges
      have hne : groupStart source edges + (outgoing source done).length ≠
          groupStart u edges + i := by
        rcases Nat.lt_or_gt_of_ne he with hlt | hgt
        · have hafter := groupStart_le (show source + 1 ≤ u by omega) edges
          omega
        · have hafter := groupStart_le (show u + 1 ≤ source by omega) edges
          omega
      rw [Array.getElem?_setIfInBounds_ne hne]
      exact h.placed u hu i hi

/-- Placing the targets one after the other fills up every group. -/
theorem placeTargets_exists (hsource : ∀ e ∈ edges, e.1 < nodes)
    (hsmall : edges.length < countLimit) (hedges : edges = done ++ rest)
    (h : Placing nodes edges done cursor targets) :
    ∃ cursor' targets', placeTargets cursor targets rest = .ok targets' ∧
      Placing nodes edges edges cursor' targets' := by
  induction rest generalizing done cursor targets with
  | nil =>
    rw [List.append_nil] at hedges
    rw [← hedges] at h
    exact ⟨cursor, targets, rfl, h⟩
  | cons e rest ih =>
    obtain ⟨source, target⟩ := e
    have hs : source < nodes := hsource (source, target) (by rw [hedges]; simp)
    have hfit : groupStart source edges + (outgoing source done).length < edges.length := by
      have hroom := outgoing_done_lt hedges
      have hends := groupStart_succ source edges
      have hall := groupStart_all hsource
      have hafter := groupStart_le (show source + 1 ≤ nodes by omega) edges
      omega
    have hnext : edges = (done ++ [(source, target)]) ++ rest := by
      rw [hedges, List.append_assoc, List.singleton_append]
    obtain ⟨cursor', targets', hplace, hplaced⟩ := ih hnext (h.step hs hedges hfit)
    refine ⟨cursor', targets', ?_, hplaced⟩
    simp only [placeTargets, h.cursor source hs, h.size, hfit, if_true, bind, Except.bind,
      bumpCell_exists (h.cursor source hs) (by omega)]
    exact hplace

end Placing

/-- What a graph tells of the edges it was made of. -/
structure Adjacency.Holds (g : Adjacency) (edges : List (Nat × Nat)) : Prop where
  room : (g.nodes + 1) * countSize < objectLimit
  small : edges.length < countLimit
  relationships : g.relationships = edges.length
  inside : ∀ e ∈ edges, e.1 < g.nodes ∧ e.2 < g.nodes
  neighbors : ∀ u < g.nodes, g.neighbors u = .ok (outgoing u edges)
  degree : ∀ u < g.nodes, g.degree u = .ok (outgoing u edges).length
  outside : ∀ u, g.nodes ≤ u → ∃ f, g.neighbors u = .error f

theorem slots_lt {slots : Nat} (h : slots * countSize < objectLimit) : slots < countLimit := by
  rw [show countSize = 8 from rfl, show objectLimit = 9223372036854775808 from rfl] at h
  rw [show countLimit = 18446744073709551616 from rfl]
  omega

/-- A graph in which the groups stand where the offsets say tells its edges. -/
theorem Adjacency.holds_of_groups {nodes : Nat} {edges : List (Nat × Nat)}
    {offsets cursor targets : Array Nat} (room : (nodes + 1) * countSize < objectLimit)
    (hsmall : edges.length < countLimit) (inside : ∀ e ∈ edges, e.1 < nodes ∧ e.2 < nodes)
    (hsize : offsets.size = nodes + 1)
    (hoffsets : ∀ u ≤ nodes, offsets[u]? = some (groupStart u edges))
    (hplaced : Placing nodes edges edges cursor targets) :
    (⟨offsets, targets⟩ : Adjacency).Holds edges := by
  have hnodes : (⟨offsets, targets⟩ : Adjacency).nodes = nodes := by
    simp only [Adjacency.nodes, hsize, Nat.add_sub_cancel]
  have hall := groupStart_all fun e he => (inside e he).1
  have hends := fun u => groupStart_succ u edges
  refine ⟨by rwa [hnodes], hsmall, hplaced.size, by rwa [hnodes], ?_, ?_, ?_⟩
  · intro u hu
    rw [hnodes] at hu
    have hafter := groupStart_le (show u + 1 ≤ nodes from hu) edges
    have hsz := hplaced.size
    have hend := hends u
    simp only [Adjacency.neighbors, hoffsets u (by omega), hoffsets (u + 1) hu]
    rw [if_pos (by omega)]
    refine congrArg Except.ok (List.ext_getElem? fun i => ?_)
    rw [Array.getElem?_toList]
    by_cases hi : i < (outgoing u edges).length
    · rw [← hplaced.placed u hu i hi, Array.getElem?_extract_of_lt (by omega)]
      exact (Array.getElem?_eq_getElem _).symm
    · rw [List.getElem?_eq_none (by omega), Array.getElem?_eq_none]
      rw [Array.size_extract]
      omega
  · intro u hu
    rw [hnodes] at hu
    have hend := hends u
    have hnext : addCounts u 1 = .ok (u + 1) := by
      have hlt := slots_lt room
      exact addCounts_eq_ok_iff.mpr ⟨rfl, by omega⟩
    simp only [Adjacency.degree, hnext, bind, Except.bind, hoffsets u (by omega),
      hoffsets (u + 1) hu]
    rw [if_pos (by omega), hend, Nat.add_sub_cancel_left]
    rfl
  · intro u hu
    rw [hnodes] at hu
    have hnone : offsets[u + 1]? = none := Array.getElem?_eq_none (by omega)
    refine ⟨.outOfBounds, ?_⟩
    simp only [Adjacency.neighbors, hnone]
    cases offsets[u]? <;> rfl

theorem find_outside_eq_none {nodes : Nat} {edges : List (Nat × Nat)} :
    (edges.find? fun e => !(decide (e.1 < nodes) && decide (e.2 < nodes))) = none ↔
      ∀ e ∈ edges, e.1 < nodes ∧ e.2 < nodes := by
  simp

/-- A graph made of edges tells them. -/
theorem ofEdges_holds {nodes : Nat} {edges : List (Nat × Nat)} {g : Adjacency}
    (h : Adjacency.ofEdges nodes edges = .ok g) : g.nodes = nodes ∧ g.Holds edges := by
  simp only [Adjacency.ofEdges, bind_eq_ok_iff] at h
  obtain ⟨slots, hslots, _, hroom, h⟩ := h
  obtain ⟨rfl, _⟩ := addCounts_eq_ok_iff.mp hslots
  have room := makeRoom_eq_ok_iff.mp hroom
  split at h
  next => cases h
  next hinside =>
    have inside := find_outside_eq_none.mp hinside
    simp only [bind_eq_ok_iff] at h
    obtain ⟨counts, hcounts, offsets, hoffsets, targets, htargets, hg⟩ := h
    obtain ⟨hsize, hlast, hstarts⟩ := offsets_ok hcounts hoffsets
    have hsource := fun e he => (inside e he).1
    have hsmall : edges.length < countLimit := by
      rcases hlast with h0 | hlt
      · have hnil : edges = [] := by
          refine List.eq_nil_iff_forall_not_mem.mpr fun e he => ?_
          have hs := hsource e he
          omega
        rw [hnil]
        decide
      · rwa [groupStart_all hsource] at hlt
    obtain ⟨cursor, placed, hplace, hplaced⟩ :=
      placeTargets_exists hsource hsmall (List.nil_append edges).symm (.begin hstarts)
    cases hplace.symm.trans htargets
    cases hg
    refine ⟨by simp only [Adjacency.nodes, hsize, Nat.add_sub_cancel], ?_⟩
    exact Adjacency.holds_of_groups room hsmall inside hsize hstarts hplaced

/-- Edges inside the graph can be made into one, if there is room for it. -/
theorem ofEdges_exists {nodes : Nat} {edges : List (Nat × Nat)}
    (room : (nodes + 1) * countSize < objectLimit) (hsmall : edges.length < countLimit)
    (inside : ∀ e ∈ edges, e.1 < nodes ∧ e.2 < nodes) :
    ∃ g, Adjacency.ofEdges nodes edges = .ok g := by
  have hsource := fun e he => (inside e he).1
  obtain ⟨counts, hcounts⟩ := sourceCounts_exists hsource hsmall
  have htotal : 0 + counts.toList.sum < countLimit := by
    have hall := groupStart_all hsource
    unfold groupStart at hall
    rw [sourceCounts_toList hcounts]
    omega
  obtain ⟨offsets, hoffsets⟩ := runningTotals_exists #[] htotal
  obtain ⟨hsize, hlast, hstarts⟩ := offsets_ok hcounts hoffsets
  obtain ⟨cursor, targets, hplace, hplaced⟩ :=
    placeTargets_exists hsource hsmall (List.nil_append edges).symm (.begin hstarts)
  refine ⟨⟨offsets, targets⟩, ?_⟩
  simp only [Adjacency.ofEdges, bind, Except.bind, addCounts_eq_ok_iff.mpr ⟨rfl, slots_lt room⟩,
    makeRoom_eq_ok_iff.mpr room, find_outside_eq_none.mpr inside, hcounts, hoffsets, hplace]
  rfl

/-- Edges inside the graph fail to become one only where the nodes are too many. -/
theorem ofEdges_eq_error_iff {nodes : Nat} {edges : List (Nat × Nat)} {f : Fault}
    (hsmall : edges.length < countLimit) (inside : ∀ e ∈ edges, e.1 < nodes ∧ e.2 < nodes) :
    Adjacency.ofEdges nodes edges = .error f ↔
      (f = .overflow ∧ countLimit ≤ nodes + 1) ∨
      (f = .capacity ∧ nodes + 1 < countLimit ∧ objectLimit ≤ (nodes + 1) * countSize) := by
  by_cases hslots : nodes + 1 < countLimit
  · have hcounts : addCounts nodes 1 = .ok (nodes + 1) := addCounts_eq_ok_iff.mpr ⟨rfl, hslots⟩
    by_cases room : (nodes + 1) * countSize < objectLimit
    · obtain ⟨g, hg⟩ := ofEdges_exists room hsmall inside
      rw [hg]
      simp [hslots, room]
    · have hnone : makeRoom (nodes + 1) countSize = .error .capacity :=
        makeRoom_eq_error_iff.mpr ⟨rfl, Nat.le_of_not_lt room⟩
      simp only [Adjacency.ofEdges, bind, Except.bind, hcounts, hnone, Except.error.injEq]
      simp [Nat.not_le.mpr hslots, hslots, Nat.le_of_not_lt room, eq_comm]
  · have hcounts : addCounts nodes 1 = .error .overflow := if_neg hslots
    simp only [Adjacency.ofEdges, bind, Except.bind, hcounts, Except.error.injEq]
    simp [Nat.le_of_not_lt hslots, hslots, eq_comm]

namespace Adjacency

/-- The graphs there are: the one without nodes, and those made of a list of edges. -/
inductive Made : Adjacency → Prop
  | empty : Made .empty
  | ofEdges {nodes edges g} (h : Adjacency.ofEdges nodes edges = .ok g) : Made g

theorem empty_holds : Adjacency.empty.Holds [] where
  room := by decide
  small := by decide
  relationships := rfl
  inside := by simp
  neighbors := fun u hu => absurd hu (Nat.not_lt_zero u)
  degree := fun u hu => absurd hu (Nat.not_lt_zero u)
  outside := fun _ _ => ⟨.outOfBounds, rfl⟩

theorem Made.holds {g : Adjacency} (h : g.Made) : ∃ edges, g.Holds edges := by
  cases h with
  | empty => exact ⟨[], empty_holds⟩
  | ofEdges h => exact ⟨_, (ofEdges_holds h).2⟩

end Adjacency

theorem mapM_ok {α β : Type} {f : α → Except Fault β} {g : α → β} {l : List α}
    (h : ∀ a ∈ l, f a = .ok (g a)) : l.mapM f = .ok (l.map g) := by
  induction l with
  | nil => rfl
  | cons a rest ih =>
    rw [List.mapM_cons, h a (by simp), ih fun b hb => h b (by simp [hb])]
    rfl

section Reading

variable {g : Adjacency} {edges : List (Nat × Nat)}

theorem Adjacency.Holds.groupStart_nodes (h : g.Holds edges) :
    groupStart g.nodes edges = edges.length :=
  groupStart_all fun e he => (h.inside e he).1

/-- The edges that a graph tells are those of one node after the other. -/
theorem Adjacency.Holds.edges_eq (h : g.Holds edges) :
    g.edges = .ok ((List.range g.nodes).flatMap fun u =>
      (outgoing u edges).map fun target => (u, target)) := by
  have hrows := mapM_ok (l := List.range g.nodes) (f := fun source => do
    let targets ← g.neighbors source
    return targets.map fun target => (source, target))
    (g := fun u => (outgoing u edges).map fun target => (u, target)) fun u hu => by
      rw [h.neighbors u (List.mem_range.mp hu)]
      rfl
  unfold Adjacency.edges
  rw [hrows]
  rfl

/-- The edges that a graph tells are those it was made of, in some order. -/
theorem Adjacency.Holds.told (h : g.Holds edges) : ∃ es, g.edges = .ok es ∧ es.Perm edges := by
  refine ⟨_, h.edges_eq, ?_⟩
  have hrow : ∀ u ∈ List.range g.nodes, (outgoing u edges).map (fun target => (u, target)) =
      withKey (fun e => some e.1) u edges := by
    intro u _
    rw [outgoing, List.map_map]
    refine (List.map_congr_left fun e he => ?_).trans (List.map_id _)
    have hkey : e.1 = u := by simpa [withKey] using (List.mem_filter.mp he).2
    simp [← hkey]
  rw [List.flatMap_congr hrow]
  exact groups_perm _ g.nodes edges fun e he => ⟨e.1, (h.inside e he).1, rfl⟩

/-- The edges of a graph, read off what it tells of its nodes. -/
def Adjacency.Edge (g : Adjacency) (source target : Nat) : Prop :=
  ∃ targets, g.neighbors source = .ok targets ∧ target ∈ targets

theorem Adjacency.Holds.edge_iff (h : g.Holds edges) (a b : Nat) : g.Edge a b ↔ (a, b) ∈ edges := by
  constructor
  · rintro ⟨targets, htargets, hb⟩
    by_cases ha : a < g.nodes
    · rw [h.neighbors a ha] at htargets
      cases htargets
      exact mem_outgoing.mp hb
    · obtain ⟨f, hf⟩ := h.outside a (Nat.le_of_not_lt ha)
      rw [hf] at htargets
      cases htargets
  · intro hab
    exact ⟨_, h.neighbors a (h.inside _ hab).1, mem_outgoing.mpr hab⟩

/-- Where every edge is followed by its reverse, an edge is found as often as it and its reverse
were. -/
theorem count_followed (e : Nat × Nat) (es : List (Nat × Nat)) :
    (es.flatMap fun d => [d, (d.2, d.1)]).count e = es.count e + es.count (e.2, e.1) := by
  induction es with
  | nil => rfl
  | cons d rest ih =>
    have hback : ((d.2, d.1) == e) = (d == (e.2, e.1)) := by
      rw [Bool.eq_iff_iff, beq_iff_eq, beq_iff_eq, Prod.ext_iff, Prod.ext_iff]
      exact And.comm
    rw [List.flatMap_cons, List.count_append, ih]
    simp only [List.count_cons, List.count_nil, hback]
    omega

/-- With every edge followed by its reverse, a graph has as many edges between two nodes as it had
in both directions. -/
theorem Adjacency.Holds.undirected_count (h : g.Holds edges)
    (hsmall : 2 * edges.length < countLimit) :
    ∃ u es, g.undirected = .ok u ∧ u.Holds es ∧ u.nodes = g.nodes ∧
      es.length = 2 * edges.length ∧
      ∀ a b, es.count (a, b) = edges.count (a, b) + edges.count (b, a) := by
  obtain ⟨told, htold, hperm⟩ := h.told
  have hcount : ∀ a b, (told.flatMap fun e => [e, (e.2, e.1)]).count (a, b) =
      edges.count (a, b) + edges.count (b, a) := by
    intro a b
    rw [count_followed, hperm.count_eq, hperm.count_eq]
  have hlength : (told.flatMap fun e => [e, (e.2, e.1)]).length = 2 * edges.length := by
    rw [← hperm.length_eq, Nat.mul_comm]
    simp
  have hinside : ∀ e ∈ told.flatMap fun e => [e, (e.2, e.1)],
      e.1 < g.nodes ∧ e.2 < g.nodes := by
    intro e he
    obtain ⟨d, hd, hed⟩ := List.mem_flatMap.mp he
    have hin := h.inside d (hperm.mem_iff.mp hd)
    rcases List.mem_pair.mp hed with rfl | rfl
    · exact hin
    · exact hin.symm
  obtain ⟨u, hu⟩ := ofEdges_exists h.room (by rw [hlength]; exact hsmall) hinside
  obtain ⟨hnodes, hholds⟩ := ofEdges_holds hu
  refine ⟨u, _, ?_, hholds, hnodes, hlength, hcount⟩
  simp only [Adjacency.undirected, htold, bind, Except.bind]
  exact hu

/-- With every edge followed by its reverse, a graph links both ends of every edge to each
other. -/
theorem Adjacency.Holds.undirected (h : g.Holds edges) (hsmall : 2 * edges.length < countLimit) :
    ∃ u es, g.undirected = .ok u ∧ u.Holds es ∧ u.nodes = g.nodes ∧
      es.length = 2 * edges.length ∧
      ∀ a b, (a, b) ∈ es ↔ (a, b) ∈ edges ∨ (b, a) ∈ edges := by
  obtain ⟨u, es, hu, hholds, hnodes, hlength, hcount⟩ := h.undirected_count hsmall
  refine ⟨u, es, hu, hholds, hnodes, hlength, fun a b => ?_⟩
  rw [← List.count_pos_iff, ← List.count_pos_iff, ← List.count_pos_iff, hcount]
  omega

theorem Adjacency.undirected_nodes {g u : Adjacency} (h : g.undirected = .ok u) :
    u.nodes = g.nodes := by
  obtain ⟨edges, _, hmade⟩ := bind_eq_ok_iff.mp h
  exact (ofEdges_holds hmade).1

end Reading

end BulkSync
