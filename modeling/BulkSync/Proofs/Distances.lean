import BulkSync.Proofs.RelaxedEngines
import BulkSync.Proofs.WholeDoubles

namespace BulkSync

section Lengths

/-- How a distance is written down. -/
def lengthCode (d : ℕ∞) : Float :=
  match d with
  | ⊤ => unreached
  | (n : ℕ) => Float.ofNat n

/-- Whether a distance can be told from all others once it is written down. -/
def LengthFits (d : ℕ∞) : Prop :=
  ∀ n : ℕ, d = n → n < wholeLimit

theorem lengthFits_top : LengthFits ⊤ :=
  fun n h => absurd h.symm (ENat.natCast_ne_top n)

/-- The distance to the source at the beginning. -/
def outsetLength (source node : Nat) : ℕ∞ :=
  if node = source then 0 else ⊤

variable {a b : ℕ∞} {source node : Nat}

theorem lengthCode_lt_iff (ha : LengthFits a) (hb : LengthFits b) :
    lengthCode a < lengthCode b ↔ a < b := by
  cases a with
  | top =>
    cases b with
    | top => exact iff_of_false not_unreached_lt_unreached (lt_irrefl _)
    | coe n => exact iff_of_false (not_unreached_lt_ofNat (hb n rfl)) (by simp)
  | coe m =>
    cases b with
    | top => exact iff_of_true (ofNat_lt_unreached (ha m rfl)) (ENat.natCast_lt_top m)
    | coe n => exact (ofNat_lt_ofNat_iff (ha m rfl) (hb n rfl)).trans Nat.cast_lt.symm

theorem lengthCode_isNaN (ha : LengthFits a) : (lengthCode a).isNaN = false := by
  cases a with
  | top => exact unreached_isNaN
  | coe n => exact ofNat_isNaN (ha n rfl)

theorem lengthCode_add_one (ha : LengthFits (a + 1)) :
    lengthCode a + 1.0 = lengthCode (a + 1) := by
  cases a with
  | top => exact unreached_add_one
  | coe n => exact ofNat_add_one (ha (n + 1) rfl)

theorem lesser_lengthCode (ha : LengthFits a) (hb : LengthFits b) :
    lesser (lengthCode a) (lengthCode b) = lengthCode (min a b) := by
  unfold lesser
  rw [lengthCode_isNaN ha, Bool.or_false]
  rcases lt_or_ge b a with hlt | hge
  · rw [if_pos (decide_eq_true ((lengthCode_lt_iff hb ha).mpr hlt)), min_eq_right hlt.le]
  · have hnot : ¬ lengthCode b < lengthCode a := mt (lengthCode_lt_iff hb ha).mp (not_lt.mpr hge)
    rw [if_neg (by simpa using hnot), min_eq_left hge]

/-- Distances stand for lengths of walks, which grow by one along an edge. -/
theorem measuring_stands (source : Nat) :
    (measuring source).Stands lengthCode LengthFits (outsetLength source) (· + 1) where
  mono := fun _ _ h => add_le_add_left h 1
  grows := fun _ => le_self_add
  first := by
    intro node
    by_cases h : node = source
    · simp only [measuring, outsetLength, if_pos h]
      exact zero_eq_ofNat
    · simp only [measuring, outsetLength, if_neg h]
      rfl
  lesser := fun _ _ ha hb => lesser_lengthCode ha hb
  below := fun _ _ ha hb => decide_eq_decide.mpr (lengthCode_lt_iff ha hb)
  passed := fun _ _ h => lengthCode_add_one h
  later := by
    intro superstep a h
    simp only [measuring, beq_false_of_ne h, Bool.false_and]
  silent := by
    intro node a _ h
    by_cases hs : node = source
    · -- the source announces itself
      have hzero : lengthCode (outsetLength source node) = Float.ofNat 0 := by
        rw [outsetLength, if_pos hs]
        rfl
      rw [hzero] at h
      have hbeq := (ofNat_beq_zero_iff (show 0 < wholeLimit by decide)).mpr rfl
      simp only [measuring, hbeq] at h
      cases h
    · rw [outsetLength, if_neg hs]
      exact le_top

end Lengths

section Layers

variable {edge : Nat → Nat → Prop} {source node s k : Nat} {a : ℕ∞}

theorem iterate_add_one (k : Nat) (a : ℕ∞) : (· + 1)^[k] a = a + k := by
  induction k with
  | zero => simp
  | succ k ih =>
    rw [Function.iterate_succ_apply', ih, Nat.cast_succ, add_assoc]

theorem length_mem_offers (hk : k ≤ s) (h : Walk edge k source node) :
    (k : ℕ∞) ∈ offers edge (outsetLength source) (· + 1) s node :=
  ⟨k, hk, source, h, by rw [iterate_add_one, outsetLength, if_pos rfl, zero_add]⟩

/-- What reaches a node is the length of a walk from the source, or says that there is none. -/
theorem eq_length_of_offers (h : a ∈ offers edge (outsetLength source) (· + 1) s node) :
    a = ⊤ ∨ ∃ k ≤ s, Walk edge k source node ∧ a = k := by
  obtain ⟨k, hk, u, hwalk, rfl⟩ := h
  rw [iterate_add_one]
  by_cases hu : u = source
  · subst hu
    exact .inr ⟨k, hk, hwalk, by rw [outsetLength, if_pos rfl, zero_add]⟩
  · exact .inl (by rw [outsetLength, if_neg hu, top_add])

theorem least_length {d : Nat} (hd : d ≤ s) (h : IsLeast {k | Walk edge k source node} d)
    (ha : IsLeast (offers edge (outsetLength source) (· + 1) s node) a) : a = d := by
  refine le_antisymm (ha.2 (length_mem_offers hd h.1)) ?_
  rcases eq_length_of_offers ha.1 with rfl | ⟨k, -, hwalk, rfl⟩
  · exact le_top
  · exact Nat.cast_le.mpr (h.2 hwalk)

theorem least_top (h : ∀ k ≤ s, ¬ Walk edge k source node)
    (ha : a ∈ offers edge (outsetLength source) (· + 1) s node) : a = ⊤ := by
  rcases eq_length_of_offers ha with rfl | ⟨k, hk, hwalk, -⟩
  · rfl
  · exact absurd hwalk (h k hk)

/-- The lengths of shortest walks fit if there are not too many nodes. -/
theorem least_fits {nodes : Nat} (hsmall : nodes < wholeLimit)
    (inside : ∀ a b, edge a b → a < nodes ∧ b < nodes) (hn : node < nodes)
    (ha : IsLeast (offers edge (outsetLength source) (· + 1) s node) a) :
    LengthFits a ∧ LengthFits (a + 1) := by
  rcases eq_length_of_offers ha.1 with rfl | ⟨k, hk, hwalk, rfl⟩
  · exact ⟨lengthFits_top, lengthFits_top⟩
  · obtain ⟨j, hj, hjk, hshort⟩ := hwalk.exists_lt_nodes inside hn
    have hle : k ≤ j := Nat.cast_le.mp (ha.2 (length_mem_offers (hjk.trans hk) hshort))
    constructor
    · intro n h
      obtain rfl : k = n := Nat.cast_inj.mp h
      omega
    · intro n h
      obtain rfl : k + 1 = n := Nat.cast_inj.mp h
      omega

end Layers

section Running

variable {memory : Memory} {g : Adjacency} {edges : List (Nat × Nat)} {config : Config}
  {delivery : Delivery Float} {engine : Engine Float Unit} {schedule : Schedule} {source : Nat}

theorem shortestPaths_sets (hd : delivery = .queued ∨ delivery = .combined .min)
    (few : g.nodes < wholeLimit) (holds : g.Holds edges)
    (built : Engine.Built memory g.toGraph config (shortestPaths source) delivery engine) :
    (measuring source).Sets lengthCode LengthFits (outsetLength source) (· + 1)
      (fun u => outgoing u edges) delivery engine := by
  rw [shortestPaths_eq] at built
  obtain ⟨hleast, htotal⟩ := least_of_lt_iff (fun a b => lengthCode_lt_iff) hd
  refine Relaxing.sets_of_built built holds (measuring_stands source) hleast htotal ?_
  exact fun t v hn a ha =>
    least_fits few (fun a b hb => holds.inside _ (mem_outgoing.mp hb)) hn ha

/-- After every superstep a node has its distance from the source if that is at most the number of
supersteps before, and says otherwise that it has not been reached. A run that nobody cancels ends;
where it has converged or had as many supersteps as there are nodes, all distances are there, and
not to be reached are just the nodes without one. With one superstep more it converges. -/
theorem distances_exact (made : g.Made) (few : g.nodes < 2 ^ 53)
    (least : delivery = .queued ∨ delivery = .combined .min)
    (built : Engine.Built memory g.toGraph config (shortestPaths source) delivery engine)
    (valid : schedule.Valid) (calm : engine.state.signals.isRaised engine.watched = false)
    (still : ∀ superstep, schedule.interrupts superstep = false) :
    (∀ superstep converged p, Boundary engine schedule converged p →
      p.stats.size = superstep + 1 → ∀ v < g.nodes,
        (∀ d ≤ superstep, IsLeast {k | Walk g.Edge k source v} d →
          p.state.values.read .double "distance" v = .ok (.ofFloat (Float.ofNat d))) ∧
        ((∀ k ≤ superstep, ¬ Walk g.Edge k source v) →
          p.state.values.read .double "distance" v = .ok (.ofFloat unreached))) ∧
    ∃ result, (engine.runWith schedule).result = .ok result ∧ result.status ≠ .cancelled ∧
      (result.status = .converged ∨ max g.nodes 1 ≤ config.maxSupersteps → ∀ v < g.nodes,
        (∀ d, IsLeast {k | Walk g.Edge k source v} d →
          result.values.read .double "distance" v = .ok (.ofFloat (Float.ofNat d))) ∧
        (result.values.read .double "distance" v = .ok (.ofFloat unreached) ↔
          ∀ k, ¬ Walk g.Edge k source v)) ∧
      (g.nodes + 1 ≤ config.maxSupersteps → result.status = .converged) := by
  obtain ⟨edges, hholds⟩ := made.holds
  have hinside : ∀ a b, g.Edge a b → a < g.nodes ∧ b < g.nodes :=
    fun a b h => hholds.inside _ ((hholds.edge_iff a b).mp h)
  have hsets := shortestPaths_sets least few hholds built
  rw [shortestPaths_eq] at built
  obtain ⟨hlayers, result, hresult, hstatus, hdone, hconverged⟩ :=
    hsets.exact (fun a b => (hholds.edge_iff a b).symm) built valid calm still
  constructor
  · intro superstep converged p hp hsize v hn
    obtain ⟨a, hleast, hread⟩ := hlayers superstep converged p hp hsize v hn
    have hcell : p.state.values.read .double "distance" v = .ok (.ofFloat (lengthCode a)) := hread
    rw [hcell]
    refine ⟨fun d hd hshort => ?_, fun hnone => ?_⟩
    · rw [least_length hd hshort hleast]
      rfl
    · rw [least_top hnone hleast.1]
      rfl
  · refine ⟨result, hresult, hstatus, fun hend v hn => ?_, hconverged⟩
    obtain ⟨a, hall, hread⟩ := hdone hend v hn
    have hcell : result.values.read .double "distance" v = .ok (.ofFloat (lengthCode a)) := hread
    rw [hcell]
    refine ⟨fun d hshort => ?_, fun hunreached k hwalk => ?_, fun hnone => ?_⟩
    · rw [least_length (le_max_right _ _) hshort (hall _ (le_max_left (result.ran - 1) d))]
      rfl
    -- a node that says it has not been reached is told the length of no walk
    · have hfits := (least_fits few hinside hn (hall _ le_rfl)).1
      have hlength : lengthCode a = lengthCode ⊤ :=
        Double.ofFloat_inj.mp (Except.ok.inj hunreached)
      have htop : a = ⊤ := (measuring_stands source).inj hfits lengthFits_top hlength
      have hle := (hall _ (le_max_left (result.ran - 1) k)).2
        (length_mem_offers (le_max_right _ _) hwalk)
      rw [htop] at hle
      exact absurd (top_le_iff.mp hle) (ENat.natCast_ne_top k)
    · rw [least_top (fun k _ => hnone k) (hall _ le_rfl).1]
      rfl

end Running

/-- Distances from the first of three nodes, the first two with edges to each other, are found in
one superstep more than there are nodes. -/
theorem distances_exact_from_first : ∃ (g : Adjacency) (engine : Engine Float Unit)
    (result : RunResult), Adjacency.ofEdges 3 [(0, 1), (1, 0)] = .ok g ∧
    Engine.Built .addressable g.toGraph ⟨2, 4, 1, .range⟩ (shortestPaths 0) (.combined .min)
      engine ∧
    (engine.runWith .backward).result = .ok result ∧ result.status = .converged ∧
    ∀ v < 3, (∀ d, IsLeast {k | Walk g.Edge k 0 v} d →
      result.values.read .double "distance" v = .ok (.ofFloat (Float.ofNat d))) ∧
    (result.values.read .double "distance" v = .ok (.ofFloat unreached) ↔
      ∀ k, ¬ Walk g.Edge k 0 v) := by
  have hg : Adjacency.ofEdges 3 [(0, 1), (1, 0)] = .ok ⟨#[0, 1, 2, 2], #[1, 0]⟩ := rfl
  have hcheck : (Engine.create (R := Unit) .addressable .none
      (⟨#[0, 1, 2, 2], #[1, 0]⟩ : Adjacency).toGraph ⟨2, 4, 1, .range⟩ (shortestPaths 0)
      (.combined .min)).toOption.any (fun _ => true) = true := by
    decide +kernel
  obtain ⟨engine, hcreate, -⟩ := exists_of_any hcheck
  have hcalm : engine.state.signals.isRaised engine.watched = false := by
    obtain ⟨_, _, _, _, _, _, _, _, _, _, _, _, rfl⟩ := engine_create_ok hcreate
    rfl
  obtain ⟨-, result, hresult, -, hdistances, hconverged⟩ := distances_exact (.ofEdges hg)
    (by decide) (.inr rfl) (.create hcreate) backward_valid hcalm fun _ => rfl
  exact ⟨_, engine, result, hg, .create hcreate, hresult, hconverged (by decide),
    hdistances (.inl (hconverged (by decide)))⟩

end BulkSync
