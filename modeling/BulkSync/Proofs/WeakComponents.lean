import BulkSync.Proofs.ComponentLabels
import BulkSync.Proofs.RelaxedEngines
import Mathlib.Logic.Relation

namespace BulkSync

section Labels

variable {a b : Nat}

theorem label_toInt (ha : a < 2 ^ 63) : (Int64.ofNat a).toInt = a :=
  Int64.toInt_ofNat_of_lt ha

theorem label_lt_label_iff (ha : a < 2 ^ 63) (hb : b < 2 ^ 63) :
    Int64.ofNat a < Int64.ofNat b ↔ a < b := by
  rw [Int64.lt_iff_toInt_lt, label_toInt ha, label_toInt hb, Int.ofNat_lt]

/-- Labels stand for node ids, which are small enough to be told apart. -/
theorem labelling_stands : labelling.Stands (fun a => Int64.ofNat a) (· < 2 ^ 63) id id where
  mono := monotone_id
  grows := le_refl
  first := fun _ => rfl
  lesser := by
    intro a b ha hb
    have hmin : min a b < 2 ^ 63 := (min_le_left a b).trans_lt ha
    refine Int64.toInt_inj.mp ?_
    change (lesserLabel _ _).toInt = _
    rw [lesserLabel_toInt, label_toInt ha, label_toInt hb, label_toInt hmin]
    omega
  below := fun a b ha hb => decide_eq_decide.mpr (label_lt_label_iff ha hb)
  passed := fun _ _ _ => rfl
  later := fun _ _ h => beq_false_of_ne h
  silent := fun _ _ _ h => Bool.noConfusion (h : true = false)

/-- What reaches a node along so many edges are the nodes that a walk of at most that length starts
from. -/
theorem mem_offers_id {edge : Nat → Nat → Prop} {distance node w : Nat} :
    w ∈ offers edge id id distance node ↔ ∃ k ≤ distance, Walk edge k w node := by
  simp [offers]

theorem components_sets {memory : Memory} {g : Adjacency} {edges : List (Nat × Nat)}
    {config : Config} {delivery : Delivery Int64} {engine : Engine Int64 Unit}
    (hd : delivery = .queued ∨ delivery = .combined .min) (holds : g.Holds edges)
    (built : Engine.Built memory g.toGraph config components delivery engine) :
    labelling.Sets (fun a => Int64.ofNat a) (· < 2 ^ 63) id id (fun u => outgoing u edges) delivery
      engine := by
  rw [components_eq] at built
  obtain ⟨hleast, htotal⟩ := least_of_lt_iff (fun a b ha hb => label_lt_label_iff ha hb) hd
  refine Relaxing.sets_of_built built holds labelling_stands hleast htotal ?_
  intro distance v hn w hw
  obtain ⟨k, -, hwalk⟩ := mem_offers_id.mp hw.1
  have hinside := hwalk.source_lt (fun a b hb => holds.inside _ (mem_outgoing.mp hb)) hn
  have hroom := holds.room
  rw [show countSize = 8 from rfl, show objectLimit = 2 ^ 63 from rfl] at hroom
  have hfits : w < 2 ^ 63 := by omega
  exact ⟨hfits, hfits⟩

end Labels

namespace Adjacency

variable (g : Adjacency)

/-- An edge, in whatever direction it points. -/
def Linked (a b : Nat) : Prop :=
  g.Edge a b ∨ g.Edge b a

/-- The nodes from which a node is reached along so many edges, in whatever directions they
point. -/
def within (distance node : Nat) : Set Nat :=
  {w | ∃ k ≤ distance, Walk g.Linked k w node}

/-- The nodes that are weakly connected to a node. -/
def component (node : Nat) : Set Nat :=
  {w | Relation.EqvGen g.Edge w node}

variable {g}

theorem mem_component {w node : Nat} :
    w ∈ g.component node ↔ ∃ k, Walk g.Linked k w node := by
  constructor
  · intro h
    induction h with
    | rel a b step => exact ⟨1, (Walk.refl a).tail (.inl step)⟩
    | refl a => exact ⟨0, .refl a⟩
    | symm a b _ ih =>
      obtain ⟨k, hwalk⟩ := ih
      exact ⟨k, hwalk.reverse fun _ _ => Or.symm⟩
    | trans a b c _ _ ih ih' =>
      obtain ⟨k, hwalk⟩ := ih
      obtain ⟨k', hwalk'⟩ := ih'
      exact ⟨k + k', hwalk.append hwalk'⟩
  · rintro ⟨k, hwalk⟩
    induction hwalk with
    | refl a => exact .refl a
    | tail _ step ih =>
      rcases step with step | step
      · exact .trans _ _ _ ih (.rel _ _ step)
      · exact .trans _ _ _ ih (.symm _ _ (.rel _ _ step))

end Adjacency

open Adjacency

/-- The smallest node id that is weakly connected to a node is its label after as many supersteps
as there are nodes, and where a run has converged. After every superstep the label is the smallest
id from which the node is reached along as many edges, in whatever directions they point, as there
were supersteps before. -/
theorem components_exact {g : Adjacency} (made : g.Made) (few : g.relationships < 2 ^ 62) :
    ∃ u, g.undirected = .ok u ∧ ∀ (memory : Memory) (config : Config) (delivery : Delivery Int64)
      (engine : Engine Int64 Unit) (schedule : Schedule),
      (delivery = .queued ∨ delivery = .combined .min) →
      Engine.Built memory u.toGraph config components delivery engine → schedule.Valid →
      engine.state.signals.isRaised engine.watched = false →
      (∀ superstep, schedule.interrupts superstep = false) →
      (∀ superstep converged p, Boundary engine schedule converged p →
        p.stats.size = superstep + 1 → ∀ v < g.nodes,
          ∃ label, IsLeast (g.within superstep v) label ∧
            p.state.values.read .long "component" v = .ok (Int64.ofNat label)) ∧
      ∃ result, (engine.runWith schedule).result = .ok result ∧ result.status ≠ .cancelled ∧
        (result.status = .converged ∨ max g.nodes 1 ≤ config.maxSupersteps →
          ∀ v < g.nodes, ∃ label, IsLeast (g.component v) label ∧
            result.values.read .long "component" v = .ok (Int64.ofNat label)) ∧
        (g.nodes + 1 ≤ config.maxSupersteps → result.status = .converged) := by
  obtain ⟨edges, hholds⟩ := made.holds
  have hfew : 2 * edges.length < countLimit := by
    rw [← hholds.relationships, show countLimit = 2 ^ 64 from rfl]
    omega
  obtain ⟨u, es, hu, hes, hnodes, -, hmem⟩ := hholds.undirected hfew
  refine ⟨u, hu, fun memory config delivery engine schedule hd built hv calm still => ?_⟩
  have hsets := components_sets hd hes built
  have hlinked : ∀ a b, (a, b) ∈ es ↔ g.Linked a b := by
    intro a b
    rw [hmem, ← hholds.edge_iff, ← hholds.edge_iff]
    rfl
  have hwithin : ∀ distance v, offers g.Linked id id distance v = g.within distance v :=
    fun distance v => Set.ext fun w => mem_offers_id
  rw [components_eq] at built
  obtain ⟨hlayers, result, hresult, hstatus, hdone, hconverged⟩ :=
    hsets.exact hlinked built hv calm still
  simp only [hwithin, hnodes] at hlayers hdone hconverged
  refine ⟨hlayers, result, hresult, hstatus, fun hend v hn => ?_, hconverged⟩
  obtain ⟨label, hall, hread⟩ := hdone hend v hn
  refine ⟨label, ⟨?_, fun w hw => ?_⟩, hread⟩
  · obtain ⟨k, -, hwalk⟩ := (hall _ le_rfl).1
    exact mem_component.mpr ⟨k, hwalk⟩
  · obtain ⟨k, hwalk⟩ := mem_component.mp hw
    exact (hall _ (le_max_left (result.ran - 1) k)).2 ⟨k, le_max_right _ _, hwalk⟩

/-- Two nodes with an edge to the one between them are labelled in as many supersteps as there are
nodes. -/
theorem components_exact_in_a_row : ∃ (g u : Adjacency) (engine : Engine Int64 Unit)
    (result : RunResult), Adjacency.ofEdges 3 [(0, 1), (2, 1)] = .ok g ∧ g.undirected = .ok u ∧
    Engine.Built .addressable u.toGraph ⟨2, 3, 1, .range⟩ components (.combined .min) engine ∧
    (engine.runWith .backward).result = .ok result ∧
    ∀ v < 3, ∃ label, IsLeast (g.component v) label ∧
      result.values.read .long "component" v = .ok (Int64.ofNat label) := by
  have hg : Adjacency.ofEdges 3 [(0, 1), (2, 1)] = .ok ⟨#[0, 1, 1, 2], #[1, 1]⟩ := rfl
  have hcheck : (Engine.create (R := Unit) .addressable .none threeInARow ⟨2, 3, 1, .range⟩
      components (.combined .min)).toOption.any (fun _ => true) = true := by
    decide +kernel
  obtain ⟨engine, hcreate, -⟩ := exists_of_any hcheck
  have hcalm : engine.state.signals.isRaised engine.watched = false := by
    obtain ⟨_, _, _, _, _, _, _, _, _, _, _, _, rfl⟩ := engine_create_ok hcreate
    rfl
  obtain ⟨u, hu, hexact⟩ := components_exact (.ofEdges hg) (by decide)
  have hrow : Adjacency.undirected ⟨#[0, 1, 1, 2], #[1, 1]⟩ =
      .ok ⟨#[0, 1, 3, 4], #[1, 0, 2, 1]⟩ := rfl
  cases hrow.symm.trans hu
  obtain ⟨-, result, hresult, -, hlabels, -⟩ := hexact .addressable _ _ engine .backward (.inr rfl)
    (.create hcreate) backward_valid hcalm fun _ => rfl
  exact ⟨_, _, engine, result, hg, hu, .create hcreate, hresult, hlabels (.inr (by decide))⟩

end BulkSync
