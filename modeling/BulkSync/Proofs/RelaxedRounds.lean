import BulkSync.Proofs.Faultless
import BulkSync.Proofs.RelaxedVisits

namespace BulkSync

namespace Relaxing

variable {s : Scalar}

/-- A boundary from which every node is going to improve a number of its own. -/
structure Ahead (r : Relaxing s) (engine : Engine s.Number Unit) (p : Progress s.Number Unit)
    (current : Nat → s.Number) : Prop where
  due : ∀ v < engine.graph.nodes, r.Due p.stats.size v p.state.values (current v)
  keep : ∀ v < engine.graph.nodes, r.below (r.best (p.heard v) (current v)) (current v) = false →
    r.best (p.heard v) (current v) = current v
  quiet : p.stats.size ≠ 0 → ∀ v < engine.graph.nodes,
    r.tells p.stats.size [] (current v) = false

section Playing

variable {r : Relaxing s} {engine : Engine s.Number Unit} {delivery : Delivery s.Number}
  {p : Progress s.Number Unit} {row : Nat → List Nat} {current : Nat → s.Number} {task : Nat}
  {new : List (Entry s.Number Unit)} {d e : Desk s.Number} {v : Nat}

/-- Whenever a node is visited in the superstep, it improves its number. -/
theorem Ahead.visited (h : r.Ahead engine p current) (hc : engine.computation = r.computation)
    (hrow : engine.graph.Rows row) (hs : Settled engine delivery p) (hn : v < engine.graph.nodes)
    (fits : p.state.turned.Fits d.state) (before : p.state.turned.AgreeAt v d.state)
    (visit : Visited engine p.stats.size task v d new e) :
    e.state.values.read s r.key v = .ok (s.ofNumber (r.best (p.heard v) (current v))) ∧
      e.state.halted.bit v = true ∧ r.Told p.stats.size (p.heard v) (current v) (row v) new := by
  obtain ⟨slot, hslot, hheard⟩ := heard_of_slot hs hn
  have hslot' : d.state.mail.delivered[v]? = some slot := before.delivered.symm.trans hslot
  have hsound : d.state.halted.Sound := fits.sound hs.sound
  have hnodes : d.state.halted.nodes = engine.graph.nodes := fits.nodes.trans hs.nodes
  have hkeep := h.keep v hn
  rw [← hheard] at hkeep ⊢
  exact Relaxing.visited hc (hrow.neighbors v hn) hsound (hnodes ▸ hn)
    ((h.due v hn).agree before.values) hslot' hkeep (fun h0 => h.quiet h0 v hn) visit

/-- Nothing keeps the nodes from improving their numbers. -/
theorem Ahead.unhindered (h : r.Ahead engine p current) (hc : engine.computation = r.computation)
    (hrow : engine.graph.Rows row) (hs : Settled engine delivery p) (ht : delivery.Total) :
    Unhindered engine row p where
  frugal := by
    intro v hn task d new e fits before visit
    obtain ⟨-, -, htold⟩ := h.visited hc hrow hs hn fits before visit
    rw [htold.sends]
    split
    · exact Nat.le_refl _
    · exact Nat.zero_le _
  visits := by
    intro v hn task d fits before _ hroom
    obtain ⟨slot, hslot, -⟩ := heard_of_slot hs hn
    have hdelivery : d.state.mail.delivery = delivery := fits.delivery.trans hs.delivery
    have hpending : d.state.mail.pending.size = engine.graph.nodes :=
      fits.pending.trans (Array.size_map.trans hs.delivered)
    refine visit_exists hc (hrow.neighbors v hn) (fits.sound hs.sound)
      (fits.nodes.trans hs.nodes ▸ hn) ((h.due v hn).agree before.values)
      (before.delivered.symm.trans hslot) ?_ ?_ hroom task
    · exact hdelivery ▸ ht
    · exact fun w hw => hpending ▸ (hrow.inside v w hw).2
  merges := by
    intro a ha
    rw [hc] at ha
    cases ha
  decides := by
    intro t
    rw [hc]
    exact ⟨t, [], _, rfl⟩

end Playing

end Relaxing

end BulkSync
