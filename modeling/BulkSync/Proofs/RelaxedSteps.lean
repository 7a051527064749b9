import BulkSync.Proofs.Convergence
import BulkSync.Proofs.RelaxedRounds
import Mathlib.Order.Bounds.Basic
import Mathlib.Order.MinMax

namespace BulkSync

section Least

variable {α : Type} [LinearOrder α]

theorem least_foldl_min (a : α) (bs : List α) : IsLeast {x | x = a ∨ x ∈ bs} (bs.foldl min a) := by
  induction bs generalizing a with
  | nil => exact ⟨.inl rfl, by rintro x (rfl | h); exacts [le_rfl, by cases h]⟩
  | cons b bs ih =>
    obtain ⟨hmem, hle⟩ := ih (min a b)
    refine ⟨?_, ?_⟩
    · rcases hmem with he | hm
      · rw [List.foldl_cons, he]
        rcases min_choice a b with hm | hm <;> rw [hm] <;> simp
      · exact .inr (List.mem_cons_of_mem _ hm)
    · have hfirst : bs.foldl min (min a b) ≤ min a b := hle (.inl rfl)
      rintro x (rfl | hx)
      · exact hfirst.trans (min_le_left _ _)
      · rcases List.mem_cons.mp hx with rfl | hx
        · exact hfirst.trans (min_le_right _ _)
        · exact hle (.inr hx)

/-- Receivers whose messages stand for values fold them into the least one. -/
def Delivery.Least {M : Type} (code : α → M) (fits : α → Prop) : Delivery M → Prop
  | .queued => True
  | .combined combine =>
    ∀ a b, fits a → fits b → combine (code a) (code b) = .ok (code (min a b))

namespace Relaxing

variable {s : Scalar}

/-- The numbers of a relaxing computation stand for values in an order, as long as these fit. What
is passed on is not less, and what is not announced would improve nothing. -/
structure Stands (r : Relaxing s) (code : α → s.Number) (fits : α → Prop) (start : Nat → α)
    (pass : α → α) : Prop where
  mono : Monotone pass
  grows : ∀ a, a ≤ pass a
  first : ∀ node, r.first node = code (start node)
  lesser : ∀ a b, fits a → fits b → r.lesser (code a) (code b) = code (min a b)
  below : ∀ a b, fits a → fits b → r.below (code a) (code b) = decide (a < b)
  passed : ∀ a, fits a → fits (pass a) → r.passed (code a) = code (pass a)
  later : ∀ superstep a, superstep ≠ 0 → r.announces superstep (code a) = false
  silent : ∀ node a, fits (start node) → r.announces 0 (code (start node)) = false →
    a ≤ pass (start node)

variable {r : Relaxing s} {code : α → s.Number} {fits : α → Prop} {start : Nat → α} {pass : α → α}
  {delivery : Delivery s.Number}

theorem fits_min {a b : α} (ha : fits a) (hb : fits b) : fits (min a b) := by
  rcases min_choice a b with h | h <;> rw [h] <;> assumption

theorem fits_foldl {a : α} {bs : List α} (ha : fits a) (hb : ∀ b ∈ bs, fits b) :
    fits (bs.foldl min a) := by
  rcases (least_foldl_min a bs).1 with he | hm
  · rw [he]
    exact ha
  · exact hb _ hm

theorem Stands.inj (h : r.Stands code fits start pass) {a b : α} (ha : fits a) (hb : fits b)
    (he : code a = code b) : a = b := by
  have hbb : r.below (code b) (code b) = false := by
    rw [h.below b b hb hb]
    exact decide_eq_false (lt_irrefl b)
  have hab : ¬ a < b := by
    have hlt := h.below a b ha hb
    rw [he, hbb] at hlt
    exact of_decide_eq_false hlt.symm
  have hba : ¬ b < a := by
    have hlt := h.below b a hb ha
    rw [he, hbb] at hlt
    exact of_decide_eq_false hlt.symm
  exact le_antisymm (not_lt.mp hba) (not_lt.mp hab)

theorem Stands.foldl_lesser (h : r.Stands code fits start pass) {a : α} {bs : List α}
    (ha : fits a) (hb : ∀ b ∈ bs, fits b) :
    (bs.map code).foldl r.lesser (code a) = code (bs.foldl min a) := by
  induction bs generalizing a with
  | nil => rfl
  | cons b bs ih =>
    have hfirst : fits b := hb b (by simp)
    rw [List.map_cons, List.foldl_cons, h.lesser a b ha hfirst, List.foldl_cons]
    exact ih (fits_min ha hfirst) fun c hc => hb c (List.mem_cons_of_mem _ hc)

theorem foldlM_least {combine : Combiner s.Number}
    (hl : ∀ a b, fits a → fits b → combine (code a) (code b) = .ok (code (min a b))) {a : α}
    {bs : List α} (ha : fits a) (hb : ∀ b ∈ bs, fits b) :
    (bs.map code).foldlM combine (code a) = .ok (code (bs.foldl min a)) := by
  induction bs generalizing a with
  | nil => rfl
  | cons b bs ih =>
    have hfirst : fits b := hb b (by simp)
    rw [List.map_cons, List.foldlM_cons, hl a b ha hfirst]
    exact ih (fits_min ha hfirst) fun c hc => hb c (List.mem_cons_of_mem _ hc)

/-- A node hears of the least value sent to it, whether it is handed all or what they fold into. -/
theorem Stands.best_of_delivered (h : r.Stands code fits start pass)
    (hl : delivery.Least code fits) {a : α} {bs : List α} {received : List s.Number} (ha : fits a)
    (hb : ∀ b ∈ bs, fits b) (hd : delivery.Delivers (bs.map code) received) :
    r.best received (code a) = code (bs.foldl min a) := by
  cases delivery with
  | queued =>
    have he : received = bs.map code := hd
    rw [he]
    exact h.foldl_lesser ha hb
  | combined combine =>
    obtain ⟨folded, hfold, rfl⟩ := hd
    cases bs with
    | nil =>
      cases hfold
      rfl
    | cons b bs =>
      have hfirst : fits b := hb b (by simp)
      have hrest : ∀ c ∈ bs, fits c := fun c hc => hb c (List.mem_cons_of_mem _ hc)
      simp only [List.map_cons, Combiner.fold, foldlM_least hl hfirst hrest, bind,
        Except.bind] at hfold
      cases hfold
      have hassoc : bs.foldl min (min a b) = min a (bs.foldl min b) := List.foldl_assoc
      rw [List.foldl_cons, hassoc]
      exact h.lesser a _ ha (fits_foldl hfirst hrest)

section Stepping

variable {engine : Engine s.Number Unit} {row : Nat → List Nat} {schedule : Schedule}
  {p q : Progress s.Number Unit} {value : Nat → α} {offered : Nat → List α} {v : Nat}

/-- A boundary at which every node stands for a value and is offered others. -/
structure Outset (r : Relaxing s) (code : α → s.Number) (fits : α → Prop)
    (engine : Engine s.Number Unit) (p : Progress s.Number Unit) (value : Nat → α)
    (offered : Nat → List α) : Prop where
  due : ∀ v < engine.graph.nodes, r.Due p.stats.size v p.state.values (code (value v))
  sent : ∀ v < engine.graph.nodes,
    messagesBefore p.stats.size v p.journal.toList = (offered v).map code
  held : ∀ v < engine.graph.nodes, fits (value v)
  heard : ∀ v < engine.graph.nodes, ∀ b ∈ offered v, fits b

/-- What a superstep did that left every node with the next value. -/
structure Improved (r : Relaxing s) (code : α → s.Number) (pass : α → α)
    (engine : Engine s.Number Unit) (row : Nat → List Nat) (p q : Progress s.Number Unit)
    (value next : Nat → α) : Prop where
  size : q.stats.size = p.stats.size + 1
  signals : q.state.signals = p.state.signals
  read : ∀ v < engine.graph.nodes, q.state.values.read s r.key v = .ok (s.ofNumber (code (next v)))
  halted : ∀ v < engine.graph.nodes, q.state.halted.bit v = true
  sent : ∀ w, ∀ m ∈ messagesBefore q.stats.size w q.journal.toList, ∃ u < engine.graph.nodes,
    w ∈ row u ∧ (next u < value u ∨ r.announces p.stats.size (code (value u)) = true) ∧
      m = code (pass (next u))
  told : ∀ u < engine.graph.nodes, ∀ w ∈ row u,
    (next u < value u ∨ r.announces p.stats.size (code (value u)) = true) →
      code (pass (next u)) ∈ messagesBefore q.stats.size w q.journal.toList

theorem Outset.best (h : r.Outset code fits engine p value offered)
    (hst : r.Stands code fits start pass) (hl : delivery.Least code fits)
    (hs : Settled engine delivery p) (hn : v < engine.graph.nodes) :
    r.best (p.heard v) (code (value v)) = code ((offered v).foldl min (value v)) := by
  obtain ⟨slot, hslot, hheard⟩ := heard_of_slot hs hn
  have hd := hs.holds v slot hslot
  dsimp only at hd
  rw [hs.delivery, h.sent v hn, hheard] at hd
  exact hst.best_of_delivered hl (h.held v hn) (h.heard v hn) hd

theorem Outset.tells (h : r.Outset code fits engine p value offered)
    (hst : r.Stands code fits start pass) (hl : delivery.Least code fits)
    (hs : Settled engine delivery p) (hn : v < engine.graph.nodes) :
    r.tells p.stats.size (p.heard v) (code (value v)) = true ↔
      (offered v).foldl min (value v) < value v ∨
        r.announces p.stats.size (code (value v)) = true := by
  have hfits : fits ((offered v).foldl min (value v)) :=
    fits_foldl (h.held v hn) (h.heard v hn)
  rw [Relaxing.tells, h.best hst hl hs hn, hst.below _ _ hfits (h.held v hn), Bool.or_eq_true,
    decide_eq_true_eq]

theorem Outset.ahead (h : r.Outset code fits engine p value offered)
    (hst : r.Stands code fits start pass) (hl : delivery.Least code fits)
    (hs : Settled engine delivery p) : r.Ahead engine p fun v => code (value v) where
  due := h.due
  keep := by
    intro v hn hb
    have hfits : fits ((offered v).foldl min (value v)) :=
      fits_foldl (h.held v hn) (h.heard v hn)
    rw [h.best hst hl hs hn, hst.below _ _ hfits (h.held v hn)] at hb
    have hle : (offered v).foldl min (value v) ≤ value v := (least_foldl_min _ _).2 (.inl rfl)
    rw [h.best hst hl hs hn, le_antisymm hle (not_lt.mp (of_decide_eq_false hb))]
  quiet := by
    intro h0 v hn
    have hself : r.below (code (value v)) (code (value v)) = false := by
      rw [hst.below _ _ (h.held v hn) (h.held v hn)]
      exact decide_eq_false (lt_irrefl _)
    change (r.below (code (value v)) (code (value v)) || _) = false
    rw [hself, hst.later _ _ h0]
    rfl

/-- A superstep leaves every node with the least value it was offered, and passes on those that
got less or are announced. -/
theorem Outset.improved (h : r.Outset code fits engine p value offered)
    (hst : r.Stands code fits start pass) (hl : delivery.Least code fits)
    (hc : engine.computation = r.computation) (hrow : engine.graph.Rows row)
    (hr : engine.Ready delivery) (hs : Settled engine delivery p) (hv : schedule.Valid)
    (hpass : ∀ v < engine.graph.nodes, fits (pass ((offered v).foldl min (value v))))
    {partitions : List Partition} {es : List (Entry s.Number Unit)} {round : Round s.Number Unit}
    {calls : List (Call masterSignature)} {stop : Bool} {report : Unit}
    (hstep : Stepped engine schedule p partitions es round calls stop report q) :
    r.Improved code pass engine row p q value fun v => (offered v).foldl min (value v) := by
  have hvisits := hstep.visits hr hv
  have hahead := h.ahead hst hl hs
  have hnode : ∀ v < engine.graph.nodes,
      round.state.values.read s r.key v =
          .ok (s.ofNumber (code ((offered v).foldl min (value v)))) ∧
        round.state.halted.bit v = true ∧
        r.Told p.stats.size (p.heard v) (code (value v)) (row v) (ownEntries v es) := by
    intro v hn
    obtain ⟨_, _, _, fits, before, visit, after, -⟩ := hstep.visited hr hv hn
    obtain ⟨hread, hbit, htold⟩ := hahead.visited hc hrow hs hn fits before visit
    rw [h.best hst hl hs hn] at hread
    exact ⟨(after.values.read s r.key).symm.trans hread, after.bit.symm.trans hbit, htold⟩
  have hin := entry_node_lt hstep.played.effect
    fun u hu => List.mem_range.mp (hvisits.mem_iff.mp hu)
  have hown : ∀ x ∈ es, ∃ u < engine.graph.nodes, x ∈ ownEntries u es := by
    intro x hx
    obtain ⟨u, hu, hkey⟩ := hin x hx
    exact ⟨u, hu, List.mem_filter.mpr ⟨hx, by simp [hkey]⟩⟩
  have hpassed : ∀ u < engine.graph.nodes, r.passed (r.best (p.heard u) (code (value u))) =
      code (pass ((offered u).foldl min (value u))) := by
    intro u hu
    rw [h.best hst hl hs hu]
    exact hst.passed _ (fits_foldl (h.held u hu) (h.heard u hu)) (hpass u hu)
  have hmaster : q.state = round.state.published := by
    have hperformed := hstep.consulted.performed
    rw [hc] at hperformed
    exact (congrArg Performance.state hperformed).symm
  exact {
    size := hstep.size
    signals := by
      have hcalm : es.flatMap Entry.raised = [] := by
        refine List.flatMap_eq_nil_iff.mpr fun x hx => ?_
        obtain ⟨u, hu, hmem⟩ := hown x hx
        exact List.flatMap_eq_nil_iff.mp (hnode u hu).2.2.raised x hmem
      have hsignals := hstep.played.effect.signals
      rw [hcalm] at hsignals
      rw [hmaster]
      exact hsignals
    read := fun v hn => by rw [hmaster]; exact (hnode v hn).1
    halted := fun v hn => by rw [hmaster]; exact (hnode v hn).2.1
    sent := by
      intro w m hm
      rw [hstep.messages hs] at hm
      obtain ⟨x, hx, hmx⟩ := List.mem_flatMap.mp hm
      obtain ⟨u, hu, hmem⟩ := hown x hx
      have hsent : m ∈ (ownEntries u es).flatMap (Entry.sentTo w) :=
        List.mem_flatMap.mpr ⟨x, hmem, hmx⟩
      rw [(hnode u hu).2.2.sentTo w] at hsent
      split at hsent
      next htells =>
        obtain ⟨hcount, rfl⟩ := List.mem_replicate.mp hsent
        exact ⟨u, hu, List.count_pos_iff.mp (Nat.pos_of_ne_zero hcount),
          (h.tells hst hl hs hu).mp htells, hpassed u hu⟩
      next => cases hsent
    told := by
      intro u hu w hw hdue
      have hsent := (hnode u hu).2.2.sentTo w
      rw [if_pos ((h.tells hst hl hs hu).mpr hdue), hpassed u hu] at hsent
      have hmem : code (pass ((offered u).foldl min (value u))) ∈
          (ownEntries u es).flatMap (Entry.sentTo w) := by
        rw [hsent]
        exact List.mem_replicate.mpr ⟨Nat.ne_of_gt (List.count_pos_iff.mpr hw), rfl⟩
      obtain ⟨x, hx, hmx⟩ := List.mem_flatMap.mp hmem
      rw [hstep.messages hs]
      exact List.mem_flatMap.mpr ⟨x, List.mem_of_mem_filter hx, hmx⟩ }

end Stepping

end Relaxing

end Least

end BulkSync
