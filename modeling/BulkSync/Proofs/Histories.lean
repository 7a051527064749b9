import BulkSync.Proofs.Boundaries

namespace BulkSync

variable {M R : Type}

def initCount (node : Nat) (journal : List (Entry M R)) : Nat :=
  journal.countP (Entry.isInit node)

theorem initCount_append (node : Nat) (es fs : List (Entry M R)) :
    initCount node (es ++ fs) = initCount node es + initCount node fs :=
  List.countP_append

theorem initCount_ownEntries (node : Nat) (es : List (Entry M R)) :
    initCount node es = initCount node (ownEntries node es) := by
  unfold initCount ownEntries withKey
  rw [List.countP_filter]
  refine List.countP_congr fun x _ => ?_
  cases x <;> simp [Entry.isInit, Entry.node?]

theorem initCount_eq_zero {node : Nat} {es : List (Entry M R)} (h : initCount node es = 0) :
    ∀ x ∈ es, x.isInit node = false :=
  fun x hx => Bool.eq_false_iff.mpr (List.countP_eq_zero.mp h x hx)

/-- What is not a node does not initialize itself. -/
theorem initCount_outside {nodes node : Nat} {es : List (Entry M R)}
    (h : ∀ x ∈ es, ∀ v, x.node? = some v → v < nodes) (hn : nodes ≤ node) :
    initCount node es = 0 := by
  refine List.countP_eq_zero.mpr fun x hx hinit => ?_
  cases x with
  | init v calls result =>
    have hlt := h _ hx v rfl
    have hv : v = node := by simpa [Entry.isInit] using hinit
    omega
  | _ => cases hinit

/-- What a journal tells after `size` supersteps over `nodes` nodes. -/
structure History (delivery : Delivery M) (nodes size : Nat) (journal : List (Entry M R)) :
    Prop where
  count : ∀ i < size, ∀ v < nodes, computeCount i v journal =
    if i = 0 ∨ votedBefore i v journal = false ∨ messagesBefore i v journal ≠ [] then 1 else 0
  delivers : ∀ i task v messages calls result, .compute i task v messages calls result ∈ journal →
    delivery.Delivers (messagesBefore i v journal) messages.waiting
  inits : ∀ v, initCount v journal = if size ≠ 0 ∧ v < nodes then 1 else 0
  opening : size ≠ 0 → ∀ v < nodes, ∃ calls result task messages calls' result',
    [.init v calls result, .compute 0 task v messages calls' result'] <:+: journal
  reach : ∀ i v, nodes ≤ v → messagesSent i v journal = []

theorem NodeTurn.delivers {delivery : Delivery M} {superstep node i task : Nat}
    {old own : List (Entry M R)} {messages : Messages M} {calls : List (Call (nodeSignature M))}
    {result : Except Fault R} (h : NodeTurn delivery superstep node old own)
    (hx : .compute i task node messages calls result ∈ own) :
    i = superstep ∧ delivery.Delivers (messagesBefore superstep node old) messages.waiting := by
  cases h with
  | skipped => cases hx
  | @computed _ _ inits _ _ due delivers opening =>
    rcases List.mem_append.mp hx with hx | hx
    · have hnone := (opening.silent _ hx).1
      cases hnone
    · cases List.mem_singleton.mp hx
      exact ⟨rfl, delivers⟩

/-- In superstep 0 a node initializes itself and then computes. -/
theorem NodeTurn.opening {delivery : Delivery M} {node : Nat} {old own : List (Entry M R)}
    (h : NodeTurn delivery 0 node old own) : ∃ calls result task messages calls' result',
      own = [.init node calls result, .compute 0 task node messages calls' result'] := by
  cases h with
  | skipped later => exact absurd rfl later
  | @computed task messages inits calls result due delivers opening =>
    cases opening with
    | first => exact ⟨_, _, _, _, _, _, rfl⟩
    | later h => exact absurd rfl h

theorem NodeTurn.inits {delivery : Delivery M} {superstep node : Nat} {old own : List (Entry M R)}
    (h : NodeTurn delivery superstep node old own) :
    initCount node own = if superstep = 0 then 1 else 0 := by
  cases h with
  | skipped later => rw [if_neg later]; rfl
  | @computed task messages inits calls result due delivers opening =>
    cases opening with
    | first h0 => rw [if_pos h0]; simp [initCount, Entry.isInit]
    | later h => rw [if_neg h]; rfl

section Stepping

variable {engine : Engine M R} {delivery : Delivery M} {schedule : Schedule} {p q : Progress M R}
  {partitions : List Partition} {es : List (Entry M R)} {round : Round M R}
  {calls : List (Call masterSignature)} {stop : Bool} {report : R}

/-- A node computes once in the superstep that is executed, if it is due, and otherwise not. -/
theorem Stepped.count (hr : engine.Ready delivery) (hs : Settled engine delivery p)
    (hv : schedule.Valid)
    (h : Stepped engine schedule p partitions es round calls stop report q) {v : Nat}
    (hn : v < engine.graph.nodes) :
    computeCount p.stats.size v q.journal.toList =
      if p.stats.size = 0 ∨ votedBefore p.stats.size v p.journal.toList = false ∨
        messagesBefore p.stats.size v p.journal.toList ≠ [] then 1 else 0 := by
  have hturn := (h.turn hr hs hv hn).1
  rw [← ownEntries_master v p.stats.size es calls (.ok (stop, report))] at hturn
  rw [h.journal, computeCount_before hs.before]
  exact hturn.count

/-- A node computes in the superstep that is executed exactly if it is due, and earlier supersteps
are not touched. -/
theorem Stepped.history_count (hr : engine.Ready delivery) (hs : Settled engine delivery p)
    (hv : schedule.Valid)
    (h : Stepped engine schedule p partitions es round calls stop report q)
    (hh : History delivery engine.graph.nodes p.stats.size p.journal.toList) {i v : Nat}
    (hi : i < p.stats.size + 1) (hn : v < engine.graph.nodes) :
    computeCount i v q.journal.toList =
      if i = 0 ∨ votedBefore i v q.journal.toList = false ∨
        messagesBefore i v q.journal.toList ≠ [] then 1 else 0 := by
  have hafter := h.during.after
  have hle : i ≤ p.stats.size := Nat.le_of_lt_succ hi
  rw [h.journal, votedBefore_after hafter hle, messagesBefore_after hafter hle]
  rcases Nat.lt_or_eq_of_le hle with hlt | rfl
  · rw [computeCount_after hafter hlt]
    exact hh.count i hlt v hn
  · rw [← h.journal]
    exact h.count hr hs hv hn

/-- What is handed to a node in the superstep that is executed was sent in the one before. -/
theorem Stepped.history_delivers (hr : engine.Ready delivery) (hs : Settled engine delivery p)
    (hv : schedule.Valid)
    (h : Stepped engine schedule p partitions es round calls stop report q)
    (hh : History delivery engine.graph.nodes p.stats.size p.journal.toList) {i task v : Nat}
    {messages : Messages M} {calls' : List (Call (nodeSignature M))} {result : Except Fault R}
    (hx : .compute i task v messages calls' result ∈ q.journal.toList) :
    delivery.Delivers (messagesBefore i v q.journal.toList) messages.waiting := by
  have hafter := h.during.after
  rw [h.journal] at hx ⊢
  rcases List.mem_append.mp hx with hx | hx
  · have hi : i < p.stats.size := hs.before _ hx i rfl
    rw [messagesBefore_after hafter (Nat.le_of_lt hi)]
    exact hh.delivers i task v messages calls' result hx
  · have hes : .compute i task v messages calls' result ∈ es := by
      rcases List.mem_append.mp hx with hx | hx
      · exact hx
      · cases List.mem_singleton.mp hx
    obtain ⟨t, node, hm, hnode, _⟩ := h.played.effect.entries _ hes
    cases hnode
    have hn : v < engine.graph.nodes :=
      List.mem_range.mp ((h.visits hr hv).mem_iff.mp (node_mem_of_visit hm))
    have hown : .compute i task v messages calls' result ∈ ownEntries v es :=
      List.mem_filter.mpr ⟨hes, by simp [Entry.node?]⟩
    obtain ⟨rfl, hd⟩ := (h.turn hr hs hv hn).1.delivers hown
    rw [messagesBefore_after hafter (Nat.le_refl _)]
    exact hd

/-- Every node initializes itself in superstep 0 and never again. -/
theorem Stepped.history_inits (hr : engine.Ready delivery) (hs : Settled engine delivery p)
    (hv : schedule.Valid)
    (h : Stepped engine schedule p partitions es round calls stop report q)
    (hh : History delivery engine.graph.nodes p.stats.size p.journal.toList) (v : Nat) :
    initCount v q.journal.toList = if v < engine.graph.nodes then 1 else 0 := by
  by_cases hn : v < engine.graph.nodes
  · have hturn := (h.turn hr hs hv hn).1
    rw [← ownEntries_master v p.stats.size es calls (.ok (stop, report))] at hturn
    rw [h.journal, initCount_append, hh.inits v, initCount_ownEntries v (es ++ _), hturn.inits]
    by_cases h0 : p.stats.size = 0
    · simp [h0, hn]
    · simp [h0, hn]
  · rw [if_neg hn]
    exact initCount_outside (h.settled hr hs hv).inside (Nat.le_of_not_lt hn)

theorem Stepped.history (hr : engine.Ready delivery) (hs : Settled engine delivery p)
    (hv : schedule.Valid)
    (h : Stepped engine schedule p partitions es round calls stop report q)
    (hh : History delivery engine.graph.nodes p.stats.size p.journal.toList) :
    History delivery engine.graph.nodes q.stats.size q.journal.toList := by
  have hsize : q.stats.size = p.stats.size + 1 := h.size
  rw [hsize]
  refine ⟨fun i hi v hn => h.history_count hr hs hv hh hi hn,
    fun i task v messages calls' result hx => h.history_delivers hr hs hv hh hx, ?_, ?_, ?_⟩
  · intro v
    rw [h.history_inits hr hs hv hh v]
    simp
  · intro _ v hn
    rw [h.journal]
    by_cases h0 : p.stats.size = 0
    · obtain ⟨hturn, htogether, _⟩ := h.turn hr hs hv hn
      rw [h0] at hturn
      obtain ⟨begun, result, task, messages, first, result', hown⟩ := hturn.opening
      rw [hown] at htogether
      exact ⟨begun, result, task, messages, first, result',
        (htogether.trans (List.infix_append' _ _ _))⟩
    · obtain ⟨begun, result, task, messages, first, result', hold⟩ := hh.opening h0 v hn
      exact ⟨begun, result, task, messages, first, result',
        hold.trans (List.prefix_append _ _).isInfix⟩
  · intro i v hn
    have hes : es.flatMap (Entry.sentTo v) = [] :=
      h.played.effect.reach v ((Array.size_map.trans hs.delivered).symm ▸ hn)
    have hnew : (es ++ [Entry.master p.stats.size calls (.ok (stop, report))]).flatMap
        (Entry.sentTo v) = [] := by
      rw [List.flatMap_append, hes]
      rfl
    rw [h.journal, messagesSent_append, hh.reach i v hn, List.nil_append, messagesSent]
    exact List.flatMap_eq_nil_iff.mpr fun x hx =>
      List.flatMap_eq_nil_iff.mp hnew x (List.mem_filter.mp hx).1

end Stepping

theorem boundary_history {engine : Engine M R} {delivery : Delivery M} {schedule : Schedule}
    {converged : Bool} {p : Progress M R} (hr : engine.Ready delivery) (hv : schedule.Valid)
    (h : Boundary engine schedule converged p) :
    History delivery engine.graph.nodes p.stats.size p.journal.toList := by
  induction h with
  | start => exact ⟨by simp, by simp, fun _ => rfl, by simp, fun _ _ _ => rfl⟩
  | next reached step ih =>
    obtain ⟨_, _, _, _, _, _, hstep, _⟩ := superstep_ok hv step
    exact hstep.history hr (boundary_settled hr hv reached) hv ih

theorem after_close (superstep : Nat) : After superstep ([.close] : List (Entry M R)) := by
  intro x hx i hi
  rw [List.mem_singleton.mp hx] at hi
  cases hi

theorem History.close {delivery : Delivery M} {nodes size : Nat} {journal : List (Entry M R)}
    (h : History delivery nodes size journal) :
    History delivery nodes size (journal ++ [.close]) where
  count i hi v hn := by
    rw [computeCount_after (after_close (i + 1)) (Nat.lt_succ_self i),
      votedBefore_after (after_close i) (Nat.le_refl i),
      messagesBefore_after (after_close i) (Nat.le_refl i)]
    exact h.count i hi v hn
  delivers i task v messages calls result hx := by
    rw [messagesBefore_after (after_close i) (Nat.le_refl i)]
    rcases List.mem_append.mp hx with hx | hx
    · exact h.delivers i task v messages calls result hx
    · cases List.mem_singleton.mp hx
  inits v := by
    rw [initCount_append, h.inits v]
    rfl
  opening hne v hn := by
    obtain ⟨calls, result, task, messages, calls', result', hi⟩ := h.opening hne v hn
    exact ⟨calls, result, task, messages, calls', result',
      hi.trans (List.prefix_append _ _).isInfix⟩
  reach i v hn := by
    rw [messagesSent_after (after_close (i + 1)) (Nat.lt_succ_self i)]
    exact h.reach i v hn

theorem runWith_history {engine : Engine M R} {delivery : Delivery M} {schedule : Schedule}
    {result : RunResult} (hr : engine.Ready delivery) (hv : schedule.Valid)
    (h : (engine.runWith schedule).result = .ok result) :
    let journal := (engine.runWith schedule).progress.journal.toList
    History delivery engine.graph.nodes result.ran journal ∧ Before result.ran journal ∧
      ∀ x ∈ journal, ∀ v, x.node? = some v → v < engine.graph.nodes := by
  intro journal
  obtain ⟨q, hq, _, hj, hresult⟩ := runWith_ok h
  have hjournal : journal = q.journal.toList ++ [.close] := hj
  have hran : result.ran = q.stats.size := by rw [hresult]
  have hs := boundary_settled hr hv hq
  rw [hjournal, hran]
  refine ⟨(boundary_history hr hv hq).close, hs.before.append ?_, ?_⟩
  · intro x hx i hi
    rw [List.mem_singleton.mp hx] at hi
    cases hi
  · intro x hx v hnode
    rcases List.mem_append.mp hx with hx | hx
    · exact hs.inside x hx v hnode
    · rw [List.mem_singleton.mp hx] at hnode
      cases hnode

end BulkSync
