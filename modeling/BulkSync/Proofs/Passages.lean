import BulkSync.Proofs.Grouping
import BulkSync.Proofs.Rounds

namespace BulkSync

variable {M R : Type}

/-- What a round came to for one node: the callbacks of the node, and the state as far as it is
about the node. -/
inductive Passed (engine : Engine M R) (superstep : Nat) (begun : State M) (moves : List Move)
    (es : List (Entry M R)) (node : Nat) (ended : State M) : List (Entry M R) → Prop
  | unvisited (absent : node ∉ moves.filterMap Move.node?) (agree : begun.AgreeAt node ended) :
      Passed engine superstep begun moves es node ended []
  | visited {task d new e} (fits : begun.Fits d.state) (before : begun.AgreeAt node d.state)
      (visit : Visited engine superstep task node d new e) (after : e.state.AgreeAt node ended)
      (together : new <:+: es) (present : Move.visit task node ∈ moves) :
      Passed engine superstep begun moves es node ended new

theorem node_mem_of_visit {task node : Nat} {moves : List Move}
    (h : Move.visit task node ∈ moves) : node ∈ moves.filterMap Move.node? :=
  List.mem_filterMap.mpr ⟨_, h, rfl⟩

theorem entry_node_lt {superstep nodes : Nat} {begun round : Round M R} {moves : List Move}
    {es : List (Entry M R)} (h : RoundEffect superstep begun moves es round)
    (hn : ∀ v ∈ moves.filterMap Move.node?, v < nodes) :
    ∀ x ∈ es, ∃ v < nodes, x.node? = some v := by
  intro x hx
  obtain ⟨task, node, hm, hnode, _⟩ := h.entries x hx
  exact ⟨node, hn node (node_mem_of_visit hm), hnode⟩

abbrev ownEntries (node : Nat) (journal : List (Entry M R)) : List (Entry M R) :=
  withKey Entry.node? node journal

theorem ownEntries_append (node : Nat) (es new : List (Entry M R)) :
    ownEntries node (es ++ new) = ownEntries node es ++ ownEntries node new :=
  withKey_append ..

theorem ownEntries_other {node other : Nat} {new : List (Entry M R)}
    (h : ∀ x ∈ new, x.node? = some other) (hne : node ≠ other) : ownEntries node new = [] :=
  withKey_other fun x hx => by simp [h x hx, Ne.symm hne]

theorem ownEntries_unvisited {superstep node : Nat} {begun round : Round M R} {moves : List Move}
    {es : List (Entry M R)} (h : RoundEffect superstep begun moves es round)
    (hn : node ∉ moves.filterMap Move.node?) : ownEntries node es = [] := by
  refine withKey_other fun x hx hx' => ?_
  obtain ⟨task, other, hm, hother, _⟩ := h.entries x hx
  cases hother.symm.trans hx'
  exact hn (node_mem_of_visit hm)

/-- The visit of a node adds its callbacks to those of the node, which had none before, and to no
other. -/
theorem ownEntries_visit {superstep task node : Nat} {begun round : Round M R} {moves : List Move}
    {es new : List (Entry M R)} {d e : Desk M} (h : RoundEffect superstep begun moves es round)
    (hv : VisitEffect superstep task node new d e) (hn : node ∉ moves.filterMap Move.node?) :
    ownEntries node (es ++ new) = new ∧
      ∀ other ∈ moves.filterMap Move.node?, ownEntries other (es ++ new) = ownEntries other es := by
  have hnew : ∀ x ∈ new, x.node? = some node := fun x hx => (hv.entries x hx).1
  constructor
  · rw [ownEntries_append, ownEntries_unvisited h hn, List.nil_append]
    exact withKey_self hnew
  · intro other hother
    have hne : other ≠ node := by
      rintro rfl
      exact hn hother
    rw [ownEntries_append, ownEntries_other hnew hne, List.append_nil]

/-- The callbacks of a round come node by node, in the order in which the nodes are visited. -/
theorem Played.entries_in_order {engine : Engine M R} {superstep : Nat} {begun round : Round M R}
    {moves : List Move} {es : List (Entry M R)}
    (h : Played engine superstep begun moves es round)
    (hd : (moves.filterMap Move.node?).Nodup) :
    es = (moves.filterMap Move.node?).flatMap fun node => ownEntries node es := by
  induction h with
  | start => rfl
  | @visit moves es round task node tally new e journal played found working visited written ih =>
    rw [nodes_visit, List.nodup_append] at hd
    obtain ⟨hd, _, hfresh⟩ := hd
    have habsent : node ∉ moves.filterMap Move.node? := fun hm => hfresh node hm node (by simp) rfl
    obtain ⟨hown, hothers⟩ := ownEntries_visit played.effect visited.effect habsent
    rw [nodes_visit, List.flatMap_append, List.flatMap_singleton, hown, List.flatMap_congr hothers,
      ← ih hd]
  | finish played found working merged ih =>
    rw [nodes_finish] at hd ⊢
    exact ih hd

/-- Executing moves that visit every node once at most leaves for each node what its own visit
did. -/
theorem Played.passed {engine : Engine M R} {superstep : Nat} {begun round : Round M R}
    {moves : List Move} {es : List (Entry M R)}
    (h : Played engine superstep begun moves es round)
    (hd : (moves.filterMap Move.node?).Nodup) (node : Nat) :
    Passed engine superstep begun.state moves es node round.state (ownEntries node es) := by
  induction h with
  | start => exact .unvisited (by simp) (.refl node _)
  | @visit moves es round task other tally new e journal played found working visited written ih =>
    rw [nodes_visit, List.nodup_append] at hd
    obtain ⟨hd, _, hfresh⟩ := hd
    have hv := visited.effect
    have hnew : ∀ x ∈ new, x.node? = some other := fun x hx => (hv.entries x hx).1
    rw [ownEntries_append]
    generalize ownEntries node es = own at ih ⊢
    by_cases hne : node = other
    · subst hne
      have habsent : node ∉ moves.filterMap Move.node? :=
        fun hm => hfresh node hm node (by simp) rfl
      have hfits := played.effect.fits
      cases hp : ih hd with
      | unvisited _ agree =>
        rw [List.nil_append, show ownEntries node new = new from withKey_self hnew]
        exact .visited hfits agree visited (.refl node _) (List.suffix_append es new).isInfix
          (by simp)
      | visited _ _ _ _ _ present => exact absurd (node_mem_of_visit present) habsent
    -- the visit of another node leaves this node's part of the round as it is
    · rw [ownEntries_other hnew hne, List.append_nil]
      cases ih hd with
      | unvisited absent agree =>
        refine .unvisited ?_ (agree.trans (hv.frame node hne))
        rw [nodes_visit, List.mem_append, not_or]
        exact ⟨absent, by simpa using hne⟩
      | visited fits before visit after together present =>
        exact .visited fits before visit (after.trans (hv.frame node hne))
          (together.trans (List.prefix_append es new).isInfix) (List.mem_append_left _ present)
  | @finish moves es round task tally aggregates played found working merged ih =>
    rw [nodes_finish] at hd
    have hagree : round.state.AgreeAt node (round.state.withAggregates aggregates) :=
      ⟨.refl node _, rfl, rfl⟩
    generalize ownEntries node es = own at ih ⊢
    cases ih hd with
    | unvisited absent agree =>
      exact .unvisited (by rwa [nodes_finish]) (agree.trans hagree)
    | visited fits before visit after together present =>
      exact .visited fits before visit (after.trans hagree) together
        (List.mem_append_left _ present)

end BulkSync
