import BulkSync.PageRank
import BulkSync.Proofs.Callbacks

namespace BulkSync

/-- The rank that a node comes to in a superstep: in superstep 0 the one it has, and then the one
that what it heard makes. -/
def rankAfter (nodes superstep : Nat) (heard : List Float) (current : Float) : Float :=
  if superstep = 0 then current else nextRank nodes (receivedRank ⟨heard⟩)

def refreshRank (place : Place) (heard : List Float) (current : Float) : NodeProgram Float Float :=
  if place.superstep = 0 then .done current
  else do
    let next := nextRank place.nodes (receivedRank ⟨heard⟩)
    NodeProgram.aggregate "delta" (next - current).abs
    NodeProgram.writeNumber .double "rank" next
    .done next

def announceRank (rank : Float) : NodeProgram Float Unit := do
  let degree ← NodeProgram.degree
  if degree > 0 then NodeProgram.sendNeighbors (rank / Float.ofNat degree)
  NodeProgram.aggregate "rank_sum" rank

theorem pageRank_compute_eq (tolerance : Float) (place : Place) (heard : List Float) :
    (pageRank tolerance).compute place ⟨heard⟩ = (do
      let current ← NodeProgram.readNumber .double "rank"
      let rank ← refreshRank place heard current
      announceRank rank) := by
  change (NodeProgram.readNumber .double "rank" >>= fun current => _) = _
  refine congrArg _ (funext fun current => ?_)
  unfold refreshRank
  by_cases h0 : place.superstep = 0
  · simp only [if_pos h0]
    rfl
  · simp only [if_neg h0]
    rfl

/-- The calls by which a node comes to its next rank. -/
def refreshCalls (superstep : Nat) (current rank : Float) : List (Call (nodeSignature Float)) :=
  if superstep = 0 then []
  else
    [⟨.aggregate "delta" (rank - current).abs, ()⟩,
      ⟨.own (.write .double "rank" (.ofFloat rank)), ()⟩]

/-- The calls by which a node that has these neighbors tells its rank. -/
def announceCalls (rank : Float) (row : List Nat) : List (Call (nodeSignature Float)) :=
  ⟨.own .degree, row.length⟩ ::
    ((if row.length > 0 then [⟨.sendNeighbors (rank / Float.ofNat row.length), row⟩] else []) ++
      [⟨.aggregate "rank_sum" rank, ()⟩])

def rankCalls (superstep : Nat) (current rank : Float) (row : List Nat) :
    List (Call (nodeSignature Float)) :=
  ⟨.own (.read .double "rank"), Double.ofFloat current⟩ ::
    (refreshCalls superstep current rank ++ announceCalls rank row)

section Calls

variable (superstep : Nat) (current rank : Float) (row : List Nat)

theorem rankCalls_sentTo (node : Nat) :
    (rankCalls superstep current rank row).flatMap (Call.sentTo node) =
      .replicate (row.count node) (rank / Float.ofNat row.length) := by
  have hrefresh : (refreshCalls superstep current rank).flatMap (Call.sentTo node) = [] := by
    unfold refreshCalls
    split <;> simp [Call.sentTo]
  have hannounce : (announceCalls rank row).flatMap (Call.sentTo node) =
      .replicate (row.count node) (rank / Float.ofNat row.length) := by
    cases row <;> simp [announceCalls, Call.sentTo]
  rw [rankCalls, List.flatMap_cons, List.flatMap_append, hrefresh, hannounce]
  rfl

theorem rankCalls_sends : ((rankCalls superstep current rank row).map Call.sends).sum =
    row.length := by
  have hrefresh : ((refreshCalls superstep current rank).map Call.sends).sum = 0 := by
    unfold refreshCalls
    split <;> simp [Call.sends]
  have hannounce : ((announceCalls rank row).map Call.sends).sum = row.length := by
    cases row <;> simp [announceCalls, Call.sends]
  rw [rankCalls, List.map_cons, List.map_append, List.sum_cons, List.sum_append, hrefresh,
    hannounce]
  simp [Call.sends]

theorem rankCalls_gave : (rankCalls superstep current rank row).flatMap (Call.gave "delta") =
    if superstep = 0 then [] else [(rank - current).abs] := by
  have hrefresh : (refreshCalls superstep current rank).flatMap (Call.gave "delta") =
      if superstep = 0 then [] else [(rank - current).abs] := by
    unfold refreshCalls
    split <;> simp [Call.gave]
  have hannounce : (announceCalls rank row).flatMap (Call.gave "delta") = [] := by
    cases row <;> simp [announceCalls, Call.gave]
  rw [rankCalls, List.flatMap_cons, List.flatMap_append, hrefresh, hannounce, List.append_nil]
  rfl

/-- A node never votes to halt and raises no signal. -/
theorem rankCalls_calm : (rankCalls superstep current rank row).any Call.isVote = false ∧
    (rankCalls superstep current rank row).flatMap Call.raised = [] := by
  unfold rankCalls refreshCalls announceCalls
  by_cases h0 : superstep = 0 <;> cases row <;>
    simp [h0, Call.isVote, Call.raised, Call.ownRaised]

end Calls

/-- Nothing keeps contributions from being combined. -/
theorem pageRank_merges (tolerance : Float) : ∀ a ∈ (pageRank tolerance).aggregators,
    ∀ x y, ∃ z, a.combine x y = .ok z := by
  intro a ha x y
  rcases List.mem_pair.mp ha with rfl | rfl
  · exact ⟨_, rfl⟩
  · exact ⟨_, rfl⟩

section Performing

variable {tolerance : Float} {graph : Graph} {node superstep : Nat} {heard : List Float}
  {current rank : Float} {row : List Nat} {d e : Desk Float}
  {cs : List (Call (nodeSignature Float))} {u : Unit}

theorem refreshRank_ok (hread : d.state.values.read .double "rank" node = .ok (.ofFloat current))
    (h : (refreshRank ⟨node, superstep, graph.nodes⟩ heard current).perform
      (nodeHandler graph node) d = ⟨e, cs, .ok rank⟩) :
    rank = rankAfter graph.nodes superstep heard current ∧
      e.state.values.read .double "rank" node = .ok (.ofFloat rank) ∧
      cs = refreshCalls superstep current rank := by
  unfold refreshRank at h
  unfold rankAfter refreshCalls
  split at h
  next h0 =>
    cases h
    rw [if_pos h0, if_pos h0]
    exact ⟨rfl, hread, rfl⟩
  next h0 =>
    obtain ⟨d₁, cs₁, _, _, hgive, hrest, rfl⟩ := perform_bind_ok_iff.mp h
    obtain ⟨d₂, cs₂, _, _, hwrite, hdone, rfl⟩ := perform_bind_ok_iff.mp hrest
    cases hdone
    obtain ⟨partials, -, rfl, rfl⟩ := perform_aggregate_ok_iff.mp hgive
    obtain ⟨values, hw, rfl, rfl⟩ := perform_write_ok_iff.mp hwrite
    rw [if_neg h0, if_neg h0]
    exact ⟨rfl, ValueStore.read_write hw, rfl⟩

theorem announceRank_ok (hrow : graph.neighbors node = .ok row)
    (hdegree : graph.degree node = .ok row.length)
    (h : (announceRank rank).perform (nodeHandler graph node) d = ⟨e, cs, .ok u⟩) :
    e.state.values = d.state.values ∧ cs = announceCalls rank row := by
  unfold announceRank at h
  obtain ⟨d₁, cs₁, degree, _, hask, hrest, rfl⟩ := perform_bind_ok_iff.mp h
  obtain ⟨hsame, rfl, rfl⟩ := perform_degree_ok_iff.mp hask
  cases hdegree.symm.trans hsame
  unfold announceCalls
  dsimp only at hrest
  split at hrest
  next hpos =>
    obtain ⟨d₂, cs₂, _, _, hsend, hgive, rfl⟩ := perform_bind_ok_iff.mp hrest
    obtain ⟨⟨mail, -, -, rfl⟩, rfl⟩ := (perform_sendNeighbors_ok_iff hrow).mp hsend
    obtain ⟨partials, -, rfl, rfl⟩ := perform_aggregate_ok_iff.mp hgive
    rw [if_pos hpos]
    exact ⟨rfl, rfl⟩
  next hpos =>
    obtain ⟨partials, -, rfl, rfl⟩ := perform_aggregate_ok_iff.mp hrest
    rw [if_neg hpos]
    exact ⟨rfl, rfl⟩

/-- A node that computes comes to its next rank and tells it. -/
theorem pageRank_compute_ok
    (hread : d.state.values.read .double "rank" node = .ok (.ofFloat current))
    (hrow : graph.neighbors node = .ok row) (hdegree : graph.degree node = .ok row.length)
    (h : ((pageRank tolerance).compute ⟨node, superstep, graph.nodes⟩ ⟨heard⟩).perform
      (nodeHandler graph node) d = ⟨e, cs, .ok u⟩) :
    e.state.values.read .double "rank" node =
        .ok (.ofFloat (rankAfter graph.nodes superstep heard current)) ∧
      cs = rankCalls superstep current (rankAfter graph.nodes superstep heard current) row := by
  rw [pageRank_compute_eq] at h
  obtain ⟨d₁, cs₁, x, _, hfirst, hrest, rfl⟩ := perform_bind_ok_iff.mp h
  obtain ⟨d₂, cs₂, rank, _, hrefresh, hannounce, rfl⟩ := perform_bind_ok_iff.mp hrest
  obtain ⟨rfl, rfl, rfl⟩ := (perform_readNumber_ok_iff_of_read (s := .double) hread).mp hfirst
  obtain ⟨rfl, hrank, rfl⟩ := refreshRank_ok hread hrefresh
  obtain ⟨hvalues, rfl⟩ := announceRank_ok hrow hdegree hannounce
  exact ⟨by rw [hvalues]; exact hrank, rfl⟩

section Existence

variable (hdeclared : d.state.aggregates.declared = (pageRank tolerance).aggregators)
  (hl : d.tally.partials.length = (pageRank tolerance).aggregators.length)

include hdeclared hl

variable (graph node) in
theorem aggregate_exists {key : String} (hk : key = "delta" ∨ key = "rank_sum") (x : Float) :
    ∃ partials cs, (NodeProgram.aggregate key x).perform (nodeHandler graph node) d =
        ⟨⟨d.state, { d.tally with partials }⟩, cs, .ok ()⟩ ∧
      partials.length = (pageRank tolerance).aggregators.length := by
  have hkey : ∃ a ∈ (pageRank tolerance).aggregators, a.key = key := by
    rcases hk with rfl | rfl
    · exact ⟨⟨"delta", Combiner.max⟩, by simp [pageRank], rfl⟩
    · exact ⟨⟨"rank_sum", fun a b => .ok (a + b)⟩, by simp [pageRank], rfl⟩
  rcases Totals.contribute_exists x hl hkey with ⟨partials, hgive⟩ | ⟨f, -, a, ha, y, z, hfault⟩
  · have hlength := (Totals.contribute_length hgive).1.trans hl
    rw [← hdeclared] at hgive
    exact ⟨partials, _, perform_aggregate_ok_iff.mpr ⟨partials, hgive, rfl, rfl⟩, hlength⟩
  · obtain ⟨w, hw⟩ := pageRank_merges tolerance a ha y z
    rw [hw] at hfault
    cases hfault

variable (graph superstep heard) in
theorem refreshRank_exists
    (hread : d.state.values.read .double "rank" node = .ok (.ofFloat current)) :
    ∃ values partials cs, (refreshRank ⟨node, superstep, graph.nodes⟩ heard current).perform
        (nodeHandler graph node) d =
          ⟨⟨{ d.state with values }, { d.tally with partials }⟩, cs,
            .ok (rankAfter graph.nodes superstep heard current)⟩ ∧
      partials.length = (pageRank tolerance).aggregators.length := by
  unfold refreshRank rankAfter
  by_cases h0 : superstep = 0
  · simp only [if_pos h0]
    exact ⟨d.state.values, d.tally.partials, [], rfl, hl⟩
  · simp only [if_neg h0]
    obtain ⟨partials, _, hgive, hlength⟩ := aggregate_exists graph node hdeclared hl (.inl rfl)
      (nextRank graph.nodes (receivedRank ⟨heard⟩) - current).abs
    obtain ⟨values, hw⟩ : ∃ values, d.state.values.write .double "rank" node
        (.ofFloat (nextRank graph.nodes (receivedRank ⟨heard⟩))) = .ok () values :=
      ⟨_, ValueStore.write_of_admits (ValueStore.admits_of_read hread) _⟩
    have hwrite : (NodeProgram.writeNumber .double "rank"
        (nextRank graph.nodes (receivedRank ⟨heard⟩))).perform (nodeHandler graph node)
          (⟨d.state, { d.tally with partials }⟩ : Desk Float) =
            ⟨⟨{ d.state with values }, { d.tally with partials }⟩, _, .ok ()⟩ :=
      perform_write_ok_iff.mpr ⟨values, hw, rfl, rfl⟩
    have hrest := (perform_bind_ok_iff (f := fun _ =>
      (.done (nextRank graph.nodes (receivedRank ⟨heard⟩)) : NodeProgram Float Float))).mpr
        ⟨_, _, _, _, hwrite, rfl, rfl⟩
    exact ⟨values, partials, _, perform_bind_ok_iff.mpr ⟨_, _, _, _, hgive, hrest, rfl⟩, hlength⟩

variable (rank) in
theorem announceRank_exists (hrow : graph.neighbors node = .ok row)
    (hdegree : graph.degree node = .ok row.length)
    (hsend : ∀ m, ∃ mail, d.state.mail.sendAll m row = .ok () mail)
    (hroom : d.tally.sent + row.length < countLimit) :
    ∃ e cs, (announceRank rank).perform (nodeHandler graph node) d = ⟨e, cs, .ok ()⟩ := by
  have hask := (perform_degree_ok_iff (d := d)).mpr ⟨hdegree, rfl, rfl⟩
  suffices hrest : ∃ e cs, (do
      if row.length > 0 then NodeProgram.sendNeighbors (rank / Float.ofNat row.length)
      NodeProgram.aggregate "rank_sum" rank : NodeProgram Float Unit).perform
        (nodeHandler graph node) d = ⟨e, cs, .ok ()⟩ by
    obtain ⟨e, cs, hrest⟩ := hrest
    exact ⟨e, _, perform_bind_ok_iff.mpr ⟨_, _, _, _, hask, hrest, rfl⟩⟩
  dsimp only
  split
  next =>
    obtain ⟨mail, hmail⟩ := hsend (rank / Float.ofNat row.length)
    have hsending := (perform_sendNeighbors_ok_iff (u := ()) hrow).mpr
      ⟨⟨mail, hmail, hroom, rfl⟩, rfl⟩
    obtain ⟨partials, _, hgive, -⟩ := aggregate_exists graph node
      (d := ⟨{ d.state with mail }, { d.tally with sent := d.tally.sent + row.length }⟩)
      hdeclared hl (.inr rfl) rank
    exact ⟨_, _, perform_bind_ok_iff.mpr ⟨_, _, _, _, hsending, hgive, rfl⟩⟩
  next =>
    obtain ⟨partials, cs, hgive, -⟩ := aggregate_exists graph node hdeclared hl (.inr rfl) rank
    exact ⟨_, cs, hgive⟩

variable (superstep heard) in
/-- Nothing keeps a node from coming to its next rank and telling it. -/
theorem pageRank_compute_exists
    (hread : d.state.values.read .double "rank" node = .ok (.ofFloat current))
    (hrow : graph.neighbors node = .ok row) (hdegree : graph.degree node = .ok row.length)
    (hsend : ∀ m, ∃ mail, d.state.mail.sendAll m row = .ok () mail)
    (hroom : d.tally.sent + row.length < countLimit) :
    ∃ e cs, ((pageRank tolerance).compute ⟨node, superstep, graph.nodes⟩ ⟨heard⟩).perform
      (nodeHandler graph node) d = ⟨e, cs, .ok ()⟩ := by
  have hreading : (NodeProgram.readNumber .double "rank").perform (nodeHandler graph node) d =
      ⟨d, _, .ok current⟩ :=
    (perform_readNumber_ok_iff_of_read (s := .double) hread).mpr ⟨rfl, rfl, rfl⟩
  obtain ⟨values, partials, _, hrefresh, hlength⟩ :=
    refreshRank_exists graph superstep heard hdeclared hl hread
  obtain ⟨e, _, hannounce⟩ := announceRank_exists
    (rankAfter graph.nodes superstep heard current)
    (d := ⟨{ d.state with values }, { d.tally with partials }⟩) hdeclared hlength hrow hdegree
    hsend hroom
  have hrest := (perform_bind_ok_iff (f := announceRank)).mpr
    ⟨_, _, _, _, hrefresh, hannounce, rfl⟩
  rw [pageRank_compute_eq]
  exact ⟨e, _, perform_bind_ok_iff.mpr ⟨_, _, _, _, hreading, hrest, rfl⟩⟩

end Existence

end Performing

end BulkSync
