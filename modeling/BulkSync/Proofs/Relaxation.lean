import BulkSync.Components
import BulkSync.Proofs.HaltBits
import BulkSync.Proofs.Operations
import BulkSync.ShortestPaths

namespace BulkSync

/-- How the nodes of a computation improve a number of theirs: each starts with one, keeps the
least it hears of, and passes on what it keeps when that got less or has to be announced. -/
structure Relaxing (s : Scalar) where
  key : String
  first : Nat → s.Number
  lesser : s.Number → s.Number → s.Number
  below : s.Number → s.Number → Bool
  announces : Nat → s.Number → Bool
  passed : s.Number → s.Number

def Relaxing.computation {s : Scalar} (r : Relaxing s) : Computation s.Number Unit where
  fields := [⟨r.key, .single s⟩]
  aggregators := []
  init node _ := OwnProgram.writeNumber s r.key (r.first node)
  compute place messages := do
    let current ← NodeProgram.readNumber s r.key
    let best := messages.waiting.foldl r.lesser current
    if r.below best current then NodeProgram.writeNumber s r.key best
    if r.below best current || r.announces place.superstep current then
      NodeProgram.sendNeighbors (r.passed best)
    NodeProgram.vote
  master _ _ := .done (false, ())

/-- Labels are passed on as they are, and announced in superstep 0. -/
def labelling : Relaxing .long where
  key := "component"
  first := fun node => Int64.ofNat node
  lesser := lesserLabel
  below := fun (a b : Int64) => decide (a < b)
  announces := fun superstep _ => superstep == 0
  passed := id

/-- A distance grows by one along an edge, and the source announces its own. -/
def measuring (source : Nat) : Relaxing .double where
  key := "distance"
  first := fun node => if node = source then (0.0 : Float) else unreached
  lesser := lesser
  below := fun (a b : Float) => decide (a < b)
  announces := fun superstep (x : Float) => superstep == 0 && x == 0.0
  passed := fun (x : Float) => x + 1.0

namespace Relaxing

variable {s : Scalar} (r : Relaxing s)

/-- The least a node hears of, its own number included. -/
def best (heard : List s.Number) (current : s.Number) : s.Number :=
  heard.foldl r.lesser current

/-- Whether a node passes on what it keeps. -/
def tells (superstep : Nat) (heard : List s.Number) (current : s.Number) : Bool :=
  r.below (r.best heard current) current || r.announces superstep current

def improve (heard : List s.Number) (current : s.Number) : NodeProgram s.Number Unit :=
  if r.below (r.best heard current) current then
    NodeProgram.writeNumber s r.key (r.best heard current)
  else pure ()

def tell (superstep : Nat) (heard : List s.Number) (current : s.Number) :
    NodeProgram s.Number Unit :=
  if r.tells superstep heard current then
    NodeProgram.sendNeighbors (r.passed (r.best heard current))
  else pure ()

theorem compute_eq (place : Place) (heard : List s.Number) :
    r.computation.compute place ⟨heard⟩ = (do
      let current ← NodeProgram.readNumber s r.key
      r.improve heard current
      r.tell place.superstep heard current
      NodeProgram.vote) := by
  change (NodeProgram.readNumber s r.key >>= fun current => _) = _
  refine congrArg _ (funext fun current => ?_)
  dsimp only
  unfold improve tell tells best
  cases r.below (heard.foldl r.lesser current) current with
  | true => rfl
  | false => cases r.announces place.superstep current <;> rfl

/-- The calls of a node that has these neighbors. -/
def calls (superstep : Nat) (heard : List s.Number) (current : s.Number) (row : List Nat) :
    List (Call (nodeSignature s.Number)) :=
  ⟨.own (.read s r.key), s.ofNumber current⟩ ::
    ((if r.below (r.best heard current) current then
        [⟨.own (.write s r.key (s.ofNumber (r.best heard current))), ()⟩] else []) ++
      ((if r.tells superstep heard current then
          [⟨.sendNeighbors (r.passed (r.best heard current)), row⟩] else []) ++
        [⟨.vote, ()⟩]))

section Calls

variable (superstep : Nat) (heard : List s.Number) (current : s.Number) (row : List Nat)

theorem calls_vote : (r.calls superstep heard current row).any Call.isVote = true := by
  simp [calls, Call.isVote]

theorem calls_sentTo (node : Nat) :
    (r.calls superstep heard current row).flatMap (Call.sentTo node) =
      if r.tells superstep heard current then
        .replicate (row.count node) (r.passed (r.best heard current)) else [] := by
  unfold calls
  cases r.below (r.best heard current) current <;> cases r.tells superstep heard current <;>
    simp [Call.sentTo]

theorem calls_sends : ((r.calls superstep heard current row).map Call.sends).sum =
    if r.tells superstep heard current then row.length else 0 := by
  unfold calls
  cases r.below (r.best heard current) current <;> cases r.tells superstep heard current <;>
    simp [Call.sends]

theorem calls_raised : (r.calls superstep heard current row).flatMap Call.raised = [] := by
  unfold calls
  cases r.below (r.best heard current) current <;> cases r.tells superstep heard current <;>
    simp [Call.raised, Call.ownRaised]

end Calls

section Performing

variable {graph : Graph} {node superstep : Nat} {heard : List s.Number} {current : s.Number}
  {row : List Nat} {d e : Desk s.Number} {cs : List (Call (nodeSignature s.Number))} {u : Unit}

theorem improve_ok (hread : d.state.values.read s r.key node = .ok (s.ofNumber current))
    (hkeep : r.below (r.best heard current) current = false → r.best heard current = current)
    (h : (r.improve heard current).perform (nodeHandler graph node) d = ⟨e, cs, .ok u⟩) :
    e.state.values.read s r.key node = .ok (s.ofNumber (r.best heard current)) ∧
      cs = if r.below (r.best heard current) current then
        [⟨.own (.write s r.key (s.ofNumber (r.best heard current))), ()⟩] else [] := by
  unfold improve at h
  cases hb : r.below (r.best heard current) current with
  | true =>
    rw [hb, if_pos rfl] at h
    obtain ⟨values, hw, rfl, rfl⟩ := perform_write_ok_iff.mp h
    exact ⟨ValueStore.read_write hw, rfl⟩
  | false =>
    rw [hb, if_neg (by simp)] at h
    cases h
    exact ⟨by rw [hkeep hb]; exact hread, rfl⟩

variable (graph heard) in
theorem improve_exists (hread : d.state.values.read s r.key node = .ok (s.ofNumber current)) :
    ∃ values cs, (r.improve heard current).perform (nodeHandler graph node) d =
      ⟨⟨{ d.state with values }, d.tally⟩, cs, .ok ()⟩ := by
  unfold improve
  cases r.below (r.best heard current) current with
  | true =>
    obtain ⟨values, hw⟩ : ∃ values,
        d.state.values.write s r.key node (s.ofNumber (r.best heard current)) = .ok () values :=
      ⟨_, ValueStore.write_of_admits (ValueStore.admits_of_read hread) _⟩
    rw [if_pos rfl]
    exact ⟨values, _, perform_write_ok_iff.mpr ⟨values, hw, rfl, rfl⟩⟩
  | false =>
    rw [if_neg (by simp)]
    exact ⟨d.state.values, [], rfl⟩

theorem tell_ok (hrow : graph.neighbors node = .ok row)
    (h : (r.tell superstep heard current).perform (nodeHandler graph node) d = ⟨e, cs, .ok u⟩) :
    e.state.values = d.state.values ∧
      cs = if r.tells superstep heard current then
        [⟨.sendNeighbors (r.passed (r.best heard current)), row⟩] else [] := by
  unfold tell at h
  cases ht : r.tells superstep heard current with
  | true =>
    rw [ht, if_pos rfl] at h
    obtain ⟨⟨mail, -, -, rfl⟩, rfl⟩ := (perform_sendNeighbors_ok_iff hrow).mp h
    exact ⟨rfl, rfl⟩
  | false =>
    rw [ht, if_neg (by simp)] at h
    cases h
    exact ⟨rfl, rfl⟩

variable (superstep heard current) in
theorem tell_exists (hrow : graph.neighbors node = .ok row)
    (hsend : ∀ m, ∃ mail, d.state.mail.sendAll m row = .ok () mail)
    (hroom : d.tally.sent + row.length < countLimit) :
    ∃ mail tally cs, (r.tell superstep heard current).perform (nodeHandler graph node) d =
      ⟨⟨{ d.state with mail }, tally⟩, cs, .ok ()⟩ := by
  unfold tell
  cases r.tells superstep heard current with
  | true =>
    obtain ⟨mail, hmail⟩ := hsend (r.passed (r.best heard current))
    rw [if_pos rfl]
    exact ⟨mail, _, _,
      (perform_sendNeighbors_ok_iff hrow).mpr ⟨⟨mail, hmail, hroom, rfl⟩, rfl⟩⟩
  | false =>
    rw [if_neg (by simp)]
    exact ⟨d.state.mail, d.tally, [], rfl⟩

/-- A node that computes keeps the best, passes it on if it has to, and votes to halt. -/
theorem compute_ok (hread : d.state.values.read s r.key node = .ok (s.ofNumber current))
    (hrow : graph.neighbors node = .ok row)
    (hkeep : r.below (r.best heard current) current = false → r.best heard current = current)
    (h : (r.computation.compute ⟨node, superstep, graph.nodes⟩ ⟨heard⟩).perform
      (nodeHandler graph node) d = ⟨e, cs, .ok u⟩) :
    e.state.values.read s r.key node = .ok (s.ofNumber (r.best heard current)) ∧
      cs = r.calls superstep heard current row := by
  rw [compute_eq] at h
  obtain ⟨d₁, cs₁, x, _, hfirst, hrest, rfl⟩ := perform_bind_ok_iff.mp h
  obtain ⟨d₂, cs₂, _, _, himprove, hlater, rfl⟩ := perform_bind_ok_iff.mp hrest
  obtain ⟨d₃, cs₃, _, _, htell, hlast, rfl⟩ := perform_bind_ok_iff.mp hlater
  obtain ⟨rfl, rfl, rfl⟩ := (perform_readNumber_ok_iff_of_read hread).mp hfirst
  obtain ⟨hbest, rfl⟩ := r.improve_ok hread hkeep himprove
  obtain ⟨hvalues, rfl⟩ := r.tell_ok hrow htell
  obtain ⟨halted, -, rfl, rfl⟩ := perform_vote_ok_iff.mp hlast
  exact ⟨by rw [← hbest, ← hvalues], rfl⟩

variable (graph superstep heard) in
theorem compute_exists (hread : d.state.values.read s r.key node = .ok (s.ofNumber current))
    (hrow : graph.neighbors node = .ok row) (hsound : d.state.halted.Sound)
    (hnode : node < d.state.halted.nodes)
    (hsend : ∀ m, ∃ mail, d.state.mail.sendAll m row = .ok () mail)
    (hroom : d.tally.sent + row.length < countLimit) :
    ∃ e cs, (r.computation.compute ⟨node, superstep, graph.nodes⟩ ⟨heard⟩).perform
      (nodeHandler graph node) d = ⟨e, cs, .ok ()⟩ := by
  obtain ⟨values, cs₁, himprove⟩ := r.improve_exists graph heard hread
  obtain ⟨mail, tally, cs₂, htell⟩ := r.tell_exists superstep heard current
    (d := ⟨{ d.state with values }, d.tally⟩) hrow hsend hroom
  obtain ⟨halted, hhalt⟩ : ∃ halted, d.state.halted.halt node = .ok () halted :=
    ⟨_, HaltSet.update_exists _ hsound hnode⟩
  have hreading : (NodeProgram.readNumber s r.key).perform (nodeHandler graph node) d =
      ⟨d, [⟨.own (.read s r.key), s.ofNumber current⟩], .ok current⟩ :=
    (perform_readNumber_ok_iff_of_read hread).mpr ⟨rfl, rfl, rfl⟩
  have hvoting : NodeProgram.vote.perform (nodeHandler graph node)
      ⟨{ d.state with values, mail }, tally⟩ =
        ⟨⟨{ d.state with values, mail, halted }, tally⟩, [⟨.vote, ()⟩], .ok ()⟩ :=
    perform_vote_ok_iff.mpr ⟨halted, hhalt, rfl, rfl⟩
  rw [compute_eq]
  have hlast := (perform_bind_ok_iff (f := fun _ => NodeProgram.vote)).mpr
    ⟨_, _, _, _, htell, hvoting, rfl⟩
  have hlater := (perform_bind_ok_iff (f := fun _ => do
    r.tell superstep heard current
    NodeProgram.vote)).mpr ⟨_, _, _, _, himprove, hlast, rfl⟩
  exact ⟨_, _, perform_bind_ok_iff.mpr ⟨_, _, _, _, hreading, hlater, rfl⟩⟩

end Performing

end Relaxing

theorem components_eq : components = labelling.computation := by
  simp only [components, Relaxing.computation, labelling, decide_eq_true_eq]
  rfl

theorem shortestPaths_eq (source : Nat) :
    shortestPaths source = (measuring source).computation := by
  simp only [shortestPaths, Relaxing.computation, measuring, decide_eq_true_eq]
  rfl

end BulkSync
