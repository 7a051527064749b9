import BulkSync.Proofs.Served
import Mathlib

namespace BulkSync

section Numbers

@[simp]
theorem Double.toFloat_ofFloat (x : Float) : (ofFloat x).toFloat = x :=
  Float.ofBits_toBits x

theorem Double.ofFloat_inj {x y : Float} : ofFloat x = ofFloat y ↔ x = y :=
  (Function.LeftInverse.injective toFloat_ofFloat).eq_iff

/-- A cell gives back the number it was written for. -/
@[simp]
theorem Scalar.toNumber_ofNumber (s : Scalar) (x : s.Number) :
    s.toNumber (s.ofNumber x) = x := by
  cases s with
  | long => rfl
  | double => exact Double.toFloat_ofFloat x

end Numbers

section Answers

variable {M : Type} {graph : Graph} {node : Nat} {d e : Desk M} {s : Scalar} {key : String}
  {calls : List (Call (nodeSignature M))} {u : Unit}

theorem desk_sendAll_ok_iff {m : M} {targets : List Nat} :
    d.sendAll m targets = .ok () e ↔
      ∃ mail, d.state.mail.sendAll m targets = .ok () mail ∧
        d.tally.sent + targets.length < countLimit ∧
        e = ⟨{ d.state with mail }, { d.tally with sent := d.tally.sent + targets.length }⟩ := by
  constructor
  · intro h
    obtain ⟨mail, hmail, hcount, he⟩ := desk_sendAll_ok h
    obtain ⟨hsent, hroom⟩ := addCounts_eq_ok_iff.mp hcount
    exact ⟨mail, hmail, hroom, by rw [he, hsent]⟩
  · rintro ⟨mail, hmail, hroom, rfl⟩
    simp only [Desk.sendAll, hmail, Desk.countSent, addCounts_eq_ok_iff.mpr ⟨rfl, hroom⟩]

theorem perform_read_ok_iff {x : s.Cell} :
    (NodeProgram.read s key).perform (nodeHandler graph node) d = ⟨e, calls, .ok x⟩ ↔
      d.state.values.read s key node = .ok x ∧ e = d ∧ calls = [⟨.own (.read s key), x⟩] := by
  constructor
  · intro h
    obtain ⟨y, hop, rfl, rfl⟩ := perform_call_ok_iff.mp h
    simp only [nodeHandler, ownHandler] at hop
    cases hread : d.state.values.read s key node with
    | error f =>
      rw [hread] at hop
      cases hop
    | ok z =>
      rw [hread] at hop
      cases hop
      exact ⟨rfl, rfl, rfl⟩
  · rintro ⟨hread, rfl, rfl⟩
    refine perform_call_ok_iff.mpr ⟨x, ?_, rfl, rfl⟩
    simp only [nodeHandler, ownHandler, unchanged, hread]

theorem perform_readNumber_ok_iff {y : s.Number} :
    (NodeProgram.readNumber s key).perform (nodeHandler graph node) d = ⟨e, calls, .ok y⟩ ↔
      ∃ x, d.state.values.read s key node = .ok x ∧ s.toNumber x = y ∧ e = d ∧
        calls = [⟨.own (.read s key), x⟩] := by
  have hread : NodeProgram.readNumber (M := M) s key =
      NodeProgram.read s key >>= fun x => .done (s.toNumber x) := rfl
  rw [hread]
  constructor
  · intro h
    obtain ⟨_, _, x, _, hcell, hnumber, rfl⟩ := perform_bind_ok_iff.mp h
    obtain ⟨hx, rfl, rfl⟩ := perform_read_ok_iff.mp hcell
    cases hnumber
    exact ⟨x, hx, rfl, rfl, rfl⟩
  · rintro ⟨x, hx, rfl, rfl, rfl⟩
    exact perform_bind_ok_iff.mpr ⟨_, _, _, _, perform_read_ok_iff.mpr ⟨hx, rfl, rfl⟩, rfl, rfl⟩

/-- Where the cell was written for a number, that number is read. -/
theorem perform_readNumber_ok_iff_of_read {x y : s.Number}
    (hread : d.state.values.read s key node = .ok (s.ofNumber x)) :
    (NodeProgram.readNumber s key).perform (nodeHandler graph node) d = ⟨e, calls, .ok y⟩ ↔
      y = x ∧ e = d ∧ calls = [⟨.own (.read s key), s.ofNumber x⟩] := by
  rw [perform_readNumber_ok_iff, hread]
  constructor
  · rintro ⟨_, hcell, rfl, hlast⟩
    cases hcell
    exact ⟨s.toNumber_ofNumber x, hlast⟩
  · rintro ⟨rfl, hlast⟩
    exact ⟨_, rfl, s.toNumber_ofNumber y, hlast⟩

theorem perform_write_ok_iff {x : s.Cell} :
    (NodeProgram.write s key x).perform (nodeHandler graph node) d = ⟨e, calls, .ok u⟩ ↔
      ∃ values, d.state.values.write s key node x = .ok () values ∧
        e = ⟨{ d.state with values }, d.tally⟩ ∧ calls = [⟨.own (.write s key x), ()⟩] := by
  constructor
  · intro h
    obtain ⟨_, hop, rfl, -⟩ := perform_call_ok_iff.mp h
    simp only [nodeHandler, ownHandler] at hop
    cases hwrite : d.state.values.write s key node x with
    | error f values =>
      rw [hwrite] at hop
      cases hop
    | ok _ values =>
      rw [hwrite] at hop
      cases hop
      exact ⟨values, rfl, rfl, rfl⟩
  · rintro ⟨values, hwrite, rfl, rfl⟩
    refine perform_call_ok_iff.mpr ⟨(), ?_, rfl, rfl⟩
    simp only [nodeHandler, ownHandler, hwrite]

theorem perform_degree_ok_iff {n : Nat} :
    NodeProgram.degree.perform (nodeHandler graph node) d = ⟨e, calls, .ok n⟩ ↔
      graph.degree node = .ok n ∧ e = d ∧ calls = [⟨.own .degree, n⟩] := by
  constructor
  · intro h
    obtain ⟨m, hop, rfl, rfl⟩ := perform_call_ok_iff.mp h
    simp only [nodeHandler, ownHandler] at hop
    cases hdegree : graph.degree node with
    | error f =>
      rw [hdegree] at hop
      cases hop
    | ok k =>
      rw [hdegree] at hop
      cases hop
      exact ⟨rfl, rfl, rfl⟩
  · rintro ⟨hdegree, rfl, rfl⟩
    refine perform_call_ok_iff.mpr ⟨n, ?_, rfl, rfl⟩
    simp only [nodeHandler, ownHandler, unchanged, hdegree]

theorem perform_sendNeighbors_ok_iff {m : M} {row : List Nat}
    (hrow : graph.neighbors node = .ok row) :
    (NodeProgram.sendNeighbors m).perform (nodeHandler graph node) d = ⟨e, calls, .ok u⟩ ↔
      (∃ mail, d.state.mail.sendAll m row = .ok () mail ∧
        d.tally.sent + row.length < countLimit ∧
        e = ⟨{ d.state with mail }, { d.tally with sent := d.tally.sent + row.length }⟩) ∧
      calls = [⟨.sendNeighbors m, row⟩] := by
  rw [← desk_sendAll_ok_iff]
  constructor
  · intro h
    obtain ⟨_, hop, rfl, -⟩ := perform_call_ok_iff.mp h
    simp only [nodeHandler, hrow] at hop
    cases hsend : d.sendAll m row with
    | error f d' =>
      rw [hsend] at hop
      cases hop
    | ok _ d' =>
      rw [hsend] at hop
      cases hop
      exact ⟨rfl, rfl⟩
  · rintro ⟨hsend, rfl⟩
    refine perform_call_ok_iff.mpr ⟨row, ?_, rfl, rfl⟩
    simp only [nodeHandler, hrow, hsend]

theorem perform_vote_ok_iff :
    NodeProgram.vote.perform (nodeHandler graph node) d = ⟨e, calls, .ok u⟩ ↔
      ∃ halted, d.state.halted.halt node = .ok () halted ∧
        e = ⟨{ d.state with halted }, d.tally⟩ ∧ calls = [⟨.vote, ()⟩] := by
  constructor
  · intro h
    obtain ⟨_, hop, rfl, -⟩ := perform_call_ok_iff.mp h
    simp only [nodeHandler] at hop
    cases hhalt : d.state.halted.halt node with
    | error f halted =>
      rw [hhalt] at hop
      cases hop
    | ok _ halted =>
      rw [hhalt] at hop
      cases hop
      exact ⟨halted, rfl, rfl, rfl⟩
  · rintro ⟨halted, hhalt, rfl, rfl⟩
    refine perform_call_ok_iff.mpr ⟨(), ?_, rfl, rfl⟩
    simp only [nodeHandler, hhalt]

theorem perform_aggregate_ok_iff {x : Float} :
    (NodeProgram.aggregate key x).perform (nodeHandler graph node) d = ⟨e, calls, .ok u⟩ ↔
      ∃ partials,
        Totals.contribute key x d.state.aggregates.declared d.tally.partials = .ok partials ∧
        e = ⟨d.state, { d.tally with partials }⟩ ∧ calls = [⟨.aggregate key x, ()⟩] := by
  constructor
  · intro h
    obtain ⟨_, hop, rfl, -⟩ := perform_call_ok_iff.mp h
    simp only [nodeHandler] at hop
    cases hgive : Totals.contribute key x d.state.aggregates.declared d.tally.partials with
    | error f =>
      rw [hgive] at hop
      cases hop
    | ok partials =>
      rw [hgive] at hop
      cases hop
      exact ⟨partials, rfl, rfl, rfl⟩
  · rintro ⟨partials, hgive, rfl, rfl⟩
    refine perform_call_ok_iff.mpr ⟨(), ?_, rfl, rfl⟩
    simp only [nodeHandler, hgive]

end Answers

end BulkSync
