import BulkSync.Proofs.Divisions

namespace BulkSync

section Shares

variable {workers nodes count : Nat} {ps : List Partition}

/-- The partition at a place has the share of that place, and before it stand the shares of those
to its left. -/
theorem rangePartitions_at (hcount : count = min (max workers 1) nodes)
    (h : rangePartitions workers nodes = .ok ps) {i : Nat} (hi : i < count) :
    ps[i]? = some ⟨i * (nodes / count) + min i (nodes % count),
      nodes / count + if i < nodes % count then 1 else 0⟩ := by
  subst hcount
  have hlengths := rangePartitions_lengths h
  obtain ⟨p, hp⟩ : ∃ p, ps[i]? = some p :=
    ⟨_, List.getElem?_eq_getElem (rangePartitions_length h ▸ hi)⟩
  have hlength : p.length = nodes / min (max workers 1) nodes +
      if i < nodes % min (max workers 1) nodes then 1 else 0 := by
    have hat := congrArg (·[i]?) hlengths
    simp only [List.getElem?_map, hp, List.getElem?_range hi, Option.map_some] at hat
    exact Option.some.inj hat
  have hstart : p.start = i * (nodes / min (max workers 1) nodes) +
      min i (nodes % min (max workers 1) nodes) := by
    rw [(rangePartitions_tiles h).start_eq hp, hlengths, ← List.map_take, List.take_range,
      Nat.min_eq_left (Nat.le_of_lt hi), sum_first_shares, Nat.zero_add]
  rw [hp, ← hlength, ← hstart]

end Shares

/-- Nodes are divided evenly among as many workers as there are nodes for, one at least: the first
ones have one node more, as many as remain when each has the same, and where each partition starts
is known. Nothing overflows, and nothing is divided by zero, which would be a fault as well: the
number of parts is zero only where there are no nodes, and then there is nothing to divide. -/
theorem rangePartitions_even {workers nodes count : Nat}
    (hcount : count = min (max workers 1) nodes) (small : nodes < countLimit)
    (hroom : makeRoom count Partition.size = .ok ()) :
    ∃ ps, rangePartitions workers nodes = .ok ps ∧ ps.length = count ∧
      (count = 0 ↔ nodes = 0) ∧ (0 < nodes → 1 ≤ nodes / count) ∧
      (∀ i < count, ps[i]? = some ⟨i * (nodes / count) + min i (nodes % count),
        if i < nodes % count then nodes / count + 1 else nodes / count⟩) ∧
      (∀ p ∈ ps, ∀ q ∈ ps, p.length ≤ q.length + 1) ∧ ∀ p ∈ ps, 1 ≤ p.length := by
  obtain ⟨ps, h⟩ := rangePartitions_exists (hcount ▸ makeRoom_eq_ok_iff.mp hroom) small
  have hlength : ps.length = count := hcount ▸ rangePartitions_length h
  have hshare : ∀ p ∈ ps, p.length = nodes / count ∨ p.length = nodes / count + 1 := by
    intro p hp
    obtain ⟨i, hi⟩ := List.mem_iff_getElem?.mp hp
    obtain ⟨hlt, _⟩ := List.getElem?_eq_some_iff.mp hi
    have hat := (rangePartitions_at hcount h (hlength ▸ hlt)).symm.trans hi
    obtain rfl := Option.some.inj hat
    dsimp only
    split <;> omega
  refine ⟨ps, h, hlength, by omega, fun hn => ?_, fun i hi => ?_, fun p hp q hq => ?_,
    rangePartitions_filled h⟩
  · exact (Nat.one_le_div_iff (by omega)).mpr (by omega)
  · rw [rangePartitions_at hcount h hi]
    split <;> rfl
  · have hp' := hshare p hp
    have hq' := hshare q hq
    omega

/-- Ten nodes for four workers. -/
theorem rangePartitions_even_ten :
    makeRoom 4 Partition.size = .ok () ∧ ∃ ps, rangePartitions 4 10 = .ok ps ∧ ps.length = 4 ∧
      ps[0]? = some ⟨0, 3⟩ ∧ ps[1]? = some ⟨3, 3⟩ ∧ ps[2]? = some ⟨6, 2⟩ ∧
      ps[3]? = some ⟨8, 2⟩ := by
  obtain ⟨ps, h, hlength, _, _, hat, _⟩ :=
    @rangePartitions_even 4 10 4 rfl (by decide) rfl
  exact ⟨rfl, ps, h, hlength, hat 0 (by decide), hat 1 (by decide), hat 2 (by decide),
    hat 3 (by decide)⟩

end BulkSync
