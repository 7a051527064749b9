import BulkSync.Partition

namespace BulkSync

/-- The calls by which a range is halved: one that is small enough is run, any other is forked. -/
inductive Halving where
  | run (range : Partition)
  | fork (range : Partition) (left right : Halving)

/-- The ranges that are run, from left to right. -/
def Halving.runs : Halving → List Partition
  | run range => [range]
  | fork _ left right => left.runs ++ right.runs

/-- The calls that a range makes: above the threshold it is halved, and its halves are called. -/
inductive Halves (threshold : Nat) : Partition → Halving → Prop
  | run {p : Partition} (small : p.length ≤ max threshold 1) : Halves threshold p (.run p)
  | fork {p : Partition} {left right : Halving} (large : max threshold 1 < p.length)
      (hl : Halves threshold ⟨p.start, p.length / 2⟩ left)
      (hr : Halves threshold ⟨p.start + p.length / 2, p.length - p.length / 2⟩ right) :
      Halves threshold p (.fork p left right)

section Leaves

variable {threshold : Nat} {p : Partition} {ps : List Partition}

theorem leaves_small (hsmall : p.length ≤ max threshold 1) : p.leaves threshold = .ok [p] := by
  rw [Partition.leaves, dif_pos hsmall]

theorem leaves_halves (hlarge : ¬ p.length ≤ max threshold 1) (h : p.leaves threshold = .ok ps) :
    ∃ left right, Partition.leaves threshold ⟨p.start, p.length / 2⟩ = .ok left ∧
      Partition.leaves threshold ⟨p.start + p.length / 2, p.length - p.length / 2⟩ = .ok right ∧
      ps = left ++ right := by
  rw [Partition.leaves, dif_neg hlarge] at h
  simp only [bind_eq_ok_iff] at h
  obtain ⟨middle, hmiddle, left, hleft, right, hright, hps⟩ := h
  obtain ⟨rfl, _⟩ := addCounts_eq_ok_iff.mp hmiddle
  exact ⟨left, right, hleft, hright, (Except.ok.inj hps).symm⟩

theorem leaves_calls (h : p.leaves threshold = .ok ps) :
    ∃ calls, Halves threshold p calls ∧ ps = calls.runs := by
  induction hn : p.length using Nat.strongRecOn generalizing p ps with | _ n ih =>
  subst hn
  by_cases hsmall : p.length ≤ max threshold 1
  · cases h.symm.trans (leaves_small hsmall)
    exact ⟨.run p, .run hsmall, rfl⟩
  · obtain ⟨left, right, hleft, hright, rfl⟩ := leaves_halves hsmall h
    obtain ⟨leftCalls, hl, rfl⟩ := ih (p.length / 2) (by omega) hleft rfl
    obtain ⟨rightCalls, hr, rfl⟩ := ih (p.length - p.length / 2) (by omega) hright rfl
    exact ⟨.fork p leftCalls rightCalls, .fork (Nat.lt_of_not_le hsmall) hl hr, rfl⟩

theorem leaves_exist (threshold : Nat) (p : Partition) (h : p.start + p.length < countLimit) :
    ∃ ps, p.leaves threshold = .ok ps := by
  induction hn : p.length using Nat.strongRecOn generalizing p with | _ n ih =>
  subst hn
  by_cases hsmall : p.length ≤ max threshold 1
  · exact ⟨[p], leaves_small hsmall⟩
  · have hmiddle : addCounts p.start (p.length / 2) = .ok (p.start + p.length / 2) :=
      addCounts_eq_ok_iff.mpr ⟨rfl, by omega⟩
    obtain ⟨left, hleft⟩ := ih (p.length / 2) (by omega) ⟨p.start, p.length / 2⟩
      (by dsimp only; omega) rfl
    obtain ⟨right, hright⟩ := ih (p.length - p.length / 2) (by omega)
      ⟨p.start + p.length / 2, p.length - p.length / 2⟩ (by dsimp only; omega) rfl
    refine ⟨left ++ right, ?_⟩
    rw [Partition.leaves, dif_neg hsmall]
    simp only [bind, Except.bind, hmiddle, hleft, hright]
    rfl

end Leaves

namespace Halves

variable {threshold : Nat} {p : Partition} {calls : Halving}

theorem ids (h : Halves threshold p calls) : calls.runs.flatMap Partition.ids = p.ids := by
  induction h with
  | run => exact List.append_nil _
  | @fork p left right _ _ _ ihl ihr =>
    have hlength : p.length = p.length / 2 + (p.length - p.length / 2) := by omega
    rw [Halving.runs, List.flatMap_append, ihl, ihr]
    simp only [Partition.ids]
    rw [List.range'_append_1, ← hlength]

theorem length_le (h : Halves threshold p calls) :
    ∀ q ∈ calls.runs, q.length ≤ max threshold 1 := by
  induction h with
  | run small => exact fun q hq => List.mem_singleton.mp hq ▸ small
  | fork _ _ _ ihl ihr =>
    intro q hq
    rcases List.mem_append.mp hq with hq | hq
    · exact ihl q hq
    · exact ihr q hq

/-- Only a range above the threshold is halved, so half of what is just above it is kept. -/
theorem le_length (h : Halves threshold p calls) {least : Nat}
    (hleast : least ≤ (max threshold 1 + 1) / 2) (hp : least ≤ p.length) :
    ∀ q ∈ calls.runs, least ≤ q.length := by
  induction h with
  | run => exact fun q hq => List.mem_singleton.mp hq ▸ hp
  | fork large _ _ ihl ihr =>
    intro q hq
    rcases List.mem_append.mp hq with hq | hq
    · exact ihl (by dsimp only; omega) q hq
    · exact ihr (by dsimp only; omega) q hq

end Halves

end BulkSync
