import BulkSync.Proofs.Halvings
import Mathlib.Algebra.Order.Floor.Div
import Mathlib.GroupTheory.GroupAction.Ring

namespace BulkSync

namespace Halving

def range : Halving → Partition
  | run range => range
  | fork range _ _ => range

/-- How deep the calls are that run their range, from left to right. -/
def depths : Halving → List Nat
  | run _ => [0]
  | fork _ left right => (left.depths ++ right.depths).map (· + 1)

/-- The ranges of all calls at a depth. -/
def level : Nat → Halving → List Partition
  | 0, calls => [calls.range]
  | _ + 1, run _ => []
  | depth + 1, fork _ left right => left.level depth ++ right.level depth

end Halving

/-- A length that a range may have when `nodes` nodes have been halved `depth` times. -/
def Halved (nodes depth length : Nat) : Prop :=
  nodes < (length + 1) * 2 ^ depth ∧ length * 2 ^ depth < nodes + 2 ^ depth

section Lengths

variable {nodes depth length : Nat}

theorem halved_zero (nodes : Nat) : Halved nodes 0 nodes := by
  simp [Halved]

/-- Halving once more stays within the bounds, however the half is rounded. -/
theorem Halved.half (h : Halved nodes depth length) {part : Nat} (hlower : length ≤ 2 * part + 1)
    (hupper : 2 * part ≤ length + 1) : Halved nodes (depth + 1) part := by
  obtain ⟨hlt, hgt⟩ := h
  constructor
  · calc nodes < (length + 1) * 2 ^ depth := hlt
      _ ≤ (part + 1) * 2 * 2 ^ depth := Nat.mul_le_mul_right _ (by omega)
      _ = (part + 1) * 2 ^ (depth + 1) := by rw [Nat.mul_assoc, Nat.pow_succ']
  · calc part * 2 ^ (depth + 1) = 2 * part * 2 ^ depth := by
          rw [Nat.pow_succ', Nat.mul_comm 2 part, Nat.mul_assoc]
      _ ≤ (length + 1) * 2 ^ depth := Nat.mul_le_mul_right _ hupper
      _ = length * 2 ^ depth + 2 ^ depth := Nat.succ_mul _ _
      _ < nodes + 2 ^ depth + 2 ^ depth := by omega
      _ = nodes + 2 ^ (depth + 1) := by rw [Nat.pow_succ]; omega

theorem Halved.length_eq (h : Halved nodes depth length) :
    length = nodes / 2 ^ depth ∨ length = nodes ⌈/⌉ 2 ^ depth := by
  obtain ⟨hlt, hgt⟩ := h
  have hpos : 0 < 2 ^ depth := Nat.two_pow_pos depth
  have hfloor : nodes / 2 ^ depth ≤ length :=
    Nat.lt_succ_iff.mp ((Nat.div_lt_iff_lt_mul hpos).mpr hlt)
  have hceil : length ≤ nodes ⌈/⌉ 2 ^ depth := by
    rw [Nat.ceilDiv_eq_add_pred_div, Nat.le_div_iff_mul_le hpos]
    omega
  have hnear : nodes ⌈/⌉ 2 ^ depth ≤ nodes / 2 ^ depth + 1 := by
    rw [ceilDiv_le_iff_le_mul hpos]
    exact Nat.le_of_lt (Nat.lt_mul_div_succ nodes hpos)
  omega

end Lengths

/-- How deep a call is that runs its range: deep enough for the range to be small, but only one
below a range that is not. -/
def RunDepth (limit nodes depth : Nat) : Prop :=
  nodes < (limit + 1) * 2 ^ depth ∧ (depth = 0 ∨ limit * 2 ^ depth < 2 * nodes)

/-- Two depths at which ranges are run differ by one at most: two below the least depth at which a
range may be small, it would come from one of half the limit. -/
theorem runDepth_adjacent (limit nodes : Nat) (hlimit : 1 ≤ limit) :
    ∃ least, ∀ depth, RunDepth limit nodes depth → depth = least ∨ depth = least + 1 := by
  have hsome : ∃ depth, nodes < (limit + 1) * 2 ^ depth :=
    ⟨nodes, Nat.lt_of_lt_of_le Nat.lt_two_pow_self (Nat.le_mul_of_pos_left _ (by omega))⟩
  refine ⟨Nat.find hsome, fun depth hdepth => ?_⟩
  have hleast : Nat.find hsome ≤ depth := Nat.find_min' hsome hdepth.1
  have hspec := Nat.find_spec hsome
  by_contra hfar
  have hpow : 2 ^ (Nat.find hsome + 2) ≤ 2 ^ depth := Nat.pow_le_pow_right (by omega) (by omega)
  have hlt : limit * 2 ^ depth < 2 * nodes := hdepth.2.resolve_left (by omega)
  have hmul := Nat.mul_le_mul_left limit hpow
  have hfour : limit * 2 ^ (Nat.find hsome + 2) = 4 * (limit * 2 ^ Nat.find hsome) := by
    rw [Nat.pow_add, Nat.mul_comm (2 ^ _), Nat.mul_left_comm]
  have hone := Nat.mul_le_mul_right (2 ^ Nat.find hsome) hlimit
  rw [Nat.succ_mul] at hspec
  omega

namespace Halves

variable {threshold nodes depth : Nat} {p : Partition} {calls : Halving}

theorem level_halved (h : Halves threshold p calls) (hp : Halved nodes depth p.length)
    (below : Nat) : ∀ q ∈ calls.level below, Halved nodes (depth + below) q.length := by
  induction h generalizing depth below with
  | run =>
    cases below with
    | zero => exact fun q hq => List.mem_singleton.mp hq ▸ hp
    | succ below => exact fun q hq => absurd hq List.not_mem_nil
  | fork _ _ _ ihl ihr =>
    cases below with
    | zero => exact fun q hq => List.mem_singleton.mp hq ▸ hp
    | succ below =>
      have hdepth : depth + (below + 1) = depth + 1 + below := by omega
      rw [hdepth]
      intro q hq
      rcases List.mem_append.mp hq with hq | hq
      · exact ihl (hp.half (by dsimp only; omega) (by dsimp only; omega)) below q hq
      · exact ihr (hp.half (by dsimp only; omega) (by dsimp only; omega)) below q hq

theorem runDepth (h : Halves threshold p calls) (hp : Halved nodes depth p.length)
    (hdeep : depth = 0 ∨ max threshold 1 * 2 ^ depth < 2 * nodes) :
    ∀ below ∈ calls.depths, RunDepth (max threshold 1) nodes (depth + below) := by
  induction h generalizing depth with
  | @run p small =>
    intro below hbelow
    obtain rfl := List.mem_singleton.mp hbelow
    have hle : (p.length + 1) * 2 ^ depth ≤ (max threshold 1 + 1) * 2 ^ depth :=
      Nat.mul_le_mul_right _ (by omega)
    exact ⟨Nat.lt_of_lt_of_le hp.1 hle, hdeep⟩
  | @fork p left right large _ _ ihl ihr =>
    have hle : (max threshold 1 + 1) * 2 ^ depth ≤ p.length * 2 ^ depth :=
      Nat.mul_le_mul_right _ large
    have hdeeper : max threshold 1 * 2 ^ (depth + 1) < 2 * nodes := by
      have hlt := Nat.lt_of_le_of_lt hle hp.2
      rw [Nat.succ_mul] at hlt
      rw [Nat.pow_succ, ← Nat.mul_assoc]
      omega
    intro below hbelow
    obtain ⟨b, hb, rfl⟩ := List.mem_map.mp hbelow
    have hdepth : depth + (b + 1) = depth + 1 + b := by omega
    rw [hdepth]
    rcases List.mem_append.mp hb with hb | hb
    · exact ihl (hp.half (by dsimp only; omega) (by dsimp only; omega)) (.inr hdeeper) b hb
    · exact ihr (hp.half (by dsimp only; omega) (by dsimp only; omega)) (.inr hdeeper) b hb

end Halves

/-- Halving the nodes down to a threshold comes to an end without an overflow, at a depth that
grows with the logarithm of their number. What is run has the nodes in order, in ranges none of
which is above the threshold and, if the nodes are, none below half of it. The ranges at one depth
have the same length but for rounding, and there are only two depths, one below the other, at which
ranges are run. -/
theorem halving_balanced {nodes threshold : Nat} (hn : 1 ≤ nodes) (small : nodes < countLimit)
    (ht : 1 ≤ threshold) :
    ∃ calls, Halves threshold (Partition.whole nodes) calls ∧
      (Partition.whole nodes).leaves threshold = .ok calls.runs ∧
      calls.runs.flatMap Partition.ids = List.range nodes ∧
      (∀ p ∈ calls.runs, p.length ≤ threshold) ∧
      (threshold < nodes → ∀ p ∈ calls.runs, (threshold + 1) / 2 ≤ p.length) ∧
      (∀ depth, ∀ p ∈ calls.level depth,
        p.length = nodes / 2 ^ depth ∨ p.length = nodes ⌈/⌉ 2 ^ depth) ∧
      (∀ depth ∈ calls.depths, 2 ^ depth < 2 * nodes) ∧
      ∃ least, ∀ depth ∈ calls.depths, depth = least ∨ depth = least + 1 := by
  have hmax : max threshold 1 = threshold := Nat.max_eq_left ht
  have hstop : (Partition.whole nodes).start + (Partition.whole nodes).length < countLimit := by
    rwa [Partition.whole, Nat.zero_add]
  obtain ⟨ps, hleaves⟩ := leaves_exist threshold _ hstop
  obtain ⟨calls, h, rfl⟩ := leaves_calls hleaves
  have hlevel := h.level_halved (halved_zero nodes)
  have hdepths := h.runDepth (halved_zero nodes) (.inl rfl)
  simp only [Nat.zero_add, hmax] at hlevel hdepths
  refine ⟨calls, h, hleaves, ?_, ?_, ?_, ?_, ?_, ?_⟩
  · exact h.ids.trans List.range_eq_range'.symm
  · exact fun p hp => hmax ▸ h.length_le p hp
  · exact fun hlarge => h.le_length (by omega) (by dsimp only [Partition.whole]; omega)
  · exact fun depth p hp => (hlevel depth p hp).length_eq
  · intro depth hdepth
    rcases (hdepths depth hdepth).2 with rfl | hlt
    · omega
    · have hle := Nat.mul_le_mul_right (2 ^ depth) ht
      omega
  · obtain ⟨least, hleast⟩ := runDepth_adjacent threshold nodes ht
    exact ⟨least, fun depth hdepth => hleast depth (hdepths depth hdepth)⟩

/-- Ten nodes in ranges of two at most. -/
theorem halving_balanced_ten : 1 ≤ 10 ∧ 10 < countLimit ∧ 1 ≤ 2 ∧
    ∃ calls, Halves 2 (Partition.whole 10) calls ∧
      calls.runs = [⟨0, 2⟩, ⟨2, 1⟩, ⟨3, 2⟩, ⟨5, 2⟩, ⟨7, 1⟩, ⟨8, 2⟩] ∧
      calls.runs.flatMap Partition.ids = List.range 10 ∧
      ∃ least, ∀ depth ∈ calls.depths, depth = least ∨ depth = least + 1 := by
  obtain ⟨calls, h, hleaves, hids, _, _, _, _, hleast⟩ :=
    @halving_balanced 10 2 (by decide) (by decide) (by decide)
  have hruns : (Partition.whole 10).leaves 2 =
      .ok [⟨0, 2⟩, ⟨2, 1⟩, ⟨3, 2⟩, ⟨5, 2⟩, ⟨7, 1⟩, ⟨8, 2⟩] := by
    simp [Partition.leaves, Partition.whole, addCounts, countLimit, bind, Except.bind, pure,
      Except.pure, UInt64.size]
  exact ⟨by decide, by decide, by decide, calls, h, Except.ok.inj (hleaves.symm.trans hruns), hids,
    hleast⟩

end BulkSync
