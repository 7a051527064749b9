import BulkSync.Proofs.HaltBits
import Mathlib.Algebra.BigOperators.Group.List.Basic
import Mathlib.Algebra.GroupWithZero.Nat

namespace BulkSync

/-- What can be asked of a halt set. -/
inductive HaltOp where
  | halt (node : Nat)
  | wake (node : Nat)
  | ask (node : Nat)
  | wakeAll
deriving DecidableEq

/-- The node that a request names. -/
def HaltOp.node? : HaltOp → Option Nat
  | .halt node => some node
  | .wake node => some node
  | .ask node => some node
  | .wakeAll => none

/-- What a request makes the halt bit of a node, if it affects it. -/
def HaltOp.makes? (node : Nat) : HaltOp → Option Bool
  | .halt v => if v = node then some true else none
  | .wake v => if v = node then some false else none
  | .ask _ => none
  | .wakeAll => some false

/-- What the last request that affects the halt bit of a node makes it; at first it is not set. -/
def lastMade (node : Nat) (ops : List HaltOp) : Bool :=
  (ops.filterMap (HaltOp.makes? node)).getLast?.getD false

/-- Counting word by word is counting. -/
theorem countP_words (p : Nat → Bool) (words : Nat) :
    (List.range (64 * words)).countP p =
      ((List.range words).map fun k => (List.range 64).countP fun i => p (64 * k + i)).sum := by
  induction words with
  | zero => rfl
  | succ words ih =>
    rw [Nat.mul_succ, List.range_add, List.countP_append, ih, List.countP_map,
      List.range_succ (n := words), List.map_append, List.sum_append, List.map_singleton,
      List.sum_singleton]
    rfl

namespace HaltSet

/-- What a halt set answers to a request and what it is left as; the answer to a question is that
of `isHalted`. -/
def attempt (set : HaltSet) : HaltOp → Outcome HaltSet Unit
  | .halt node => set.halt node
  | .wake node => set.wake node
  | .ask node =>
    match set.isHalted node with
    | .ok _ => .ok () set
    | .error f => .error f set
  | .wakeAll => .ok () set.wakeAll

/-- What a halt set is left as by a request, whether that is granted or not. -/
def serve (set : HaltSet) (op : HaltOp) : HaltSet :=
  match set.attempt op with
  | .ok _ next => next
  | .error _ next => next

def after (set : HaltSet) (ops : List HaltOp) : HaltSet :=
  ops.foldl serve set

section Counting

variable {set : HaltSet}

theorem count_eq_sum (set : HaltSet) : set.count = (set.words.toList.map bitCount).sum := by
  have hfold : ∀ (words : List UInt64) (total : Nat),
      words.foldl (fun total word => total + bitCount word) total =
        total + (words.map bitCount).sum := by
    intro words
    induction words with
    | nil => exact fun _ => rfl
    | cons word rest ih =>
      intro total
      rw [List.foldl_cons, ih, List.map_cons, List.sum_cons, Nat.add_assoc]
  rw [count, ← Array.foldl_toList, hfold, Nat.zero_add]

theorem bitCount_getElem {k : Nat} (hk : k < set.words.size) :
    bitCount set.words[k] = (List.range 64).countP fun i => set.bit (64 * k + i) := by
  refine List.countP_congr fun i hi => ?_
  have hlt := List.mem_range.mp hi
  have hd : (64 * k + i) / 64 = k := by omega
  have hm : (64 * k + i) % 64 = i := by omega
  rw [bit_of_size (hd.symm ▸ hk)]
  simp only [hd, hm]
  rfl

/-- The bits that are set are those of nodes, so counting them word by word counts nodes. -/
theorem count_eq (hs : set.Sound) : set.count = (List.range set.nodes).countP set.bit := by
  have hwords : set.words.toList.map bitCount = (List.range set.words.size).map fun k =>
      (List.range 64).countP fun i => set.bit (64 * k + i) := by
    refine List.ext_getElem (by simp) fun k h₁ h₂ => ?_
    have hk : k < set.words.size := by simpa using h₁
    simpa using bitCount_getElem hk
  have hsize := hs.size
  have hsplit : 64 * set.words.size = set.nodes + (64 * set.words.size - set.nodes) := by omega
  have hbeyond : ((List.range (64 * set.words.size - set.nodes)).map (set.nodes + ·)).countP
      set.bit = 0 := by
    refine List.countP_eq_zero.mpr fun node hnode => ?_
    obtain ⟨i, _, rfl⟩ := List.mem_map.mp hnode
    rw [hs.clean _ (Nat.le_add_right _ _)]
    exact Bool.false_ne_true
  rw [count_eq_sum, hwords, ← countP_words, hsplit, List.range_add, List.countP_append, hbeyond,
    Nat.add_zero]

end Counting

section Requests

variable {set next : HaltSet} {op : HaltOp}

/-- A request that is granted makes every bit what it says, and leaves the others. -/
theorem attempt_ok (hs : set.Sound) (h : set.attempt op = .ok () next) :
    next.Sound ∧ next.nodes = set.nodes ∧
      ∀ node, next.bit node = (op.makes? node).getD (set.bit node) := by
  cases op with
  | halt v =>
    obtain ⟨hsound, hnodes⟩ := halt_sound hs h
    refine ⟨hsound, hnodes, fun node => ?_⟩
    rw [halt_bit h, HaltOp.makes?]
    by_cases he : v = node
    · simp [he]
    · simp [he, Ne.symm he]
  | wake v =>
    obtain ⟨hsound, hnodes⟩ := wake_sound hs h
    refine ⟨hsound, hnodes, fun node => ?_⟩
    rw [wake_bit h, HaltOp.makes?]
    by_cases he : v = node
    · simp [he]
    · simp [he, Ne.symm he]
  | ask v =>
    simp only [attempt] at h
    split at h
    next => cases h; exact ⟨hs, rfl, fun _ => rfl⟩
    next => cases h
  | wakeAll =>
    cases h
    have hbit : ∀ node, set.wakeAll.bit node = false := by
      intro node
      simp only [bit, wakeAll, Array.getElem?_map]
      cases set.words[node / 64]? with
      | none => rfl
      | some word => exact wordBit_zero _
    exact ⟨⟨by simpa [wakeAll] using hs.size, fun node _ => hbit node⟩, rfl, hbit⟩

theorem attempt_inside (hs : set.Sound) (h : ∀ node, op.node? = some node → node < set.nodes) :
    ∃ next, set.attempt op = .ok () next := by
  cases op with
  | halt v => exact ⟨_, update_exists _ hs (h v rfl)⟩
  | wake v => exact ⟨_, update_exists _ hs (h v rfl)⟩
  | ask v => exact ⟨set, by simp only [attempt, isHalted_eq_bit hs (h v rfl)]⟩
  | wakeAll => exact ⟨_, rfl⟩

theorem attempt_outside {node : Nat} (h : op.node? = some node) (hn : set.nodes ≤ node) :
    set.attempt op = .error (.nodeRange node set.nodes) set := by
  have hnot : ¬ node < set.nodes := Nat.not_lt.mpr hn
  cases op with
  | halt v => cases h; simp only [attempt, HaltSet.halt, update, if_neg hnot]
  | wake v => cases h; simp only [attempt, HaltSet.wake, update, if_neg hnot]
  | ask v => cases h; simp only [attempt, isHalted, if_neg hnot]
  | wakeAll => cases h

/-- A request leaves a sound set over the same nodes, and decides the bits of those. -/
theorem serve_sound (hs : set.Sound) (op : HaltOp) :
    (set.serve op).Sound ∧ (set.serve op).nodes = set.nodes ∧
      ∀ node < set.nodes, (set.serve op).bit node = (op.makes? node).getD (set.bit node) := by
  by_cases hin : ∀ node, op.node? = some node → node < set.nodes
  · obtain ⟨next, hnext⟩ := attempt_inside hs hin
    obtain ⟨hsound, hnodes, hbit⟩ := attempt_ok hs hnext
    simp only [serve, hnext]
    exact ⟨hsound, hnodes, fun node _ => hbit node⟩
  · obtain ⟨v, hv, hle⟩ : ∃ v, op.node? = some v ∧ set.nodes ≤ v := by
      by_contra hnone
      exact hin fun v hv => Nat.lt_of_not_le fun hle => hnone ⟨v, hv, hle⟩
    have hserve : set.serve op = set := by simp only [serve, attempt_outside hv hle]
    rw [hserve]
    refine ⟨hs, rfl, fun node hlt => ?_⟩
    have hne : v ≠ node := by omega
    cases op with
    | halt w => cases hv; simp [HaltOp.makes?, hne]
    | wake w => cases hv; simp [HaltOp.makes?, hne]
    | ask w => rfl
    | wakeAll => cases hv

theorem after_sound (hs : set.Sound) (ops : List HaltOp) :
    (set.after ops).Sound ∧ (set.after ops).nodes = set.nodes ∧ ∀ node < set.nodes,
      (set.after ops).bit node =
        (ops.filterMap (HaltOp.makes? node)).getLast?.getD (set.bit node) := by
  induction ops generalizing set with
  | nil => exact ⟨hs, rfl, fun _ _ => rfl⟩
  | cons op rest ih =>
    obtain ⟨hsound, hnodes, hbit⟩ := serve_sound hs op
    obtain ⟨hsound', hnodes', hbit'⟩ := ih hsound
    refine ⟨hsound', hnodes'.trans hnodes, fun node hlt => ?_⟩
    have hrest := hbit' node (hnodes.symm ▸ hlt)
    rw [hbit node hlt] at hrest
    refine hrest.trans ?_
    rw [List.filterMap_cons]
    cases op.makes? node with
    | none => rfl
    | some made => rw [List.getLast?_cons, Option.getD_some, Option.getD_some]

end Requests

/-- Without a request to wake all, what is made of a node depends on the requests that name it. -/
theorem makes_of_own {ops : List HaltOp} (h : .wakeAll ∉ ops) (node : Nat) :
    ops.filterMap (HaltOp.makes? node) =
      (ops.filter fun op => op.node? == some node).filterMap (HaltOp.makes? node) := by
  rw [List.filterMap_filter]
  refine List.filterMap_congr fun op hop => ?_
  cases op with
  | halt v => by_cases he : v = node <;> simp [HaltOp.makes?, HaltOp.node?, he]
  | wake v => by_cases he : v = node <;> simp [HaltOp.makes?, HaltOp.node?, he]
  | ask v => simp [HaltOp.makes?]
  | wakeAll => exact absurd hop h

end HaltSet

/-- A halt set is a set of nodes. After any requests, granted or not, a node is in it exactly if the
last request that affects it halted it; all are halted exactly if each of them is, and the count is
that of those that are. Requests for nodes are granted and all others are refused and change
nothing. Requests that name different nodes may change places, as long as all nodes are not woken
between them. -/
theorem halt_bits_exact {memory : Memory} {nodes : Nat} {set : HaltSet}
    (created : HaltSet.create memory nodes = .ok set) (ops : List HaltOp) :
    let now := set.after ops
    (∀ node < nodes, now.isHalted node = .ok (lastMade node ops)) ∧
    (∀ op, (∀ node, op.node? = some node → node < nodes) → ∃ next, now.attempt op = .ok () next) ∧
    (∀ op node, op.node? = some node → nodes ≤ node →
      now.attempt op = .error (.nodeRange node nodes) now) ∧
    (now.allHalted = true ↔ ∀ node < nodes, now.isHalted node = .ok true) ∧
    now.count = (List.range nodes).countP (fun node => now.isHalted node matches .ok true) ∧
    ∀ earlier moved moved' later, ops = earlier ++ moved ++ later →
      .wakeAll ∉ moved → .wakeAll ∉ moved' →
      (∀ node, moved'.filter (fun op => op.node? == some node) =
        moved.filter fun op => op.node? == some node) →
      set.after (earlier ++ moved' ++ later) = now := by
  intro now
  obtain ⟨hs, rfl, hfirst⟩ := HaltSet.create_ok created
  have hbits : ∀ ops node, node < set.nodes → (set.after ops).bit node = lastMade node ops := by
    intro ops node hlt
    rw [(HaltSet.after_sound hs ops).2.2 node hlt, hfirst node]
    rfl
  obtain ⟨hsound, hnodes, _⟩ := HaltSet.after_sound hs ops
  have hhalted : ∀ node < set.nodes, now.isHalted node = .ok (now.bit node) := fun node hlt =>
    HaltSet.isHalted_eq_bit hsound (hnodes.symm ▸ hlt)
  rw [← hnodes] at hhalted ⊢
  refine ⟨?_, ?_, ?_, ?_, ?_, ?_⟩
  · intro node hlt
    rw [hhalted node hlt, hbits ops node (hnodes ▸ hlt)]
  · exact fun op hop => HaltSet.attempt_inside hsound hop
  · exact fun op node hop hle => HaltSet.attempt_outside hop hle
  · rw [HaltSet.allHalted_iff hsound]
    refine forall₂_congr fun node hlt => ?_
    rw [hhalted node hlt, Except.ok.injEq]
  · rw [HaltSet.count_eq hsound]
    refine List.countP_congr fun node hnode => ?_
    rw [hhalted node (List.mem_range.mp hnode)]
    cases now.bit node <;> simp
  · rintro earlier moved moved' later rfl hstill hstill' hsame
    obtain ⟨hsound', hnodes', _⟩ := HaltSet.after_sound hs (earlier ++ moved' ++ later)
    refine HaltSet.ext_of_bits hsound' hsound (hnodes'.trans hnodes.symm) fun node hlt => ?_
    have hown : moved'.filterMap (HaltOp.makes? node) = moved.filterMap (HaltOp.makes? node) := by
      rw [HaltSet.makes_of_own hstill', hsame node, ← HaltSet.makes_of_own hstill]
    rw [hbits _ node (hnodes' ▸ hlt), hbits _ node (hnodes' ▸ hlt)]
    simp only [lastMade, List.filterMap_append, hown]

/-- Of sixty-five nodes the last one, which has a word of its own, is halted together with the first
one, then the first one is woken, in either order; a request for a node that does not exist changes
nothing. -/
theorem halt_bits_two_words : ∃ set : HaltSet, HaltSet.create .addressable 65 = .ok set ∧
    (set.after [.halt 65, .halt 0, .halt 64, .wake 0]).isHalted 64 = .ok true ∧
    (set.after [.halt 65, .halt 0, .halt 64, .wake 0]).isHalted 0 = .ok false ∧
    set.after [.halt 65, .halt 0, .wake 0, .halt 64] =
      set.after [.halt 65, .halt 0, .halt 64, .wake 0] := by
  have hcreate : HaltSet.create .addressable 65 = .ok ⟨65, #[0, 0]⟩ := rfl
  obtain ⟨hhalted, _, _, _, _, hmoved⟩ := halt_bits_exact hcreate
    [.halt 65, .halt 0, .halt 64, .wake 0]
  refine ⟨_, hcreate, hhalted 64 (by decide), hhalted 0 (by decide), ?_⟩
  refine hmoved [.halt 65, .halt 0] [.halt 64, .wake 0] [.wake 0, .halt 64] [] rfl (by decide)
    (by decide) fun node => ?_
  by_cases h0 : node = 0
  · subst h0; rfl
  · by_cases h64 : node = 64
    · subst h64; rfl
    · simp [HaltOp.node?, Ne.symm h0, Ne.symm h64]

end BulkSync
