import BulkSync.HaltSet

namespace BulkSync

def wordBit (word : UInt64) (i : Nat) : Bool :=
  word.toBitVec.getLsbD i

/-- Whether the bit of a node is set, wherever the node lies. -/
def HaltSet.bit (set : HaltSet) (node : Nat) : Bool :=
  match set.words[node / 64]? with
  | some word => wordBit word (node % 64)
  | none => false

/-- There is a word for every node, and no bit is set that belongs to no node. -/
structure HaltSet.Sound (set : HaltSet) : Prop where
  size : set.words.size = (set.nodes + 63) / 64
  clean : ∀ node, set.nodes ≤ node → set.bit node = false

theorem nodeBit_toBitVec (node : Nat) : (nodeBit node).toBitVec = BitVec.twoPow 64 (node % 64) := by
  rw [BitVec.twoPow_eq, nodeBit, UInt64.toBitVec_shiftLeft]
  apply BitVec.eq_of_toNat_eq
  simp

theorem wordBit_nodeBit (node i : Nat) : wordBit (nodeBit node) i = decide (node % 64 = i) := by
  have hlt : node % 64 < 64 := Nat.mod_lt _ (by omega)
  simp [wordBit, nodeBit_toBitVec, BitVec.getLsbD_twoPow, hlt]

theorem wordBit_or (a b : UInt64) (i : Nat) :
    wordBit (a ||| b) i = (wordBit a i || wordBit b i) := by
  simp [wordBit]

theorem wordBit_and_not (a b : UInt64) {i : Nat} (hi : i < 64) :
    wordBit (a &&& ~~~ b) i = (wordBit a i && !wordBit b i) := by
  simp [wordBit, hi]

theorem wordBit_zero (i : Nat) : wordBit 0 i = false := by
  simp [wordBit]

theorem wordBit_fullWord {count i : Nat} (hc : count ≤ 64) :
    wordBit (HaltSet.fullWord count) i = decide (i < count) := by
  have he : (HaltSet.fullWord count).toBitVec = BitVec.ofNat 64 (2 ^ count - 1) := rfl
  rw [wordBit, he, BitVec.getLsbD_ofNat, Nat.testBit_two_pow_sub_one]
  by_cases h : i < count
  · simp [h]; omega
  · simp [h]

theorem word_ext {a b : UInt64} (h : ∀ i < 64, wordBit a i = wordBit b i) : a = b := by
  rw [← UInt64.toBitVec_inj]
  apply BitVec.eq_of_getLsbD_eq
  exact h

theorem and_nodeBit_ne_zero (word : UInt64) (node : Nat) :
    (word &&& nodeBit node != 0) = wordBit word (node % 64) := by
  have hlt : node % 64 < 64 := Nat.mod_lt _ (by omega)
  have hz : (word &&& nodeBit node = 0) ↔ wordBit word (node % 64) = false := by
    rw [← UInt64.toBitVec_inj, UInt64.toBitVec_and, nodeBit_toBitVec, BitVec.and_twoPow, wordBit]
    split
    next h =>
      constructor
      · intro hh
        have hbit := congrArg (fun x => BitVec.getLsbD x (node % 64)) hh
        simp [hlt] at hbit
      · intro hh
        rw [h] at hh
        simp at hh
    next h => simp_all
  cases hb : wordBit word (node % 64) <;> simp_all

namespace HaltSet

theorem update_ok {set set' : HaltSet} {f : UInt64 → UInt64} {node : Nat}
    (h : set.update f node = .ok () set') :
    node < set.nodes ∧ node / 64 < set.words.size ∧
      set' = { set with words := set.words.modify (node / 64) f } := by
  unfold update at h
  split at h
  next hn =>
    split at h
    next hw => cases h; exact ⟨hn, hw, rfl⟩
    next => cases h
  next => cases h

theorem update_exists {set : HaltSet} {node : Nat} (f : UInt64 → UInt64) (hs : set.Sound)
    (hn : node < set.nodes) :
    set.update f node = .ok () { set with words := set.words.modify (node / 64) f } := by
  have hw : node / 64 < set.words.size := by rw [hs.size]; omega
  simp [update, hn, hw]

/-- Changing the word of a node changes the bits of that word and no others. -/
theorem bit_modify {set : HaltSet} {node : Nat} (f : UInt64 → UInt64)
    (hw : node / 64 < set.words.size) (other : Nat) :
    HaltSet.bit { set with words := set.words.modify (node / 64) f } other =
      if other / 64 = node / 64 then wordBit (f set.words[node / 64]) (other % 64)
      else set.bit other := by
  by_cases he : other / 64 = node / 64
  · simp [bit, he, Array.getElem?_modify, Array.getElem?_eq_getElem hw]
  · simp [bit, he, Array.getElem?_modify, Ne.symm he]

theorem bit_of_size {set : HaltSet} {node : Nat} (hw : node / 64 < set.words.size) :
    set.bit node = wordBit set.words[node / 64] (node % 64) := by
  simp [bit, Array.getElem?_eq_getElem hw]

theorem halt_bit {set set' : HaltSet} {node : Nat} (h : set.halt node = .ok () set')
    (other : Nat) : set'.bit other = (set.bit other || decide (other = node)) := by
  obtain ⟨_, hw, rfl⟩ := update_ok h
  rw [bit_modify _ hw]
  split
  next he =>
    rw [wordBit_or, wordBit_nodeBit, bit, he, Array.getElem?_eq_getElem hw]
    congr 1
    exact decide_eq_decide.mpr (by omega)
  next he => simp [show other ≠ node by intro hh; exact he (by rw [hh])]

theorem wake_bit {set set' : HaltSet} {node : Nat} (h : set.wake node = .ok () set')
    (other : Nat) : set'.bit other = (set.bit other && decide (other ≠ node)) := by
  obtain ⟨_, hw, rfl⟩ := update_ok h
  rw [bit_modify _ hw]
  split
  next he =>
    rw [wordBit_and_not _ _ (Nat.mod_lt _ (by omega)), wordBit_nodeBit, bit, he,
      Array.getElem?_eq_getElem hw]
    congr 1
    rw [← decide_not]
    exact decide_eq_decide.mpr (by omega)
  next he => simp [show other ≠ node by intro hh; exact he (by rw [hh])]

theorem halt_sound {set set' : HaltSet} {node : Nat} (hs : set.Sound)
    (h : set.halt node = .ok () set') : set'.Sound ∧ set'.nodes = set.nodes := by
  have hb := halt_bit h
  obtain ⟨hn, _, rfl⟩ := update_ok h
  refine ⟨⟨by simpa using hs.size, ?_⟩, rfl⟩
  intro other hle
  have hne : other ≠ node := by
    have : set.nodes ≤ other := hle
    omega
  rw [hb, hs.clean other hle]
  simp [hne]

theorem wake_sound {set set' : HaltSet} {node : Nat} (hs : set.Sound)
    (h : set.wake node = .ok () set') : set'.Sound ∧ set'.nodes = set.nodes := by
  have hb := wake_bit h
  obtain ⟨_, _, rfl⟩ := update_ok h
  refine ⟨⟨by simpa using hs.size, ?_⟩, rfl⟩
  intro other hle
  rw [hb, hs.clean other hle, Bool.false_and]

theorem isHalted_eq_bit {set : HaltSet} {node : Nat} (hs : set.Sound) (hn : node < set.nodes) :
    set.isHalted node = .ok (set.bit node) := by
  have hw : node / 64 < set.words.size := by rw [hs.size]; omega
  simp only [isHalted, hn, if_true, Array.getElem?_eq_getElem hw, and_nodeBit_ne_zero,
    bit_of_size hw]

theorem whole_words_full_iff {words : Array UInt64} {whole : Nat} (hw : whole ≤ words.size) :
    (words.extract 0 whole).all (· == fullWord 64) = true ↔
      ∀ k (hk : k < words.size), k < whole → words[k] = fullWord 64 := by
  rw [Array.all_eq_true]
  simp only [Array.size_extract, Array.getElem_extract, Nat.zero_add, beq_iff_eq]
  constructor
  · intro h k hk hlt
    exact h k (by omega)
  · intro h k hk
    exact h k (by omega) (by omega)

/-- A full word is full for all nodes it holds, and the part of the last word that is in use is
full for the rest. -/
theorem allHalted_iff {set : HaltSet} (hs : set.Sound) :
    set.allHalted = true ↔ ∀ node < set.nodes, set.bit node = true := by
  have hsize := hs.size
  simp only [allHalted, Bool.and_eq_true, Bool.or_eq_true, beq_iff_eq,
    whole_words_full_iff (show set.nodes / 64 ≤ set.words.size by omega)]
  constructor
  · rintro ⟨hwhole, hrest⟩ node hn
    have hw : node / 64 < set.words.size := by omega
    rw [bit_of_size hw]
    by_cases hlast : node / 64 < set.nodes / 64
    · rw [hwhole (node / 64) hw hlast, wordBit_fullWord (by omega)]
      exact decide_eq_true (Nat.mod_lt _ (by omega))
    · have he : node / 64 = set.nodes / 64 := by omega
      rcases hrest with hz | hr
      · omega
      · rw [← he, Array.getElem?_eq_getElem hw] at hr
        rw [Option.some.inj hr, wordBit_fullWord (by omega)]
        exact decide_eq_true (by omega)
  · intro hall
    refine ⟨?_, ?_⟩
    · intro k hk hlt
      apply word_ext
      intro i hi
      have hd : (64 * k + i) / 64 = k := by omega
      have hm : (64 * k + i) % 64 = i := by omega
      have hh := hall (64 * k + i) (by omega)
      rw [bit_of_size (by omega)] at hh
      simp only [hd, hm] at hh
      rw [hh, wordBit_fullWord (by omega), decide_eq_true hi]
    · by_cases hz : set.nodes % 64 = 0
      · exact Or.inl hz
      · right
        have hw : set.nodes / 64 < set.words.size := by omega
        rw [Array.getElem?_eq_getElem hw]
        congr 1
        apply word_ext
        intro i hi
        have hd : (64 * (set.nodes / 64) + i) / 64 = set.nodes / 64 := by omega
        have hm : (64 * (set.nodes / 64) + i) % 64 = i := by omega
        have hb : set.bit (64 * (set.nodes / 64) + i) = wordBit set.words[set.nodes / 64] i := by
          rw [bit_of_size (by omega)]
          simp only [hd, hm]
        rw [← hb, wordBit_fullWord (by omega)]
        by_cases hin : i < set.nodes % 64
        · rw [hall _ (by omega), decide_eq_true hin]
        · rw [hs.clean _ (by omega), decide_eq_false hin]

/-- Two sound sets over the same nodes are equal when they have the same bits. -/
theorem ext_of_bits {a b : HaltSet} (ha : a.Sound) (hb : b.Sound) (hn : a.nodes = b.nodes)
    (h : ∀ node < a.nodes, a.bit node = b.bit node) : a = b := by
  have hbits : ∀ node, a.bit node = b.bit node := by
    intro node
    by_cases hlt : node < a.nodes
    · exact h node hlt
    · rw [ha.clean node (by omega), hb.clean node (by omega)]
  have hsize : a.words.size = b.words.size := by rw [ha.size, hb.size, hn]
  obtain ⟨nodes, words⟩ := a
  obtain ⟨nodes', words'⟩ := b
  have hwords : words = words' := by
    apply Array.ext hsize
    intro k hk hk'
    apply word_ext
    intro i hi
    have hh := hbits (64 * k + i)
    have hd : (64 * k + i) / 64 = k := by omega
    have hm : (64 * k + i) % 64 = i := by omega
    simpa [bit, hd, hm, Array.getElem?_eq_getElem hk, Array.getElem?_eq_getElem hk'] using hh
  cases hn
  cases hwords
  rfl

theorem create_ok {memory : Memory} {nodes : Nat} {set : HaltSet}
    (h : HaltSet.create memory nodes = .ok set) :
    set.Sound ∧ set.nodes = nodes ∧ ∀ node, set.bit node = false := by
  unfold HaltSet.create Memory.reserve at h
  dsimp only at h
  split at h
  next =>
    cases h
    have hbit : ∀ node,
        HaltSet.bit ⟨nodes, Array.replicate ((nodes + 63) / 64) 0⟩ node = false := by
      intro node
      simp only [bit, Array.getElem?_replicate]
      split
      next word hword =>
        split at hword
        next => cases hword; exact wordBit_zero _
        next => cases hword
      next => rfl
    exact ⟨⟨by simp, fun node _ => hbit node⟩, rfl, hbit⟩
  next => cases h

end HaltSet

end BulkSync
