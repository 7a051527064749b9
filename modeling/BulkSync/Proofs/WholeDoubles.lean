import BulkSync.ShortestPaths
import Mathlib

namespace BulkSync

open Float.Model Float.Model.UnpackedFloat

/-- Numbers below this one are doubles, each with its own mantissa and exponent. -/
def wholeLimit : Nat := 2 ^ 53

/-- The mantissa of a whole number, its first bit the implicit one. -/
def wholeMantissa (n : Nat) : Nat :=
  n * 2 ^ (52 - n.log2)

theorem wholeMantissa_pos {n : Nat} (h : 0 < n) : 0 < wholeMantissa n :=
  Nat.mul_pos h (Nat.two_pow_pos _)

/-- A whole number taken apart as a double. -/
def whole (n : Nat) : UnpackedFloat :=
  if h : 0 < n then .finite .positive (wholeMantissa n) (n.log2 - 52) (wholeMantissa_pos h)
  else .zero .positive

section Rounding

/-- Shifting out zeros loses nothing. -/
theorem shiftRight_exact (m k : Nat) :
    ExtendedMantissa.ofMantissaAndAccuracy (m * 2 ^ k) .exact >>> k =
      ExtendedMantissa.ofMantissaAndAccuracy m .exact := by
  change Nat.repeat ExtendedMantissa.shiftRightOne k _ = _
  induction k generalizing m with
  | zero => simp [Nat.repeat]
  | succ k ih =>
    rw [Nat.pow_succ, Nat.mul_comm (2 ^ k) 2, ← Nat.mul_assoc, Nat.repeat, ih (m * 2)]
    simp [ExtendedMantissa.shiftRightOne, ExtendedMantissa.ofMantissaAndAccuracy]

theorem log2_mul_pow {n : Nat} (h : 0 < n) (k : Nat) : (n * 2 ^ k).log2 = n.log2 + k := by
  induction k with
  | zero => simp
  | succ k ih =>
    have hne : n * 2 ^ k ≠ 0 := Nat.ne_of_gt (Nat.mul_pos h (Nat.two_pow_pos k))
    rw [Nat.pow_succ, ← Nat.mul_assoc, Nat.mul_comm _ 2, Nat.log2_two_mul hne, ih]
    rfl

theorem log2_lt_of_whole {n : Nat} (hn : n < wholeLimit) : n.log2 < 53 := by
  rcases Nat.eq_zero_or_pos n with rfl | h
  · decide
  · exact (Nat.log2_lt (Nat.ne_of_gt h)).mpr hn

theorem log2_wholeMantissa {n : Nat} (h : 0 < n) (hn : n < wholeLimit) :
    (wholeMantissa n).log2 = 52 := by
  have hlog := log2_lt_of_whole hn
  rw [wholeMantissa, log2_mul_pow h]
  omega

/-- The exponent at which a number with a mantissa of 53 bits is kept is its own. -/
theorem shiftToTarget_whole {m : Nat} (hm : m.log2 = 52) (hpos : 0 < m) {e : Int}
    (he : -1074 ≤ e) (k : Nat) :
    shiftToTargetExponent .binary64 (m * 2 ^ k) (e - k) .exact =
      (ExtendedMantissa.ofMantissaAndAccuracy m .exact, e) := by
  have htarget : Format.binary64.targetExponent (totalExponent (m * 2 ^ k) (e - k)) = e := by
    simp only [Format.targetExponent, totalExponent, log2_mul_pow hpos, hm, Format.mantissaBits,
      Format.minExponent]
    push_cast
    omega
  have hshift : (e - (e - k)).toNat = k := by omega
  simp only [shiftToTargetExponent, htarget, shiftToExponent, hshift, shiftRight_exact]
  simp

/-- A number with a mantissa of 53 bits is not rounded, wherever its exponent was taken. -/
theorem roundWithAccuracy_whole {m : Nat} (hm : m.log2 = 52) (hpos : 0 < m) {e : Int}
    (he : -1074 ≤ e) (k : Nat) :
    roundWithAccuracy .binary64 .positive (m * 2 ^ k) (e - k) .exact =
      .finite .positive m e hpos := by
  have hagain : shiftToTargetExponent .binary64 m e .exact =
      (ExtendedMantissa.ofMantissaAndAccuracy m .exact, e) := by
    simpa using shiftToTarget_whole hm hpos he 0
  have hrounded : (ExtendedMantissa.ofMantissaAndAccuracy m .exact).roundedMantissa = m := rfl
  simp only [roundWithAccuracy, shiftToTarget_whole hm hpos he k, hrounded, hagain]
  exact dif_neg (Nat.ne_of_gt hpos)

/-- A number with zeros after it is brought to its mantissa, with the zeros that are too many. -/
theorem decreaseExponent_whole {n : Nat} (hn : n < wholeLimit) (k : Nat) :
    decreaseExponent (n * 2 ^ k) (-k) ((n.log2 : Int) - 52) =
      (wholeMantissa n * 2 ^ (k - (52 - n.log2)),
        (n.log2 : Int) - 52 - (k - (52 - n.log2) : Nat)) := by
  have hlog := log2_lt_of_whole hn
  have hzeros : k + (-(k : Int) - (n.log2 - 52)).toNat =
      52 - n.log2 + (k - (52 - n.log2)) := by omega
  simp only [decreaseExponent, Nat.shiftLeft_eq, wholeMantissa]
  rw [Nat.mul_assoc, Nat.mul_assoc, ← Nat.pow_add, ← Nat.pow_add, hzeros]
  refine Prod.ext rfl ?_
  change -(k : Int) - ((-(k : Int) - (n.log2 - 52)).toNat : Int) = _
  omega

/-- A whole number is not rounded, however many zeros follow it. -/
theorem round_whole {n : Nat} (h : 0 < n) (hn : n < wholeLimit) (k : Nat) :
    UnpackedFloat.round .binary64 .positive (n * 2 ^ k) (-k) = whole n := by
  have hlog := log2_lt_of_whole hn
  have htarget : Format.binary64.targetExponent (totalExponent (n * 2 ^ k) (-k)) =
      (n.log2 : Int) - 52 := by
    simp only [Format.targetExponent, totalExponent, log2_mul_pow h, Format.mantissaBits,
      Format.minExponent]
    push_cast
    omega
  simp only [UnpackedFloat.round, htarget, decreaseExponent_whole hn]
  rw [roundWithAccuracy_whole (log2_wholeMantissa h hn) (wholeMantissa_pos h) (by omega), whole,
    dif_pos h]

end Rounding

section Packing

theorem unpackSign_packComponents (spec : Format) (s : Sign) (e : BitVec spec.exponentBits)
    (m : BitVec spec.mantissaBitsWithoutImplicit) :
    unpackSign (packComponents spec s e m) = s.toBitVec := by
  apply BitVec.eq_of_getLsbD_eq
  intro i hi
  obtain rfl : i = 0 := by omega
  simp [unpackSign, packComponents, BitVec.getLsbD_append, BitVec.getElem_append]

/-- The bits of a whole number tell its mantissa, whose first bit they leave out. -/
theorem mantissa_of_bits {m : Nat} (hm : m.log2 = 52) (hpos : 0 < m) :
    (1#1 ++ BitVec.ofNat 52 m).toNat = m := by
  obtain ⟨hge, hlt⟩ := (Nat.log2_eq_iff (Nat.ne_of_gt hpos)).mp hm
  rw [BitVec.toNat_append, ← Nat.shiftLeft_add_eq_or_of_lt (BitVec.isLt _), BitVec.toNat_ofNat]
  simp only [BitVec.toNat_ofNat, Nat.shiftLeft_eq]
  omega

/-- A whole number that was packed is unpacked as it was. -/
theorem unpack_pack_whole {n : Nat} (hn : n < wholeLimit) :
    UnpackedFloat.unpack .binary64 (UnpackedFloat.pack .binary64 (whole n)) = whole n := by
  rcases Nat.eq_zero_or_pos n with rfl | h
  · rfl
  · have hlog := log2_lt_of_whole hn
    have hmantissa := log2_wholeMantissa h hn
    have hpos := wholeMantissa_pos h
    have hbiased : ((n.log2 : Int) - 52 + (Format.binary64.exponentBias : Int) +
        (Format.binary64.mantissaBitsWithoutImplicit : Int)).toNat = n.log2 + 1023 := by
      simp only [Format.exponentBias]
      omega
    have hpack : UnpackedFloat.pack .binary64 (whole n) = packComponents .binary64 .positive
        (BitVec.ofNat 11 (n.log2 + 1023)) (BitVec.ofNat 52 (wholeMantissa n)) := by
      rw [whole, dif_pos h]
      simp only [UnpackedFloat.pack, hbiased, hmantissa]
      rw [if_neg (by omega), if_pos (show 52 + 1 = Format.binary64.mantissaBits from rfl)]
    have hexponent : (BitVec.ofNat 11 (n.log2 + 1023)).toNat = n.log2 + 1023 := by
      rw [BitVec.toNat_ofNat]
      omega
    have hlast : BitVec.ofNat 11 (n.log2 + 1023) ≠ -1#11 := by
      intro he
      have htoNat := congrArg BitVec.toNat he
      rw [hexponent] at htoNat
      simp at htoNat
      omega
    have hfirst : BitVec.ofNat 11 (n.log2 + 1023) ≠ 0#11 := by
      intro he
      have htoNat := congrArg BitVec.toNat he
      rw [hexponent] at htoNat
      simp at htoNat
    have hkept : ((n.log2 + 1023 : Nat) : Int) - ((Format.binary64.exponentBias : Int) +
        (Format.binary64.mantissaBitsWithoutImplicit : Int)) = (n.log2 : Int) - 52 := by
      simp only [Format.exponentBias]
      omega
    rw [hpack]
    simp only [UnpackedFloat.unpack, unpackMantissa_packComponents, unpackExponent_packComponents,
      unpackSign_packComponents, hlast, hfirst, if_false, hexponent,
      mantissa_of_bits hmantissa hpos, hkept]
    rw [whole, dif_pos h]
    rfl

end Packing

section Arithmetic

theorem normalize_whole {n : Nat} (hn : n < wholeLimit) (k : Nat) :
    UnpackedFloat.normalize .binary64 (n * 2 ^ k : Nat) (-k) .positive = whole n := by
  rcases Nat.eq_zero_or_pos n with rfl | h
  · simp [UnpackedFloat.normalize, whole]
  · have hpos : 0 < n * 2 ^ k := Nat.mul_pos h (Nat.two_pow_pos k)
    have hcompare : compare ((n * 2 ^ k : Nat) : Int) 0 = .gt := by
      rw [Int.compare_eq_gt]
      omega
    simp only [UnpackedFloat.normalize, hcompare, Int.toNat_natCast]
    exact round_whole h hn k

/-- A whole number that is multiplied by one stays what it is. -/
theorem mul_whole_one {n : Nat} (hn : n < wholeLimit) :
    UnpackedFloat.mul .binary64 (whole n) (whole 1) = whole n := by
  rcases Nat.eq_zero_or_pos n with rfl | h
  · rfl
  · have hmantissa := log2_wholeMantissa h hn
    have hround := roundWithAccuracy_whole hmantissa (wholeMantissa_pos h)
      (show -1074 ≤ (n.log2 : Int) - 52 by omega) 52
    rw [whole, dif_pos h]
    exact hround

/-- One more than a whole number is the next one. -/
theorem add_whole_one {n : Nat} (hn : n + 1 < wholeLimit) :
    UnpackedFloat.add .binary64 (whole n) (whole 1) = whole (n + 1) := by
  rcases Nat.eq_zero_or_pos n with rfl | h
  · rfl
  · have hlog := log2_lt_of_whole (show n < wholeLimit by omega)
    have hone : whole 1 = .finite .positive (2 ^ 52) (-52) (by decide) := rfl
    have hmin : min ((n.log2 : Int) - 52) (-52) = -52 := by omega
    have hmantissa : wholeMantissa n * 2 ^ ((n.log2 : Int) - 52 - -52).toNat = n * 2 ^ 52 := by
      rw [wholeMantissa, Nat.mul_assoc, ← Nat.pow_add]
      congr 2
      omega
    rw [hone, whole, dif_pos h]
    simp only [UnpackedFloat.add, hmin, decreaseExponent, Nat.shiftLeft_eq, hmantissa, Sign.apply]
    have hsum : ((n * 2 ^ 52 : Nat) : Int) +
        ((2 ^ 52 * 2 ^ (-52 - (-52 : Int)).toNat : Nat) : Int) =
          (((n + 1) * 2 ^ 52 : Nat) : Int) := by
      rw [show (-52 - (-52 : Int)).toNat = 0 from rfl]
      omega
    rw [hsum]
    exact normalize_whole hn 52

theorem lt_of_log2_lt {m n : Nat} (hm : 0 < m) (hn : 0 < n) (h : m.log2 < n.log2) : m < n :=
  Nat.lt_of_lt_of_le ((Nat.log2_lt (Nat.ne_of_gt hm)).mp h) (Nat.log2_self_le (Nat.ne_of_gt hn))

theorem compare_mul_pow (m n k : Nat) : compare (m * 2 ^ k) (n * 2 ^ k) = compare m n := by
  have hpow : 0 < 2 ^ k := Nat.two_pow_pos k
  rcases Nat.lt_trichotomy m n with hlt | rfl | hgt
  · rw [Nat.compare_eq_lt.mpr hlt, Nat.compare_eq_lt]
    exact Nat.mul_lt_mul_of_pos_right hlt hpow
  · rw [Nat.compare_eq_eq.mpr rfl, Nat.compare_eq_eq.mpr rfl]
  · rw [Nat.compare_eq_gt.mpr hgt, Nat.compare_eq_gt]
    exact Nat.mul_lt_mul_of_pos_right hgt hpow

/-- Whole numbers taken apart compare as they are: the longer one is greater, and of equally long
ones the one with the greater mantissa. -/
theorem compare_whole (m n : Nat) : (whole m).compare (whole n) = some (compare m n) := by
  rcases Nat.eq_zero_or_pos m with rfl | hm <;> rcases Nat.eq_zero_or_pos n with rfl | hn
  · rfl
  · rw [Nat.compare_eq_lt.mpr hn, whole, dif_neg (by omega), whole, dif_pos hn]
    rfl
  · rw [Nat.compare_eq_gt.mpr hm, whole, dif_pos hm, whole, dif_neg (by omega)]
    rfl
  · rw [whole, dif_pos hm, whole, dif_pos hn]
    simp only [UnpackedFloat.compare]
    rcases Nat.lt_trichotomy m.log2 n.log2 with hlt | heq | hgt
    · rw [Int.compare_eq_lt.mpr (by omega), Nat.compare_eq_lt.mpr (lt_of_log2_lt hm hn hlt)]
      rfl
    · rw [heq, Int.compare_eq_eq.mpr rfl, wholeMantissa, wholeMantissa, heq]
      exact congrArg some (compare_mul_pow m n (52 - n.log2))
    · rw [Int.compare_eq_gt.mpr (by omega), Nat.compare_eq_gt.mpr (lt_of_log2_lt hn hm hgt)]
      rfl

end Arithmetic

section Doubles

variable {m n : Nat}

theorem ofNat_eq_pack (hn : n < wholeLimit) : Float.ofNat n = ⟨Float.Model.pack (whole n)⟩ := by
  have hsmall : n < 2 ^ 53 ∧ 0 ≤ 22 := ⟨hn, Nat.zero_le 22⟩
  have htoNat : n.toUInt64.toNat = n :=
    Nat.mod_eq_of_lt (Nat.lt_trans hn (by decide : wholeLimit < 2 ^ 64))
  have hdouble : n.toUInt64.toFloat = ⟨Float.Model.pack (whole n)⟩ := by
    have hnormal := normalize_whole hn 0
    rw [Nat.pow_zero, Nat.mul_one] at hnormal
    refine congrArg (fun x => Float.ofModel (Float.Model.pack x)) ?_
    unfold UnpackedFloat.ofUInt64 UnpackedFloat.ofNat UnpackedFloat.ofInt
    rw [htoNat]
    exact hnormal
  change Float.ofScientific n false 0 = _
  unfold Float.ofScientific
  rw [dif_pos hsmall, if_neg (by decide), hdouble]
  refine congrArg (fun x => Float.ofModel (Float.Model.pack x)) ?_
  have hpower : (Float.exactlyRepresentablePowersOfTen[0]).toModel.unpack = whole 1 := by rfl
  rw [hpower]
  change UnpackedFloat.mul .binary64 (UnpackedFloat.unpack .binary64
    (UnpackedFloat.pack .binary64 (whole n))) (whole 1) = whole n
  rw [unpack_pack_whole hn]
  exact mul_whole_one hn

theorem unpack_ofNat (hn : n < wholeLimit) : (Float.ofNat n).toModel.unpack = whole n := by
  rw [ofNat_eq_pack hn]
  exact unpack_pack_whole hn

/-- One more than a whole double is the next one. -/
theorem ofNat_add_one (hn : n + 1 < wholeLimit) : Float.ofNat n + 1.0 = Float.ofNat (n + 1) := by
  have hone : (1.0 : Float).toModel.unpack = whole 1 := by rfl
  rw [ofNat_eq_pack hn]
  refine congrArg (fun x => Float.ofModel (Float.Model.pack x)) ?_
  rw [unpack_ofNat (by omega), hone]
  exact add_whole_one hn

theorem lt_iff_compare {x y : Float} :
    x < y ↔ x.toModel.unpack.compare y.toModel.unpack = some .lt := by
  change decide (x.toModel < y.toModel) = true ↔ _
  rw [decide_eq_true_eq]
  exact beq_iff_eq

theorem ofNat_lt_ofNat_iff (hm : m < wholeLimit) (hn : n < wholeLimit) :
    Float.ofNat m < Float.ofNat n ↔ m < n := by
  rw [lt_iff_compare, unpack_ofNat hm, unpack_ofNat hn, compare_whole, Option.some.injEq,
    Nat.compare_eq_lt]

theorem ofNat_beq_zero_iff (hn : n < wholeLimit) : (Float.ofNat n == 0.0) = true ↔ n = 0 := by
  have hzero : (0.0 : Float).toModel.unpack = whole 0 := by rfl
  change ((Float.ofNat n).toModel.unpack.compare (0.0 : Float).toModel.unpack == some .eq) = true
    ↔ _
  rw [beq_iff_eq, unpack_ofNat hn, hzero, compare_whole, Option.some.injEq, Nat.compare_eq_eq]

theorem ofNat_isNaN (hn : n < wholeLimit) : (Float.ofNat n).isNaN = false := by
  change (Float.ofNat n).toModel.unpack.isNaN = false
  rw [unpack_ofNat hn, whole]
  split <;> rfl

theorem unpack_unreached : unreached.toModel.unpack = .infinity .positive := by
  rfl

/-- Every whole double is less than the distance of nodes that have not been reached. -/
theorem ofNat_lt_unreached (hn : n < wholeLimit) : Float.ofNat n < unreached := by
  rw [lt_iff_compare, unpack_ofNat hn, unpack_unreached, whole]
  split <;> rfl

theorem not_unreached_lt_ofNat (hn : n < wholeLimit) : ¬ unreached < Float.ofNat n := by
  rw [lt_iff_compare, unpack_ofNat hn, unpack_unreached, whole]
  split <;> simp [UnpackedFloat.compare]

theorem not_unreached_lt_unreached : ¬ unreached < unreached := by
  decide +kernel

theorem unreached_add_one : unreached + 1.0 = unreached := by
  decide +kernel

theorem unreached_isNaN : unreached.isNaN = false := by
  decide +kernel

theorem zero_eq_ofNat : (0.0 : Float) = Float.ofNat 0 := by
  decide +kernel

end Doubles

end BulkSync
