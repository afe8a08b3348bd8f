import Konative.Lib.Double
import Mathlib

/-!
# Whole numbers as doubles

A whole number of at most 53 bits is a double, and nothing is lost: it is not rounded
(`round_whole`), packing and unpacking keep it (`unpack_pack_normal`), and truncating
gives it back (`roundToInt_whole`).  For C's `int` this makes the conversion to double
and back the identity (`castInt_ofInt32`), and the order of the doubles that of the
`int`s (`ofInt32_le`).
-/

namespace Float.Model.UnpackedFloat

/-! ## Mantissas of 53 bits -/

/-- Shifting an extended mantissa right divides it. -/
theorem mantissa_shiftRight (em : ExtendedMantissa) (k : Nat) :
    (em >>> k).mantissa = em.mantissa / 2 ^ k := by
  show (k.repeat ExtendedMantissa.shiftRightOne em).mantissa = _
  induction k with
  | zero => rw [Nat.pow_zero, Nat.div_one]; rfl
  | succ k ih =>
      show (k.repeat ExtendedMantissa.shiftRightOne em).mantissa / 2 = _
      rw [ih, Nat.div_div_eq_div_mul, Nat.pow_succ]

theorem log2_mul_two_pow {m : Nat} (hm : 0 < m) (k : Nat) :
    (m * 2 ^ k).log2 = m.log2 + k := by
  have hm0 := Nat.ne_of_gt hm
  have hpos : 0 < 2 ^ k := Nat.two_pow_pos k
  rw [Nat.log2_eq_iff (Nat.ne_of_gt (Nat.mul_pos hm hpos)), Nat.pow_add, Nat.add_right_comm,
    Nat.pow_add]
  exact ⟨Nat.mul_le_mul_right _ (Nat.log2_self_le hm0),
    (Nat.mul_lt_mul_right hpos).mpr ((Nat.log2_lt hm0).mp (Nat.lt_succ_self _))⟩

/-- A mantissa of 53 bits is not rounded. -/
theorem roundWithAccuracy_normal {s : Sign} {m : Nat} {e : Int} (hm : 0 < m) (hlog : m.log2 = 52)
    (he : -1074 ≤ e) : roundWithAccuracy .binary64 s m e .exact = .finite s m e hm := by
  have htarget : (Format.targetExponent .binary64 (totalExponent m e) - e).toNat = 0 := by
    simp only [Format.targetExponent, totalExponent, hlog, Format.mantissaBits, Format.minExponent]
    omega
  have hshift : shiftToTargetExponent .binary64 m e .exact = (⟨m, false, false⟩, e) := by
    show (ExtendedMantissa.mk m false false >>> _, e + ((_ : Nat) : Int)) = _
    rw [htarget, Int.natCast_zero, Int.add_zero]
    rfl
  have hround : (ExtendedMantissa.mk m false false).roundedMantissa = m := rfl
  simp only [roundWithAccuracy, hshift, hround]
  exact dif_neg (Nat.ne_of_gt hm)

/-- A whole number of at most 53 bits is not rounded. -/
theorem round_whole {s : Sign} {m : Nat} (hm : 0 < m) (hlog : m.log2 ≤ 52) :
    UnpackedFloat.round .binary64 s m 0 = .finite s (m * 2 ^ (52 - m.log2)) (m.log2 - 52)
      (Nat.mul_pos hm (Nat.two_pow_pos _)) := by
  have htarget : Format.targetExponent .binary64 (totalExponent m 0) = (m.log2 : Int) - 52 := by
    simp only [Format.targetExponent, totalExponent, Format.mantissaBits, Format.minExponent]
    omega
  have hshift : (0 - ((m.log2 : Int) - 52)).toNat = 52 - m.log2 := by omega
  have hexp : (0 : Int) - ((52 - m.log2 : Nat) : Int) = m.log2 - 52 := by omega
  simp only [UnpackedFloat.round, htarget, decreaseExponent, hshift, Nat.shiftLeft_eq, hexp]
  refine roundWithAccuracy_normal _ ?_ (by omega)
  rw [log2_mul_two_pow hm]
  omega

/-- Truncating it gives it back. -/
theorem roundToInt_whole {s : Sign} {m : Nat} (hlog : m.log2 ≤ 52) :
    roundToInt s (m * 2 ^ (52 - m.log2)) (m.log2 - 52) = s.apply m := by
  have hdec : ((m.log2 : Int) - 52).toNat = 0 := by omega
  have hinc : (0 - ((m.log2 : Int) - 52)).toNat = 52 - m.log2 := by omega
  simp only [roundToInt, decreaseExponent, Int.sub_zero, hdec, Nat.shiftLeft_zero, Int.natCast_zero,
    shiftToExponent, hinc, mantissa_shiftRight, ExtendedMantissa.ofMantissaAndAccuracy]
  rw [Nat.mul_div_cancel _ (Nat.two_pow_pos _)]

/-! ## Packing -/

/-- Packing a normal number and unpacking it gives it back. -/
theorem unpack_pack_normal {s : Sign} {m : Nat} {e : Int} {hm : 0 < m} (hlog : m.log2 = 52)
    (he : -1074 ≤ e) (he' : e < 972) :
    UnpackedFloat.unpack .binary64 (UnpackedFloat.pack .binary64 (.finite s m e hm)) =
      .finite s m e hm := by
  have hb : (e + ((Format.exponentBias .binary64 : Nat) : Int) + ((52 : Nat) : Int)).toNat =
      (e + 1075).toNat := by
    congr 1
    simp only [Format.exponentBias]
    omega
  have hpack : UnpackedFloat.pack .binary64 (.finite s m e hm) =
      packComponents .binary64 s (BitVec.ofNat _ (e + 1075).toNat) (BitVec.ofNat _ m) := by
    simp only [UnpackedFloat.pack]
    rw [hb, if_neg (by omega), if_pos (by rw [hlog]; rfl)]
  have hm0 := Nat.ne_of_gt hm
  have hle : 2 ^ 52 ≤ m := hlog ▸ Nat.log2_self_le hm0
  have hlt : m < 2 ^ 53 := (Nat.log2_lt hm0).mp (by omega)
  have hexp : (BitVec.ofNat 11 (e + 1075).toNat).toNat = (e + 1075).toNat := by
    rw [BitVec.toNat_ofNat, Nat.mod_eq_of_lt (by omega)]
  have hmant : (1#1 ++ BitVec.ofNat 52 m).toNat = m := by
    rw [BitVec.toNat_append, BitVec.toNat_ofNat, ← Nat.shiftLeft_add_eq_or_of_lt (by omega)]
    simp only [BitVec.toNat_ofNat, Nat.shiftLeft_eq]
    omega
  -- the exponent is neither that of infinity and NaN nor that of zero and subnormals
  have hne : ∀ b : BitVec 11, b.toNat ≠ (e + 1075).toNat →
      BitVec.ofNat 11 (e + 1075).toNat ≠ b := by
    rintro _ hb rfl
    exact hb hexp
  have hmax : (-1#11).toNat ≠ (e + 1075).toNat := by
    have hval : (-1#11).toNat = 2047 := rfl
    omega
  have hzero : (0#11).toNat ≠ (e + 1075).toNat := by
    have hval : (0#11).toNat = 0 := rfl
    omega
  have hbias : (((e + 1075).toNat : Nat) : Int) -
      ((Format.exponentBias .binary64 : Nat) + (52 : Nat) : Int) = e := by
    simp only [Format.exponentBias]
    omega
  rw [hpack]
  simp only [UnpackedFloat.unpack, unpackExponent_packComponents, unpackMantissa_packComponents,
    unpackSign_packComponents, Sign.ofBitVec_toBitVec, hexp]
  rw [if_neg (hne _ hmax), if_neg (hne _ hzero)]
  congr 1

end Float.Model.UnpackedFloat

namespace Float

open Model

/-! ## The integers -/

/-- `static_cast<double>(n)` of an `int`. -/
def ofInt32 (n : Int32) : Float := .ofModel (.ofInt32 n)

theorem log2_natAbs_le (n : Int32) : n.toInt.natAbs.log2 ≤ 31 := by
  by_cases hn : n.toInt.natAbs = 0
  · rw [hn]
    exact Nat.zero_le 31
  · have h₁ := n.le_toInt
    have h₂ := n.toInt_lt
    exact Nat.le_of_lt_succ ((Nat.log2_lt hn).mpr (by omega))

/-- The sign of a number that is not zero. -/
def sign (n : Int) : UnpackedFloat.Sign := if n < 0 then .negative else .positive

open UnpackedFloat in
/-- The double of an `int` that is not zero. -/
theorem unpack_ofInt32 {n : Int32} (hn : 0 < n.toInt.natAbs) :
    (ofInt32 n).toModel.unpack = .finite (sign n.toInt)
      (n.toInt.natAbs * 2 ^ (52 - n.toInt.natAbs.log2)) (n.toInt.natAbs.log2 - 52)
        (Nat.mul_pos hn (Nat.two_pow_pos _)) := by
  have hlog := log2_natAbs_le n
  have hround : UnpackedFloat.ofInt .binary64 n.toInt =
      UnpackedFloat.round .binary64 (sign n.toInt) n.toInt.natAbs 0 := by
    rcases Int.lt_or_gt_of_ne (a := n.toInt) (b := 0) (by omega) with h | h
    · have hc : compare n.toInt 0 = .lt := Int.compare_eq_lt.mpr h
      have habs : (-n.toInt).toNat = n.toInt.natAbs := by omega
      simp only [UnpackedFloat.ofInt, UnpackedFloat.normalize, hc, sign, if_pos h, habs]
    · have hc : compare n.toInt 0 = .gt := Int.compare_eq_gt.mpr h
      have habs : n.toInt.toNat = n.toInt.natAbs := by omega
      simp only [UnpackedFloat.ofInt, UnpackedFloat.normalize, hc, sign, habs,
        if_neg (Int.lt_asymm h)]
  have hunpack : (ofInt32 n).toModel.unpack = UnpackedFloat.unpack .binary64
      (UnpackedFloat.pack .binary64 (.ofInt .binary64 n.toInt)) := rfl
  rw [hunpack, hround, round_whole hn (by omega)]
  refine unpack_pack_normal ?_ (by omega) (by omega)
  rw [log2_mul_two_pow hn]
  omega

/-- An `int` goes through a double unchanged. -/
theorem castInt_ofInt32 (n : Int32) : (ofInt32 n).castInt = n := by
  have hclamp : Int32.ofIntClamp n.toInt = n := by
    rw [Int32.ofIntClamp, dif_pos n.minValue_le_toInt, dif_pos n.toInt_le]
    exact Int32.ofIntLE_toInt n
  by_cases hn : 0 < n.toInt.natAbs
  · have happly : (sign n.toInt).apply n.toInt.natAbs = n.toInt := by
      unfold sign
      split
      · simp only [UnpackedFloat.Sign.apply]; omega
      · simp only [UnpackedFloat.Sign.apply]; omega
    show Int32.ofIntClamp ((ofInt32 n).toModel.unpack.toInt _ _) = n
    rw [unpack_ofInt32 hn, UnpackedFloat.toInt,
      UnpackedFloat.roundToInt_whole (by have := log2_natAbs_le n; omega), happly, hclamp]
  · obtain rfl : n = 0 := Int32.toInt.inj (by simpa using hn)
    rfl

theorem isNaN_ofInt32 (n : Int32) : (ofInt32 n).isNaN = false := by
  show (ofInt32 n).toModel.unpack.isNaN = false
  by_cases hn : 0 < n.toInt.natAbs
  · rw [unpack_ofInt32 hn]
    rfl
  · obtain rfl : n = 0 := Int32.toInt.inj (by simpa using hn)
    rfl

/-- The exponent and mantissa of a smaller whole number are smaller. -/
theorem compare_whole {p q : Nat} (hp : 0 < p) (hpq : p ≤ q) :
    ((compare ((p.log2 : Int) - 52) (q.log2 - 52)).then
      (compare (p * 2 ^ (52 - p.log2)) (q * 2 ^ (52 - q.log2)))).isLE = true := by
  have hlog : p.log2 ≤ q.log2 :=
    (Nat.le_log2 (Nat.ne_of_gt (Nat.lt_of_lt_of_le hp hpq))).mpr
      (Nat.le_trans (Nat.log2_self_le (Nat.ne_of_gt hp)) hpq)
  rcases Nat.lt_or_eq_of_le hlog with h | h
  · have hc : compare ((p.log2 : Int) - 52) (q.log2 - 52) = .lt :=
      Int.compare_eq_lt.mpr (by omega)
    rw [hc]
    rfl
  · have hc : compare ((p.log2 : Int) - 52) (q.log2 - 52) = .eq :=
      Int.compare_eq_eq.mpr (by omega)
    rw [hc, ← h]
    exact Nat.isLE_compare.mpr (Nat.mul_le_mul_right _ hpq)

/-- The doubles of `int`s are ordered as these are. -/
theorem ofInt32_le {a b : Int32} (h : a ≤ b) : ofInt32 a ≤ ofInt32 b := by
  have h := Int32.le_iff_toInt_le.mp h
  have hle : ofInt32 a ≤ ofInt32 b ↔
      ((ofInt32 a).toModel.unpack.compare (ofInt32 b).toModel.unpack).any (·.isLE) = true :=
    decide_eq_true_iff
  have hzero : ∀ {n : Int32}, ¬ 0 < n.toInt.natAbs →
      (ofInt32 n).toModel.unpack = .zero .positive := by
    intro n hn
    obtain rfl : n = 0 := Int32.toInt.inj (by simpa using hn)
    rfl
  rw [hle]
  by_cases ha : 0 < a.toInt.natAbs
  · rw [unpack_ofInt32 ha, sign]
    by_cases hb : 0 < b.toInt.natAbs
    · rw [unpack_ofInt32 hb, sign]
      by_cases ha' : a.toInt < 0
      · rw [if_pos ha']
        by_cases hb' : b.toInt < 0
        · rw [if_pos hb']
          have hc := compare_whole hb (q := a.toInt.natAbs) (by omega)
          simpa only [UnpackedFloat.compare, Option.any_some, Ordering.swap_then, Int.compare_swap,
            Nat.compare_swap] using hc
        · rw [if_neg hb']
          rfl
      · rw [if_neg ha', if_neg (by omega)]
        exact compare_whole ha (by omega)
    · rw [hzero hb, if_pos (by omega)]
      rfl
  · rw [hzero ha]
    by_cases hb : 0 < b.toInt.natAbs
    · rw [unpack_ofInt32 hb, sign, if_neg (by omega)]
      rfl
    · rw [hzero hb]
      rfl

end Float
