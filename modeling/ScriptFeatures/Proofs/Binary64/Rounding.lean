import Mathlib

/-! Rounding to binary64. A natural number times a power of two is rounded by shifting its
mantissa to 53 bits or to the smallest exponent, adding one if the bits shifted out ask for it,
and shifting once more if that made a power of two. The result is finite as long as the exponent
fits. -/

namespace ScriptFeatures.Binary64

open Float.Model Float.Model.UnpackedFloat

/-! ## Shifting -/

theorem mantissa_shift (em : ExtendedMantissa) (k : Nat) :
    (em >>> k).mantissa = em.mantissa / 2 ^ k := by
  induction k with
  | zero => simp [HShiftRight.hShiftRight, Nat.repeat]
  | succ k ih =>
    change (em >>> k).mantissa / 2 = _
    rw [ih, Nat.div_div_eq_div_mul, Nat.pow_succ]

theorem roundBit_shift (em : ExtendedMantissa) (k : Nat) :
    (em >>> (k + 1)).roundBit = (em.mantissa / 2 ^ k % 2 != 0) := by
  change ((em >>> k).mantissa % 2 != 0) = _
  rw [mantissa_shift]

theorem mantissa_ofMantissaAndAccuracy (m : Nat) (a : Accuracy) :
    (ExtendedMantissa.ofMantissaAndAccuracy m a).mantissa = m := by
  cases a with
  | exact => rfl
  | inexact o => cases o <;> rfl

theorem mantissa_le_rounded (em : ExtendedMantissa) : em.mantissa ≤ em.roundedMantissa := by
  obtain ⟨m, r, s⟩ := em
  cases r <;> cases s <;>
    simp [ExtendedMantissa.roundedMantissa, ExtendedMantissa.accuracy,
      Accuracy.roundToNearestEven]

theorem rounded_le_mantissa (em : ExtendedMantissa) : em.roundedMantissa ≤ em.mantissa + 1 := by
  obtain ⟨m, r, s⟩ := em
  cases r <;> cases s <;>
    simp [ExtendedMantissa.roundedMantissa, ExtendedMantissa.accuracy,
      Accuracy.roundToNearestEven]
  omega

theorem rounded_of_roundBit {em : ExtendedMantissa} (h : em.roundBit = false) :
    em.roundedMantissa = em.mantissa := by
  obtain ⟨m, r, s⟩ := em
  cases h
  cases s <;> rfl

/-! ## Rounding -/

/-- The exponent that a number is rounded to: that of the last of 53 bits, or the smallest one. -/
def lastPlace (m : Nat) (e : Int) : Int :=
  max (m.log2 + e - 52) (-1074)

theorem targetExponent_eq (m : Nat) (e : Int) :
    Format.binary64.targetExponent (totalExponent m e) = lastPlace m e := by
  simp only [Format.targetExponent, totalExponent, Format.mantissaBits, Format.minExponent,
    lastPlace]
  norm_num
  omega

/-- The mantissa after the first shift, rounded. -/
def rounded (m : Nat) (e : Int) (a : Accuracy) : Nat :=
  (ExtendedMantissa.ofMantissaAndAccuracy m a >>> (lastPlace m e - e).toNat).roundedMantissa

theorem shiftToTargetExponent_eq (m : Nat) (e : Int) (a : Accuracy) :
    shiftToTargetExponent .binary64 m e a =
      (ExtendedMantissa.ofMantissaAndAccuracy m a >>> (lastPlace m e - e).toNat,
        e + (lastPlace m e - e).toNat) := by
  rw [shiftToTargetExponent, targetExponent_eq]
  rfl

theorem rounded_bounds (m : Nat) (e : Int) (a : Accuracy) :
    m / 2 ^ (lastPlace m e - e).toNat ≤ rounded m e a ∧
    rounded m e a ≤ m / 2 ^ (lastPlace m e - e).toNat + 1 := by
  have hlow := mantissa_le_rounded
    (ExtendedMantissa.ofMantissaAndAccuracy m a >>> (lastPlace m e - e).toNat)
  have hhigh := rounded_le_mantissa
    (ExtendedMantissa.ofMantissaAndAccuracy m a >>> (lastPlace m e - e).toNat)
  rw [mantissa_shift, mantissa_ofMantissaAndAccuracy] at hlow hhigh
  exact ⟨hlow, hhigh⟩

theorem rounded_le (m : Nat) (e : Int) (a : Accuracy) : rounded m e a ≤ 2 ^ 53 := by
  have hlog : m.log2 + 1 ≤ 53 + (lastPlace m e - e).toNat := by
    simp only [lastPlace]
    omega
  have hlt : m < 2 ^ 53 * 2 ^ (lastPlace m e - e).toNat := by
    rw [← Nat.pow_add]
    exact Nat.lt_of_lt_of_le Nat.lt_log2_self (Nat.pow_le_pow_right (by decide) hlog)
  have hdiv := Nat.div_lt_of_lt_mul (Nat.mul_comm .. ▸ hlt)
  have hhigh := (rounded_bounds m e a).2
  omega

/-- The second shift: it only acts if rounding made a power of two. -/
theorem shift_settled {m : Nat} {e : Int} (hm : m ≤ 2 ^ 53) (he : -1074 ≤ e) :
    shiftToTargetExponent .binary64 m e .exact =
      if m < 2 ^ 53 then (⟨m, false, false⟩, e) else (⟨2 ^ 52, false, false⟩, e + 1) := by
  rw [shiftToTargetExponent_eq]
  by_cases hlt : m < 2 ^ 53
  · have hlog : m.log2 ≤ 52 := by
      by_cases hzero : m = 0
      · simp [hzero]
      · exact Nat.lt_succ_iff.mp ((Nat.log2_lt hzero).mpr hlt)
    have hshift : (lastPlace m e - e).toNat = 0 := by
      simp only [lastPlace]
      omega
    rw [hshift, if_pos hlt]
    simp [ExtendedMantissa.ofMantissaAndAccuracy, HShiftRight.hShiftRight, Nat.repeat]
  · obtain rfl : m = 2 ^ 53 := by omega
    have hshift : (lastPlace (2 ^ 53) e - e).toNat = 1 := by
      simp only [lastPlace, Nat.log2_two_pow]
      omega
    rw [hshift, if_neg hlt]
    rfl

theorem roundWithAccuracy_eq (s : Sign) {m : Nat} {e : Int} (a : Accuracy)
    (he : e ≤ lastPlace m e) :
    roundWithAccuracy .binary64 s m e a =
      if h : rounded m e a = 0 then .zero s
      else if rounded m e a < 2 ^ 53 then
        .finite s (rounded m e a) (lastPlace m e) (Nat.pos_of_ne_zero h)
      else .finite s (2 ^ 52) (lastPlace m e + 1) (by decide) := by
  have hexponent : e + ((lastPlace m e - e).toNat : Int) = lastPlace m e := by omega
  have hsmallest : -1074 ≤ lastPlace m e := Int.le_max_right ..
  have hsettled := shift_settled (rounded_le m e a) hsmallest
  rw [roundWithAccuracy, shiftToTargetExponent_eq, hexponent]
  change (match shiftToTargetExponent .binary64 (rounded m e a) (lastPlace m e) .exact with
    | (em, e) => if h : em.mantissa = 0 then UnpackedFloat.zero s
      else .finite s em.mantissa e (Nat.pos_of_ne_zero h)) = _
  rw [hsettled]
  by_cases hlt : rounded m e a < 2 ^ 53
  · simp only [hlt, if_true]
  · have hne : rounded m e a ≠ 0 := by omega
    simp only [hlt, if_false, dif_neg hne]
    rfl

/-- A mantissa with fewer bits than wanted is extended before it is rounded. -/
theorem round_eq (s : Sign) (m : Nat) (e : Int) :
    UnpackedFloat.round .binary64 s m e =
      roundWithAccuracy .binary64 s (m <<< (e - lastPlace m e).toNat)
        (e - (e - lastPlace m e).toNat) .exact := by
  unfold UnpackedFloat.round
  rw [targetExponent_eq]
  rfl

/-! ## Packing -/

/-- A number is finite unless all bits of its exponent are set. -/
theorem isFinite_unpack {b : BitVec 64}
    (h : @unpackExponent .binary64 b ≠ -1#11) :
    (unpack .binary64 b).isFinite = true := by
  unfold UnpackedFloat.unpack
  simp only [if_neg h]
  split_ifs <;> rfl

theorem ofNat_ne_neg_one {n : Nat} (h : n ≤ 2046) : BitVec.ofNat 11 n ≠ -1#11 := by
  intro heq
  have hnat := congrArg BitVec.toNat heq
  rw [BitVec.toNat_ofNat, Nat.mod_eq_of_lt (by omega)] at hnat
  change n = 2047 at hnat
  omega

theorem pack_finite {s : Sign} {m : Nat} {e : Int} (hm : 0 < m) (he : e ≤ 971) :
    UnpackedFloat.pack .binary64 (.finite s m e hm) =
      packComponents .binary64 s (if m.log2 = 52 then BitVec.ofNat 11 (e + 1075).toNat else 0#11)
        (BitVec.ofNat 52 m) := by
  have hbiased : (e + 1023 + 52).toNat = (e + 1075).toNat := by omega
  have hsmall : ¬ 2 ^ 11 ≤ (e + 1075).toNat + 1 := by omega
  change (if 2 ^ 11 ≤ (e + 1023 + 52).toNat + 1 then _
    else if m.log2 + 1 = 53 then
      packComponents .binary64 s (BitVec.ofNat 11 (e + 1023 + 52).toNat) _
    else _) = _
  rw [hbiased, if_neg hsmall]
  by_cases hlog : m.log2 = 52
  · rw [if_pos hlog, if_pos (by omega)]
  · rw [if_neg hlog, if_neg (by omega)]

theorem isFinite_pack {s : Sign} {m : Nat} {e : Int} (hm : 0 < m) (he : e ≤ 971) :
    (Float.Model.pack (.finite s m e hm)).unpack.isFinite = true := by
  refine isFinite_unpack ?_
  change unpackExponent (UnpackedFloat.pack .binary64 (.finite s m e hm)) ≠ -1#11
  rw [pack_finite hm he, unpackExponent_packComponents]
  split
  · exact ofNat_ne_neg_one (by omega)
  · decide

theorem bounds_of_log2 {m : Nat} (hm : 0 < m) (hlog : m.log2 = 52) : 2 ^ 52 ≤ m ∧ m < 2 ^ 53 :=
  (Nat.log2_eq_iff hm.ne').mp hlog

/-- A number with all 53 bits is packed without loss. -/
theorem unpack_pack {s : Sign} {m : Nat} {e : Int} (hm : 0 < m) (hlog : m.log2 = 52)
    (hsmallest : -1074 ≤ e) (he : e ≤ 971) :
    (Float.Model.pack (.finite s m e hm)).unpack = .finite s m e hm := by
  obtain ⟨hlow, hhigh⟩ := bounds_of_log2 hm hlog
  have hexponent : (BitVec.ofNat 11 (e + 1075).toNat).toNat = (e + 1075).toNat := by
    rw [BitVec.toNat_ofNat, Nat.mod_eq_of_lt (by omega)]
  have hzero : BitVec.ofNat 11 (e + 1075).toNat ≠ 0#11 := by
    intro heq
    have hnat := congrArg BitVec.toNat heq
    rw [hexponent] at hnat
    change (e + 1075).toNat = 0 at hnat
    omega
  have hmantissa : (1#1 ++ BitVec.ofNat 52 m).toNat = m := by
    rw [BitVec.toNat_append, ← Nat.shiftLeft_add_eq_or_of_lt (BitVec.ofNat 52 m).isLt,
      BitVec.toNat_ofNat, Nat.shiftLeft_eq]
    change 1 * 2 ^ 52 + m % 2 ^ 52 = m
    omega
  change UnpackedFloat.unpack .binary64 (UnpackedFloat.pack .binary64 (.finite s m e hm)) = _
  rw [pack_finite hm he, if_pos hlog]
  unfold UnpackedFloat.unpack
  simp only [unpackExponent_packComponents, unpackMantissa_packComponents,
    unpackSign_packComponents, Sign.ofBitVec_toBitVec, if_neg hzero,
    if_neg (ofNat_ne_neg_one (show (e + 1075).toNat ≤ 2046 by omega)), hmantissa, hexponent]
  congr 1
  change ((e + 1075).toNat : Int) - (1023 + 52) = e
  omega

end ScriptFeatures.Binary64
