import ScriptFeatures.Proofs.Binary64.Rounding

/-! Sums and quotients in binary64. Positive numbers of moderate size stay positive and of moderate
size when they are added or divided, and so do natural numbers of 64 bits when they are converted.
Adding one to any finite number gives a finite number: what is added to the largest ones is less
than half of their last place. -/

namespace ScriptFeatures.Binary64

open Float.Model Float.Model.UnpackedFloat

/-- A positive number with all 53 bits, whose last place is from `2 ^ low` to `2 ^ high`. -/
def Normal (low high : Int) (u : UnpackedFloat) : Prop :=
  ∃ (m : Nat) (e : Int) (h : 0 < m),
    u = .finite .positive m e h ∧ m.log2 = 52 ∧ low ≤ e ∧ e ≤ high

variable {low high : Int} {u v : UnpackedFloat}

theorem Normal.mono {low' high' : Int} (h : Normal low high u) (hlow : low' ≤ low)
    (hhigh : high ≤ high') : Normal low' high' u := by
  obtain ⟨m, e, hm, rfl, hlog, hle, hge⟩ := h
  exact ⟨m, e, hm, rfl, hlog, by omega, by omega⟩

theorem Normal.pack (h : Normal low high u) (hlow : -1074 ≤ low) (hhigh : high ≤ 971) :
    Normal low high (Float.Model.pack u).unpack := by
  obtain ⟨m, e, hm, rfl, hlog, hle, hge⟩ := h
  exact ⟨m, e, hm, unpack_pack hm hlog (by omega) (by omega), hlog, hle, hge⟩

theorem Normal.isFinite {x : Float} (h : Normal low high x.toModel.unpack) :
    x.isFinite = true := by
  obtain ⟨m, e, hm, hx, -⟩ := h
  change x.toModel.unpack.isFinite = true
  rw [hx]
  rfl

theorem Normal.pos {x : Float} (h : Normal low high x.toModel.unpack) : 0 < x := by
  obtain ⟨m, e, hm, hx, -⟩ := h
  have hzero : (0 : Float).toModel.unpack = .zero .positive := rfl
  change decide ((0 : Float).toModel.unpack.lt x.toModel.unpack = true) = true
  rw [hzero, hx]
  rfl

/-! ## Rounding -/

theorem log2_shiftLeft {m : Nat} (hm : m ≠ 0) (k : Nat) : (m <<< k).log2 = m.log2 + k := by
  have hlow := Nat.mul_le_mul_right (2 ^ k) (Nat.log2_self_le hm)
  have hhigh := Nat.mul_lt_mul_of_pos_right (Nat.lt_log2_self (n := m)) (Nat.two_pow_pos k)
  rw [← Nat.pow_add] at hlow hhigh
  rw [Nat.shiftLeft_eq]
  refine (Nat.log2_eq_iff (by positivity)).mpr ⟨hlow, ?_⟩
  rwa [Nat.add_right_comm]

theorem normal_roundWithAccuracy {m : Nat} {e : Int} (a : Accuracy) (hm : 52 ≤ m.log2)
    (hlow : -1022 ≤ m.log2 + e) :
    Normal (m.log2 + e - 52) (m.log2 + e - 51)
      (roundWithAccuracy .binary64 .positive m e a) := by
  have hplace : lastPlace m e = m.log2 + e - 52 := by
    simp only [lastPlace]
    omega
  have hne : m ≠ 0 := by
    rintro rfl
    simp at hm
  have hk : (lastPlace m e - e).toNat = m.log2 - 52 := by omega
  have hfloor : 2 ^ 52 ≤ m / 2 ^ (m.log2 - 52) := by
    rw [Nat.le_div_iff_mul_le (by positivity), ← Nat.pow_add,
      show 52 + (m.log2 - 52) = m.log2 by omega]
    exact Nat.log2_self_le hne
  have hrounded : 2 ^ 52 ≤ rounded m e a := by
    have hle := (rounded_bounds m e a).1
    rw [hk] at hle
    omega
  rw [roundWithAccuracy_eq _ _ (by omega), dif_neg (by omega)]
  by_cases hlt : rounded m e a < 2 ^ 53
  · rw [if_pos hlt]
    refine ⟨_, _, _, rfl, ?_, by omega, by omega⟩
    exact (Nat.log2_eq_iff (by omega)).mpr ⟨hrounded, hlt⟩
  · rw [if_neg hlt]
    exact ⟨_, _, _, rfl, by decide, by omega, by omega⟩

theorem normal_round {m : Nat} {e : Int} (hm : 0 < m) (hlow : -1022 ≤ m.log2 + e) :
    Normal (m.log2 + e - 52) (m.log2 + e - 51) (UnpackedFloat.round .binary64 .positive m e) := by
  have hplace : lastPlace m e = m.log2 + e - 52 := by
    simp only [lastPlace]
    omega
  have hshift : (e - lastPlace m e).toNat = 52 - m.log2 := by omega
  have hlog := log2_shiftLeft hm.ne' (52 - m.log2)
  have hround := normal_roundWithAccuracy (m := m <<< (52 - m.log2))
    (e := e - (52 - m.log2 : Nat)) .exact (by omega) (by omega)
  rw [round_eq, hshift]
  exact hround.mono (by omega) (by omega)

/-! ## Arithmetic -/

theorem log2_add_bounds {m n : Nat} (hm : 0 < m) (hn : 0 < n) :
    max m.log2 n.log2 ≤ (m + n).log2 ∧ (m + n).log2 ≤ max m.log2 n.log2 + 1 := by
  have hmlow := Nat.log2_self_le hm.ne'
  have hnlow := Nat.log2_self_le hn.ne'
  have hmhigh : m < 2 ^ (max m.log2 n.log2 + 1) :=
    Nat.lt_of_lt_of_le Nat.lt_log2_self (Nat.pow_le_pow_right (by decide) (by omega))
  have hnhigh : n < 2 ^ (max m.log2 n.log2 + 1) :=
    Nat.lt_of_lt_of_le Nat.lt_log2_self (Nat.pow_le_pow_right (by decide) (by omega))
  constructor
  · exact Nat.max_le.mpr ⟨(Nat.le_log2 (by omega)).mpr (by omega),
      (Nat.le_log2 (by omega)).mpr (by omega)⟩
  · refine Nat.lt_succ_iff.mp ((Nat.log2_lt (by omega)).mpr ?_)
    rw [Nat.pow_succ]
    omega

theorem Normal.add (hu : Normal low high u) (hv : Normal low high v) (hlow : -1074 ≤ low) :
    Normal low (high + 2) (UnpackedFloat.add .binary64 u v) := by
  obtain ⟨m, e, hm, rfl, hlog, hle, hge⟩ := hu
  obtain ⟨n, f, hn, rfl, hlog', hle', hge'⟩ := hv
  have hmlog := log2_shiftLeft hm.ne' (e - min e f).toNat
  have hnlog := log2_shiftLeft hn.ne' (f - min e f).toNat
  generalize hsmaller : min e f = g at hmlog hnlog
  generalize hm' : m <<< (e - g).toNat = m' at hmlog
  generalize hn' : n <<< (f - g).toNat = n' at hnlog
  have hmpos : 0 < m' := hm' ▸ Nat.shiftLeft_pos_iff.mpr hm
  have hnpos : 0 < n' := hn' ▸ Nat.shiftLeft_pos_iff.mpr hn
  have hsum := log2_add_bounds hmpos hnpos
  have hround := normal_round (m := m' + n') (e := g) (by omega) (by omega)
  have hadd : UnpackedFloat.add .binary64 (.finite .positive m e hm) (.finite .positive n f hn) =
      UnpackedFloat.round .binary64 .positive (m' + n') g := by
    have hcompare : compare ((m' : Int) + (n' : Int)) 0 = .gt :=
      Int.compare_eq_gt.mpr (by omega)
    unfold UnpackedFloat.add decreaseExponent UnpackedFloat.normalize
    simp only [hsmaller, hm', hn', Sign.apply, hcompare]
    rfl
  rw [hadd]
  exact hround.mono (by omega) (by omega)

theorem Normal.mul {low' high' : Int} (hu : Normal low high u) (hv : Normal low' high' v)
    (hlow : -1100 ≤ low + low') :
    Normal (low + low' + 52) (high + high' + 54) (UnpackedFloat.mul .binary64 u v) := by
  obtain ⟨m, e, hm, rfl, hlog, hle, hge⟩ := hu
  obtain ⟨n, f, hn, rfl, hlog', hle', hge'⟩ := hv
  obtain ⟨hmlow, hmhigh⟩ := bounds_of_log2 hm hlog
  obtain ⟨hnlow, hnhigh⟩ := bounds_of_log2 hn hlog'
  have hne : m * n ≠ 0 := (Nat.mul_pos hm hn).ne'
  have hproductlow : 52 + 52 ≤ (m * n).log2 :=
    (Nat.le_log2 hne).mpr (Nat.pow_add 2 52 52 ▸ Nat.mul_le_mul hmlow hnlow)
  have hproducthigh : (m * n).log2 < 53 + 53 :=
    (Nat.log2_lt hne).mpr (Nat.pow_add 2 53 53 ▸ Nat.mul_lt_mul'' hmhigh hnhigh)
  have hround := normal_roundWithAccuracy (m := m * n) (e := e + f) .exact (by omega) (by omega)
  exact hround.mono (by omega) (by omega)

theorem Normal.div (hu : Normal low high u) (hv : Normal low high v)
    (hlow : -1000 ≤ low - high) :
    Normal (low - high - 53) (high - low - 51) (UnpackedFloat.div .binary64 u v) := by
  obtain ⟨m, e, hm, rfl, hlog, hle, hge⟩ := hu
  obtain ⟨n, f, hn, rfl, hlog', hle', hge'⟩ := hv
  obtain ⟨hmlow, hmhigh⟩ := bounds_of_log2 hm hlog
  obtain ⟨hnlow, hnhigh⟩ := bounds_of_log2 hn hlog'
  have htarget : Format.binary64.targetExponent (totalExponent m e - totalExponent n f) =
      e - f - 53 := by
    simp only [Format.targetExponent, totalExponent, Format.mantissaBits, Format.minExponent,
      hlog, hlog']
    norm_num
    omega
  have hcore : divCore .binary64 m e n f =
      ((m <<< 53) / n, e - f - 53, accuracyOfFraction ((m <<< 53) % n) n) := by
    simp [divCore, htarget]
  have hquotientlow : 2 ^ 52 ≤ (m <<< 53) / n := by
    rw [Nat.le_div_iff_mul_le hn, Nat.shiftLeft_eq]
    omega
  have hquotienthigh : (m <<< 53) / n < 2 ^ 54 := by
    rw [Nat.div_lt_iff_lt_mul hn, Nat.shiftLeft_eq]
    omega
  have hloglow : 52 ≤ ((m <<< 53) / n).log2 := (Nat.le_log2 (by omega)).mpr hquotientlow
  have hloghigh : ((m <<< 53) / n).log2 < 54 := (Nat.log2_lt (by omega)).mpr hquotienthigh
  have hround := normal_roundWithAccuracy (m := (m <<< 53) / n) (e := e - f - 53)
    (accuracyOfFraction ((m <<< 53) % n) n) hloglow (by omega)
  have hdiv : UnpackedFloat.div .binary64 (.finite .positive m e hm) (.finite .positive n f hn) =
      roundWithAccuracy .binary64 .positive ((m <<< 53) / n) (e - f - 53)
        (accuracyOfFraction ((m <<< 53) % n) n) := by
    unfold UnpackedFloat.div
    simp only [hcore]
    rfl
  rw [hdiv]
  exact hround.mono (by omega) (by omega)

/-! ## Natural numbers -/

theorem normal_one : Normal (-52) (-52) (1.0 : Float).toModel.unpack :=
  ⟨2 ^ 52, -52, by decide, rfl, by decide, by decide, by decide⟩

theorem unpack_ofNat {n : Nat} (hpos : 0 < n) :
    UnpackedFloat.ofNat .binary64 n = UnpackedFloat.round .binary64 .positive n 0 := by
  have hcompare : compare (n : Int) 0 = .gt := Int.compare_eq_gt.mpr (by omega)
  unfold UnpackedFloat.ofNat UnpackedFloat.ofInt UnpackedFloat.normalize
  rw [hcompare]
  rfl

theorem normal_word {n : Nat} (hpos : 0 < n) (h : n < UInt64.size) :
    Normal (-52) 12 n.toUInt64.toFloat.toModel.unpack := by
  have hlog : n.log2 < 64 := (Nat.log2_lt hpos.ne').mpr h
  have hround := normal_round (e := 0) hpos (by omega)
  rw [← unpack_ofNat hpos] at hround
  have hword : n.toUInt64.toNat = n := UInt64.toNat_ofNat_of_lt' h
  have hnormal : Normal (-52) 12 (UnpackedFloat.ofNat .binary64 n) :=
    hround.mono (by omega) (by omega)
  rw [← hword] at hnormal
  exact hnormal.pack (by decide) (by decide)

/-- A positive natural number of 64 bits. One below `2 ^ 53` is multiplied by one after it is
converted, others are converted by a product with one. -/
theorem normal_toFloat {n : Nat} (hpos : 0 < n) (h : n < UInt64.size) :
    Normal (-52) 14 n.toFloat.toModel.unpack := by
  have hlog : n.log2 < 64 := (Nat.log2_lt hpos.ne').mpr h
  change Normal (-52) 14 (Float.ofScientific n false 0).toModel.unpack
  unfold Float.ofScientific
  by_cases hsmall : n < 2 ^ 53
  · rw [dif_pos ⟨hsmall, by decide⟩]
    have hproduct := (normal_word hpos h).mul normal_one (by decide)
    exact hproduct.pack (by decide) (by decide)
  · rw [dif_neg (by omega)]
    have hlow : 53 ≤ n.log2 := (Nat.le_log2 hpos.ne').mpr (by omega)
    have hshift := log2_shiftLeft hpos.ne' 53
    have hround := normal_roundWithAccuracy (m := n <<< 53 * 10 ^ 0) (e := -53 + 0) .exact
      (by rw [Nat.pow_zero, Nat.mul_one]; omega) (by rw [Nat.pow_zero, Nat.mul_one]; omega)
    have hscientific : UnpackedFloat.ofScientific .binary64 n 0 =
        roundWithAccuracy .binary64 .positive (n <<< 53 * 10 ^ 0) (-53 + 0) .exact := by
      unfold UnpackedFloat.ofScientific
      rw [dif_neg hpos.ne', if_neg (by decide), if_neg (by simp), if_pos (by decide)]
      rfl
    rw [← hscientific, Nat.pow_zero, Nat.mul_one] at hround
    exact (hround.mono (by omega) (by omega)).pack (by decide) (by decide)

/-! ## Adding one -/

theorem unpack_bounds {x : Float.Model} {s : Sign} {m : Nat} {e : Int} {hm : 0 < m}
    (h : x.unpack = .finite s m e hm) : m < 2 ^ 53 ∧ e ≤ 971 := by
  change UnpackedFloat.unpack .binary64 x.toBits.toBitVec = _ at h
  have hmantissa : (@unpackMantissa .binary64 x.toBits.toBitVec).toNat < 2 ^ 52 :=
    BitVec.isLt _
  have hfull : (1#1 ++ @unpackMantissa .binary64 x.toBits.toBitVec).toNat < 2 ^ 53 :=
    BitVec.isLt _
  have hexponent : (@unpackExponent .binary64 x.toBits.toBitVec).toNat < 2 ^ 11 :=
    BitVec.isLt _
  have hbias : Format.binary64.exponentBias = 1023 := rfl
  unfold UnpackedFloat.unpack at h
  dsimp only at h
  split at h
  · split at h <;> cases h
  next hne =>
  have hnat : (@unpackExponent .binary64 x.toBits.toBitVec).toNat ≠ 2047 :=
    fun heq => hne (BitVec.eq_of_toNat_eq heq)
  split at h
  · next hzero =>
    split at h
    · cases h
    · cases h
      rw [hzero, hbias]
      exact ⟨by omega, by decide⟩
  · cases h
    exact ⟨hfull, by omega⟩

theorem rounded_lt {m : Nat} {e : Int} (he : e ≤ 970) (hplace : lastPlace m e = 971)
    (h : m < (2 ^ 54 - 1) * 2 ^ (970 - e).toNat) : rounded m e .exact < 2 ^ 53 := by
  have hk : (lastPlace m e - e).toNat = (970 - e).toNat + 1 := by omega
  have hquotient : m / 2 ^ (970 - e).toNat < 2 ^ 54 - 1 :=
    Nat.div_lt_of_lt_mul (Nat.mul_comm .. ▸ h)
  have hbounds := rounded_bounds m e .exact
  rw [hk, Nat.pow_succ, ← Nat.div_div_eq_div_mul] at hbounds
  -- an even quotient ends in a clear bit, so it is rounded down; an odd one is below `2 ^ 54 - 2`
  by_cases hodd : m / 2 ^ (970 - e).toNat % 2 = 0
  · have hbit : (ExtendedMantissa.ofMantissaAndAccuracy m .exact >>>
        ((970 - e).toNat + 1)).roundBit = false := by
      rw [roundBit_shift, mantissa_ofMantissaAndAccuracy, hodd]
      rfl
    have hrounded := rounded_of_roundBit hbit
    rw [mantissa_shift, mantissa_ofMantissaAndAccuracy, Nat.pow_succ,
      ← Nat.div_div_eq_div_mul] at hrounded
    rw [rounded, hk, hrounded]
    omega
  · omega

/-- A number below the middle between the largest binary64 number and the next power of two is
rounded to a finite number. -/
theorem isFinite_round (s : Sign) {m : Nat} {e : Int} (hm : 0 < m) (he : e ≤ 970)
    (h : m < (2 ^ 54 - 1) * 2 ^ (970 - e).toNat) :
    (Float.Model.pack (UnpackedFloat.round .binary64 s m e)).unpack.isFinite = true := by
  have hlog : m.log2 + e ≤ 1023 := by
    have hlt : m < 2 ^ (54 + (970 - e).toNat) := by
      rw [Nat.pow_add]
      exact Nat.lt_of_lt_of_le h (Nat.mul_le_mul_right _ (by decide))
    have := (Nat.log2_lt hm.ne').mpr hlt
    omega
  have hshift := log2_shiftLeft hm.ne' (e - lastPlace m e).toNat
  rw [round_eq]
  generalize hm' : m <<< (e - lastPlace m e).toNat = m' at hshift
  generalize he' : e - ((e - lastPlace m e).toNat : Int) = e'
  have hplace : lastPlace m' e' = lastPlace m e := by
    simp only [lastPlace] at *
    omega
  rw [roundWithAccuracy_eq _ _ (by omega)]
  split
  · cases s <;> rfl
  have hhigh : lastPlace m e ≤ 971 := by
    simp only [lastPlace]
    omega
  split
  · exact isFinite_pack _ (by omega)
  · next hlarge =>
    -- a carry out of the last place that is in range contradicts `rounded_lt`
    refine isFinite_pack _ ?_
    by_contra hplace'
    have hnone : (e - lastPlace m e).toNat = 0 := by omega
    rw [hnone, Nat.shiftLeft_zero] at hm'
    rw [hnone, Nat.cast_zero, Int.sub_zero] at he'
    subst hm' he'
    exact hlarge (rounded_lt he (by omega) h)

theorem isFinite_normalize {m : Int} {e : Int} (zero : Sign) (he : e ≤ 970)
    (h : m.natAbs < (2 ^ 54 - 1) * 2 ^ (970 - e).toNat) :
    (Float.Model.pack (UnpackedFloat.normalize .binary64 m e zero)).unpack.isFinite = true := by
  unfold UnpackedFloat.normalize
  split
  · next hlt =>
    have hneg : m < 0 := Int.compare_eq_lt.mp hlt
    exact isFinite_round _ (by omega) he (by rwa [show (-m).toNat = m.natAbs by omega])
  · cases zero <;> rfl
  · next hgt =>
    have hpos : 0 < m := Int.compare_eq_gt.mp hgt
    exact isFinite_round _ (by omega) he (by rwa [show m.toNat = m.natAbs by omega])

theorem natAbs_apply (s : Sign) (n : Nat) : (s.apply n).natAbs = n := by
  cases s with
  | positive => rfl
  | negative => exact Int.natAbs_neg n

/-- A finite number and one, brought to the same exponent. In units of `2 ^ 970` the number is at
most twice `2 ^ 53 - 1`, and one is less than a unit. -/
theorem natAbs_add_one_lt {m : Nat} {e g : Int} (s : Sign) (hm : m < 2 ^ 53) (he : e ≤ 971)
    (hg : g ≤ -52) :
    (s.apply (m <<< (e - g).toNat) + ((2 ^ 52 <<< (-52 - g).toNat : Nat) : Int)).natAbs <
      (2 ^ 54 - 1) * 2 ^ (970 - g).toNat := by
  have hunit : 2 ^ (971 - g).toNat = 2 * 2 ^ (970 - g).toNat := by
    rw [show (971 - g).toNat = (970 - g).toNat + 1 by omega, Nat.pow_succ, Nat.mul_comm]
  have hnumber : m <<< (e - g).toNat ≤ (2 ^ 53 - 1) * 2 ^ (971 - g).toNat := by
    rw [Nat.shiftLeft_eq]
    exact Nat.mul_le_mul (by omega) (Nat.pow_le_pow_right (by decide) (by omega))
  have hone : 2 ^ 52 <<< (-52 - g).toNat < 2 ^ (970 - g).toNat := by
    rw [Nat.shiftLeft_eq, ← Nat.pow_add]
    exact Nat.pow_lt_pow_right (by decide) (by omega)
  have hsign := natAbs_apply s (m <<< (e - g).toNat)
  generalize m <<< (e - g).toNat = m' at hnumber hsign ⊢
  generalize 2 ^ 52 <<< (-52 - g).toNat = one at hone ⊢
  rw [hunit] at hnumber
  omega

/-- A finite number and one have a finite sum. -/
theorem isFinite_add_one {x : Float} (h : x.isFinite = true) : (x + 1.0).isFinite = true := by
  have hone : (1.0 : Float).toModel.unpack = .finite .positive (2 ^ 52) (-52) (by decide) := rfl
  have hadd (y : Float) : (x + y).isFinite = (Float.Model.pack (UnpackedFloat.add .binary64
      x.toModel.unpack y.toModel.unpack)).unpack.isFinite := rfl
  rw [hadd, hone]
  change x.toModel.unpack.isFinite = true at h
  cases hx : x.toModel.unpack with
  | notANumber => rw [hx] at h; cases h
  | infinity s => rw [hx] at h; cases h
  | zero s => exact isFinite_pack _ (by decide)
  | finite s m e hm =>
    obtain ⟨hbound, hexponent⟩ := unpack_bounds hx
    refine isFinite_normalize _ (by omega) ?_
    exact natAbs_add_one_lt s hbound hexponent (Int.min_le_right ..)

end ScriptFeatures.Binary64
