import ScriptFeatures.Proofs.Binary64.Arithmetic

/-! Natural numbers below `2 ^ 53` in binary64. They are converted without loss, and so are their
sums: whatever shift an operation leaves a number with, rounding takes it back to the 53 bits that
begin with its first one (`round_shift`). -/

namespace ScriptFeatures.Binary64

open Float.Model Float.Model.UnpackedFloat

variable {m n : Nat}

theorem log2_lt_of_lt (h : n < 2 ^ 53) : n.log2 < 53 := by
  by_cases hzero : n = 0
  · subst hzero
    decide
  · exact (Nat.log2_lt hzero).mpr h

/-- Zeros behind a number are shifted out again without a trace. -/
theorem rounded_shiftLeft (m k : Nat) :
    (ExtendedMantissa.ofMantissaAndAccuracy (m <<< k) .exact >>> k).roundedMantissa = m := by
  have hbit : (ExtendedMantissa.ofMantissaAndAccuracy (m <<< k) .exact >>> k).roundBit = false := by
    cases k with
    | zero => rfl
    | succ k =>
      rw [roundBit_shift, mantissa_ofMantissaAndAccuracy, Nat.shiftLeft_eq, Nat.pow_succ',
        ← Nat.mul_assoc, Nat.mul_div_cancel _ (Nat.two_pow_pos k), Nat.mul_mod_left]
      rfl
  rw [rounded_of_roundBit hbit, mantissa_shift, mantissa_ofMantissaAndAccuracy, Nat.shiftLeft_eq,
    Nat.mul_div_cancel _ (Nat.two_pow_pos k)]

/-- A number of at most 53 bits with all of them. -/
def settled (n : Nat) (hpos : 0 < n) : UnpackedFloat :=
  .finite .positive (n <<< (52 - n.log2)) (n.log2 - 52) (Nat.shiftLeft_pos_iff.mpr hpos)

theorem log2_settled (hpos : 0 < n) (h : n < 2 ^ 53) : (n <<< (52 - n.log2)).log2 = 52 := by
  have hlog := log2_lt_of_lt h
  rw [log2_shiftLeft hpos.ne']
  omega

theorem roundWithAccuracy_shift (hpos : 0 < n) (h : n < 2 ^ 53) {s : Nat}
    (hs : 52 ≤ n.log2 + s) :
    roundWithAccuracy .binary64 .positive (n <<< s) (-s) .exact = settled n hpos := by
  have hlog := log2_lt_of_lt h
  have hshift := log2_shiftLeft hpos.ne' s
  have hplace : lastPlace (n <<< s) (-s) = n.log2 - 52 := by
    simp only [lastPlace, hshift]
    omega
  have hdistance : (lastPlace (n <<< s) (-s) - -s).toNat = n.log2 + s - 52 := by omega
  have hsplit : n <<< s = (n <<< (52 - n.log2)) <<< (n.log2 + s - 52) := by
    rw [← Nat.shiftLeft_add]
    congr 1
    omega
  have hrounded : rounded (n <<< s) (-s) .exact = n <<< (52 - n.log2) := by
    rw [rounded, hdistance, hsplit, rounded_shiftLeft]
  have hlt := (bounds_of_log2 (Nat.shiftLeft_pos_iff.mpr hpos) (log2_settled hpos h)).2
  have hne : rounded (n <<< s) (-s) .exact ≠ 0 := by
    rw [hrounded]
    exact (Nat.shiftLeft_pos_iff.mpr hpos).ne'
  rw [roundWithAccuracy_eq _ _ (by omega), dif_neg hne, if_pos (by rwa [hrounded])]
  simp only [hrounded, hplace, settled]

/-- Rounding a shifted number gives the number. -/
theorem round_shift (hpos : 0 < n) (h : n < 2 ^ 53) (s : Nat) :
    UnpackedFloat.round .binary64 .positive (n <<< s) (-s) = settled n hpos := by
  have hshift := log2_shiftLeft hpos.ne' s
  have hplace : lastPlace (n <<< s) (-s) = n.log2 - 52 := by
    simp only [lastPlace, hshift]
    omega
  generalize hd : (-(s : Int) - lastPlace (n <<< s) (-s)).toNat = d
  have hexponent : -(s : Int) - d = -((s + d : Nat) : Int) := by omega
  rw [round_eq, hd, hexponent, ← Nat.shiftLeft_add]
  exact roundWithAccuracy_shift hpos h (by omega)

theorem unpack_pack_settled (hpos : 0 < n) (h : n < 2 ^ 53) :
    (Float.Model.pack (settled n hpos)).unpack = settled n hpos := by
  have hlog := log2_lt_of_lt h
  exact unpack_pack _ (log2_settled hpos h) (by omega) (by omega)

/-! ## Conversion and sums -/

theorem unpack_word (hpos : 0 < n) (h : n < 2 ^ 53) :
    n.toUInt64.toFloat.toModel.unpack = settled n hpos := by
  have hword : n.toUInt64.toNat = n := UInt64.toNat_ofNat_of_lt' (by
    rw [UInt64.size]
    omega)
  have hround := round_shift hpos h 0
  rw [Nat.shiftLeft_zero] at hround
  change (Float.Model.pack (UnpackedFloat.ofNat .binary64 n.toUInt64.toNat)).unpack = _
  rw [hword, unpack_ofNat hpos]
  exact hround ▸ unpack_pack_settled hpos h

/-- A number below `2 ^ 53` is multiplied by one after it is converted. -/
theorem toFloat_eq (hpos : 0 < n) (h : n < 2 ^ 53) :
    n.toFloat = .ofModel (.pack (settled n hpos)) := by
  have hlog := log2_lt_of_lt h
  have hproduct : UnpackedFloat.mul .binary64 (settled n hpos) (1.0 : Float).toModel.unpack =
      roundWithAccuracy .binary64 .positive ((n <<< (52 - n.log2)) * 2 ^ 52)
        (n.log2 - 52 + -52) .exact := rfl
  have hshift : (n <<< (52 - n.log2)) * 2 ^ 52 = n <<< (52 - n.log2 + 52) := by
    rw [Nat.shiftLeft_add, ← Nat.shiftLeft_eq]
  have hexponent : (n.log2 - 52 + -52 : Int) = -((52 - n.log2 + 52 : Nat) : Int) := by omega
  rw [hshift, hexponent, roundWithAccuracy_shift hpos h (by omega)] at hproduct
  change Float.ofScientific n false 0 = _
  unfold Float.ofScientific
  rw [dif_pos ⟨h, by decide⟩, ← hproduct, ← unpack_word hpos h]
  rfl

theorem unpack_toFloat (hpos : 0 < n) (h : n < 2 ^ 53) :
    n.toFloat.toModel.unpack = settled n hpos := by
  rw [toFloat_eq hpos h]
  exact unpack_pack_settled hpos h

/-- Before they are added, both numbers are shifted to the smaller of their last places. -/
theorem add_settled (hm : 0 < m) (hn : 0 < n) (h : m + n < 2 ^ 53) :
    UnpackedFloat.add .binary64 (settled m hm) (settled n hn) =
      settled (m + n) (Nat.add_pos_left hm n) := by
  have hmlog := log2_lt_of_lt (Nat.lt_of_le_of_lt (Nat.le_add_right m n) h)
  have hnlog := log2_lt_of_lt (Nat.lt_of_le_of_lt (Nat.le_add_left n m) h)
  generalize hg : min (m.log2 - 52 : Int) (n.log2 - 52) = g
  generalize hs : (-g).toNat = s
  have hmshift : (m <<< (52 - m.log2)) <<< (m.log2 - 52 - g).toNat = m <<< s := by
    rw [← Nat.shiftLeft_add]
    congr 1
    omega
  have hnshift : (n <<< (52 - n.log2)) <<< (n.log2 - 52 - g).toNat = n <<< s := by
    rw [← Nat.shiftLeft_add]
    congr 1
    omega
  have hmpos : 0 < m <<< s := Nat.shiftLeft_pos_iff.mpr hm
  have hnpos : 0 < n <<< s := Nat.shiftLeft_pos_iff.mpr hn
  have hcompare : compare ((m <<< s : Nat) + (n <<< s : Nat) : Int) 0 = .gt :=
    Int.compare_eq_gt.mpr (by omega)
  have hsum : m <<< s + n <<< s = (m + n) <<< s := by
    simp only [Nat.shiftLeft_eq, Nat.add_mul]
  have hexponent : g = -(s : Int) := by omega
  have hadd : UnpackedFloat.add .binary64 (settled m hm) (settled n hn) =
      UnpackedFloat.round .binary64 .positive (m <<< s + n <<< s) g := by
    unfold UnpackedFloat.add settled decreaseExponent UnpackedFloat.normalize
    simp only [hg, hmshift, hnshift, Sign.apply, hcompare]
    rfl
  rw [hadd, hsum, hexponent]
  exact round_shift _ h s

/-- Sums are exact. -/
theorem toFloat_add (h : m + n < 2 ^ 53) : m.toFloat + n.toFloat = (m + n).toFloat := by
  change Float.ofModel (.pack (.add .binary64 m.toFloat.toModel.unpack n.toFloat.toModel.unpack)) =
    (m + n).toFloat
  have hzero : (0 : Nat).toFloat.toModel.unpack = .zero .positive := rfl
  obtain rfl | hm := Nat.eq_zero_or_pos m
  · obtain rfl | hn := Nat.eq_zero_or_pos n
    · rfl
    · rw [Nat.zero_add] at h ⊢
      rw [hzero, unpack_toFloat hn h, toFloat_eq hn h]
      rfl
  · obtain rfl | hn := Nat.eq_zero_or_pos n
    · rw [hzero, unpack_toFloat hm h, Nat.add_zero, toFloat_eq hm h]
      rfl
    · rw [unpack_toFloat hm (by omega), unpack_toFloat hn (by omega), add_settled hm hn h,
        toFloat_eq _ h]

/-- A sum that stays below `2 ^ 53` is exact whatever the order of its terms. -/
theorem foldl_toFloat (ns : List Nat) (n : Nat) (h : n + ns.sum < 2 ^ 53) :
    (ns.map Nat.toFloat).foldl (· + ·) n.toFloat = (n + ns.sum).toFloat := by
  induction ns generalizing n with
  | nil => rfl
  | cons m rest ih =>
    rw [List.sum_cons, ← Nat.add_assoc] at h ⊢
    rw [List.map_cons, List.foldl_cons, toFloat_add (by omega), ih (n + m) h]

end ScriptFeatures.Binary64
