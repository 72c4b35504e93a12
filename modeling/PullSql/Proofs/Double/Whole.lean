import Mathlib
import PullSql.Double

/-!
# Whole numbers as doubles

A natural number below 2 ^ 53 has exactly one double, and converting the number gives it.

1. A number whose mantissa fits into 53 bits is rounded to itself (`roundWithAccuracy_exact`).
2. Packing such a number loses nothing (`unpack_pack_finite`), so the bits of a converted number are
   known (`bits_ofInt`).
3. A number has one mantissa of 53 bits (`eq_of_value_eq`), so these bits are the only ones of its
   value.

Main statement: `isNat_iff`.
-/

namespace PullSql.Double

open Float.Model Float.Model.UnpackedFloat

/-- The double stands for a natural number and has no sign. -/
def IsNat (d : Double) (n : Nat) : Prop :=
  d.isNegative = false ∧ ∃ x, d.size = .finite x ∧ (x.mantissa : ℚ) * 2 ^ x.exponent = n

/-! ## Rounding what needs no rounding -/

theorem log2_mul_two_pow {n : Nat} (hn : n ≠ 0) (k : Nat) : (n * 2 ^ k).log2 = n.log2 + k := by
  induction k with
  | zero => simp
  | succ k ih =>
    have hk : n * 2 ^ k ≠ 0 := Nat.mul_ne_zero hn (by positivity)
    rw [Nat.pow_succ', Nat.mul_left_comm, Nat.log2_two_mul hk, ih, Nat.add_assoc]

theorem log2_eq {m : Nat} (hm : 2 ^ 52 ≤ m) (hm' : m < 2 ^ 53) : m.log2 = 52 :=
  (Nat.log2_eq_iff (by omega)).mpr ⟨hm, hm'⟩

theorem shiftRight_mul_two_pow (m k : Nat) :
    (ExtendedMantissa.mk (m * 2 ^ k) false false) >>> k = ⟨m, false, false⟩ := by
  induction k generalizing m with
  | zero => simp [HShiftRight.hShiftRight, Nat.repeat]
  | succ k ih =>
    have h := ih (m * 2)
    change ExtendedMantissa.shiftRightOne
      (ExtendedMantissa.mk (m * 2 ^ (k + 1)) false false >>> k) = _
    rw [Nat.pow_succ', ← Nat.mul_assoc, h]
    simp [ExtendedMantissa.shiftRightOne]

section Normal

-- A mantissa of 53 bits and an exponent for it.
variable {m : Nat} {e : Int} (hm : 2 ^ 52 ≤ m) (hm' : m < 2 ^ 53) (he : -1074 ≤ e)
include hm hm' he

theorem shiftToTargetExponent_exact (k : Nat) :
    shiftToTargetExponent Format.binary64 (m * 2 ^ k) (e - k) .exact = (⟨m, false, false⟩, e) := by
  have ht : Format.binary64.targetExponent (totalExponent (m * 2 ^ k) (e - k)) = e := by
    simp only [Format.targetExponent, totalExponent, Format.mantissaBits, Format.minExponent,
      log2_mul_two_pow (by omega : m ≠ 0), log2_eq hm hm']
    norm_num
    omega
  have hk : (e - (e - k)).toNat = k := by omega
  simp only [shiftToTargetExponent, shiftToExponent, ht, hk,
    ExtendedMantissa.ofMantissaAndAccuracy, shiftRight_mul_two_pow]
  rw [Int.sub_add_cancel]

/-- Zeros behind the mantissa are dropped. -/
theorem roundWithAccuracy_exact (sign : Sign) (k : Nat) :
    roundWithAccuracy Format.binary64 sign (m * 2 ^ k) (e - k) .exact =
      .finite sign m e (by omega) := by
  have hm0 : m ≠ 0 := by omega
  have h := shiftToTargetExponent_exact hm hm' he 0
  rw [Nat.pow_zero, Nat.mul_one, Int.natCast_zero, Int.sub_zero] at h
  simp only [roundWithAccuracy, shiftToTargetExponent_exact hm hm' he,
    ExtendedMantissa.roundedMantissa, ExtendedMantissa.accuracy, Accuracy.roundToNearestEven, h,
    hm0, dif_neg, not_false_eq_true]

/-! ## Packing -/

variable (he' : e ≤ 971) (hp : 0 < m)
include he'

theorem pack_finite (sign : Sign) :
    UnpackedFloat.pack Format.binary64 (.finite sign m e hp) =
      packComponents Format.binary64 sign (BitVec.ofNat 11 (e + 1075).toNat)
        (BitVec.ofNat 52 m) := by
  have hb : e + 1023 + 52 = e + 1075 := by omega
  have hfit : ¬ 2048 ≤ (e + 1075).toNat + 1 := by omega
  simp [UnpackedFloat.pack, Format.exponentBias, Format.mantissaBits, log2_eq hm hm', hb, hfit]

theorem toBits_pack_finite :
    (pack (.finite .positive m e hp)).toBits.toNat =
      (e + 1075).toNat * 2 ^ 52 + (m - 2 ^ 52) := by
  simp only [Float.Model.pack, pack_finite hm hm' he he', UInt64.toNat_ofBitVec, packComponents,
    BitVec.toNat_append]
  rw [← Nat.shiftLeft_add_eq_or_of_lt (BitVec.isLt _)]
  simp [Sign.toBitVec, Nat.shiftLeft_eq]
  omega

theorem unpack_pack_finite (sign : Sign) :
    (pack (.finite sign m e hp)).unpack = .finite sign m e hp := by
  have hexp : (BitVec.ofNat 11 (e + 1075).toNat).toNat = (e + 1075).toNat := by
    rw [BitVec.toNat_ofNat]
    omega
  have hne : ∀ b : BitVec 11, b.toNat = 0 ∨ b.toNat = 2047 →
      BitVec.ofNat 11 (e + 1075).toNat ≠ b := by
    rintro b hb rfl
    rw [hexp] at hb
    omega
  have hmant : (1#1 ++ BitVec.ofNat 52 m).toNat = m := by
    rw [BitVec.toNat_append, ← Nat.shiftLeft_add_eq_or_of_lt (BitVec.isLt _), BitVec.toNat_ofNat,
      Nat.shiftLeft_eq]
    simp
    omega
  simp only [Float.Model.unpack, Float.Model.pack, pack_finite hm hm' he he',
    UnpackedFloat.unpack, UInt64.toBitVec_ofBitVec, unpackMantissa_packComponents,
    unpackExponent_packComponents, unpackSign_packComponents, hne (-1#11) (.inr rfl),
    hne 0#11 (.inl rfl), if_false, hmant, hexp, Sign.ofBitVec_toBitVec]
  congr 1
  simp [Format.exponentBias]
  omega

end Normal

/-! ## Converting -/

/-- A positive number takes all 53 bits of a mantissa once it is shifted. -/
theorem exists_shift {n : Nat} (hn : 0 < n) (hn' : n < 2 ^ 53) :
    ∃ s ≤ 52, 2 ^ 52 ≤ n * 2 ^ s ∧ n * 2 ^ s < 2 ^ 53 := by
  have hlog : n.log2 ≤ 52 := by
    have := (Nat.log2_lt (by omega : n ≠ 0)).mpr hn'
    omega
  have h := (Nat.log2_eq_iff (k := 52) (n := n * 2 ^ (52 - n.log2)) (by positivity)).mp (by
    rw [log2_mul_two_pow (by omega)]
    omega)
  exact ⟨52 - n.log2, by omega, h⟩

section Convert

variable {n s : Nat} (h : 2 ^ 52 ≤ n * 2 ^ s) (h' : n * 2 ^ s < 2 ^ 53) (hs : s ≤ 52)
include h h' hs

theorem ofNat_exact :
    UnpackedFloat.ofNat Format.binary64 n = .finite .positive (n * 2 ^ s) (-s) (by omega) := by
  have hn : n ≠ 0 := by
    rintro rfl
    simp at h
  have hlog : n.log2 + s = 52 := by
    rw [← log2_mul_two_pow hn]
    exact log2_eq h h'
  have ht : Format.binary64.targetExponent (totalExponent n 0) = -s := by
    simp only [Format.targetExponent, totalExponent, Format.mantissaBits, Format.minExponent]
    norm_num
    omega
  have hround := roundWithAccuracy_exact (e := -(s : Int)) h h' (by omega) .positive 0
  rw [Nat.pow_zero, Nat.mul_one, Int.natCast_zero, Int.sub_zero] at hround
  have hpos : compare (n : Int) 0 = .gt := by
    rw [compare_gt_iff_gt]
    omega
  simp only [UnpackedFloat.ofNat, UnpackedFloat.ofInt, UnpackedFloat.normalize, hpos,
    UnpackedFloat.round, Int.toNat_natCast, ht, decreaseExponent, Int.zero_sub, Int.neg_neg, Nat.shiftLeft_eq, hround]

/-- The conversion goes through a product with one, which is no rounding either. -/
theorem toModel_ofInt (hn : n < 2 ^ 53) :
    (Float.ofInt n).toModel = pack (.finite .positive (n * 2 ^ s) (-s) (by omega)) := by
  have hword : n.toUInt64.toNat = n := by
    rw [Nat.toUInt64_eq, UInt64.toNat_ofNat']
    omega
  have hfloat : n.toUInt64.toFloat.toModel =
      pack (.finite .positive (n * 2 ^ s) (-s) (by omega)) := by
    simp only [UInt64.toFloat, Float.Model.ofUInt64, UnpackedFloat.ofUInt64, hword,
      ofNat_exact h h' hs]
  have hone : (Float.ofBits 0x3FF0000000000000).toModel.unpack =
      .finite .positive (2 ^ 52) (-(52 : Nat)) (by decide) := rfl
  have hround := roundWithAccuracy_exact h h' (by omega : -1074 ≤ -(s : Int)) (.positive * .positive)
    52
  rw [Int.sub_eq_add_neg] at hround
  have hproduct : Float.ofInt n = n.toUInt64.toFloat * Float.ofBits 0x3FF0000000000000 := by
    change Float.ofScientific n false 0 = _
    rw [Float.ofScientific, dif_pos ⟨hn, by decide⟩]
    rfl
  rw [hproduct]
  change pack (UnpackedFloat.mul Format.binary64 n.toUInt64.toFloat.toModel.unpack
    (Float.ofBits 0x3FF0000000000000).toModel.unpack) = _
  rw [hfloat, unpack_pack_finite h h' (by omega) (by omega), hone, UnpackedFloat.mul, hround]
  rfl

theorem bits_ofInt (hn : n < 2 ^ 53) :
    (ofInt n).bits.toNat = (1075 - s) * 2 ^ 52 + (n * 2 ^ s - 2 ^ 52) := by
  change (Float.ofInt n).toModel.toBits.toNat = _
  rw [toModel_ofInt h h' hs hn, toBits_pack_finite h h' (by omega) (by omega)]
  omega

end Convert

/-! ## Bits -/

theorem isNegative_eq_false_iff (d : Double) : d.isNegative = false ↔ d.bits.toNat < 2 ^ 63 := by
  have hword := d.bits.toNat_lt
  rw [isNegative, decide_eq_false_iff_not, ← UInt64.toNat_inj, UInt64.toNat_shiftRight,
    Nat.shiftRight_eq_div_pow]
  change ¬ d.bits.toNat / 2 ^ 63 = 1 ↔ _
  omega

/-- The size of a double without a sign, from its bits as a number. -/
theorem size_eq {d : Double} (h : d.bits.toNat < 2 ^ 63) :
    d.size =
      if d.bits.toNat / 2 ^ 52 = 0x7FF then
        if d.bits.toNat % 2 ^ 52 = 0 then .infinite else .notANumber
      else if d.bits.toNat / 2 ^ 52 = 0 then .finite ⟨d.bits.toNat % 2 ^ 52, -1074, false⟩
      else .finite ⟨0x10000000000000 + d.bits.toNat % 2 ^ 52, (d.bits.toNat / 2 ^ 52 : Nat) - 1075,
        d.bits.toNat % 2 ^ 52 = 0 && 1 < d.bits.toNat / 2 ^ 52⟩ := by
  have hexponent : (d.bits >>> 52 &&& 0x7FF).toNat = d.bits.toNat / 2 ^ 52 := by
    rw [UInt64.toNat_and, UInt64.toNat_shiftRight, Nat.shiftRight_eq_div_pow]
    change d.bits.toNat / 2 ^ 52 &&& 2 ^ 11 - 1 = _
    rw [Nat.and_two_pow_sub_one_eq_mod]
    omega
  have hfraction : (d.bits &&& 0xFFFFFFFFFFFFF).toNat = d.bits.toNat % 2 ^ 52 := by
    rw [UInt64.toNat_and]
    exact Nat.and_two_pow_sub_one_eq_mod _ 52
  simp only [size, hexponent, hfraction]

/-- The bits of a finite double without a sign: the number has no leading one and the least exponent,
or it has all 53 bits. -/
theorem bits_of_size {d : Double} {x : Binary} (h : d.bits.toNat < 2 ^ 63)
    (hx : d.size = .finite x) :
    (x.mantissa < 2 ^ 52 ∧ x.exponent = -1074 ∧ d.bits.toNat = x.mantissa) ∨
    ((2 ^ 52 ≤ x.mantissa ∧ x.mantissa < 2 ^ 53) ∧ -1075 < x.exponent ∧
      d.bits.toNat = (x.exponent + 1075).toNat * 2 ^ 52 + (x.mantissa - 2 ^ 52)) := by
  rw [size_eq h] at hx
  split at hx
  · split at hx <;> cases hx
  · split at hx
    · cases hx
      exact .inl ⟨by simp only; omega, rfl, by simp only; omega⟩
    · cases hx
      exact .inr ⟨by simp only; omega, by simp only; omega, by simp only; omega⟩

/-! ## One double for each number -/

theorem exponent_le_of_value_eq {m m' : Nat} {e e' : Int} (hm : m < 2 ^ 53) (hm' : 2 ^ 52 ≤ m')
    (h : (m : ℚ) * 2 ^ e = m' * 2 ^ e') : e' ≤ e := by
  by_contra hlt
  have hle : (2 : ℚ) ^ (e + 1) ≤ 2 ^ e' := zpow_le_zpow_right₀ (by norm_num) (by omega)
  have hmq : (m : ℚ) < 2 ^ 53 := by exact_mod_cast hm
  have hmq' : (2 : ℚ) ^ 52 ≤ m' := by exact_mod_cast hm'
  have hpos : (0 : ℚ) < 2 ^ e := zpow_pos (by norm_num) e
  have hvalue : (m : ℚ) * 2 ^ e < m' * 2 ^ e' := calc
    (m : ℚ) * 2 ^ e < 2 ^ 53 * 2 ^ e := mul_lt_mul_of_pos_right hmq hpos
    _ = 2 ^ 52 * 2 ^ (e + 1) := by
      rw [zpow_add_one₀ (by norm_num)]
      ring
    _ ≤ m' * 2 ^ e' := mul_le_mul hmq' hle (by positivity) (by positivity)
  exact hvalue.ne h

/-- A number has one mantissa of 53 bits. -/
theorem eq_of_value_eq {m m' : Nat} {e e' : Int} (hm : 2 ^ 52 ≤ m ∧ m < 2 ^ 53)
    (hm' : 2 ^ 52 ≤ m' ∧ m' < 2 ^ 53) (h : (m : ℚ) * 2 ^ e = m' * 2 ^ e') : m = m' ∧ e = e' := by
  obtain rfl : e = e' := le_antisymm (exponent_le_of_value_eq hm'.2 hm.1 h.symm)
    (exponent_le_of_value_eq hm.2 hm'.1 h)
  have hpos : (0 : ℚ) < 2 ^ e := zpow_pos (by norm_num) e
  exact ⟨by exact_mod_cast mul_right_cancel₀ hpos.ne' h, rfl⟩

theorem value_shift (n s : Nat) : ((n * 2 ^ s : Nat) : ℚ) * 2 ^ (-(s : Int)) = n := by
  rw [zpow_neg, zpow_natCast, Nat.cast_mul, Nat.cast_pow, Nat.cast_ofNat]
  exact mul_inv_cancel_right₀ (by positivity) _

theorem isNat_ofInt {n : Nat} (hn : n < 2 ^ 53) : IsNat (ofInt n) n := by
  rcases Nat.eq_zero_or_pos n with rfl | hpos
  · exact ⟨rfl, ⟨0, -1074, false⟩, rfl, by simp⟩
  obtain ⟨s, hs, h, h'⟩ := exists_shift hpos hn
  have hbits := bits_ofInt h h' hs hn
  have hsign : (ofInt n).bits.toNat < 2 ^ 63 := by omega
  have hsize := size_eq hsign
  rw [if_neg (by omega), if_neg (by omega)] at hsize
  refine ⟨(isNegative_eq_false_iff _).mpr hsign, _, hsize, ?_⟩
  have hm : 0x10000000000000 + (ofInt n).bits.toNat % 2 ^ 52 = n * 2 ^ s := by omega
  have he : (((ofInt n).bits.toNat / 2 ^ 52 : Nat) : Int) - 1075 = -s := by omega
  simp only [hm, he, value_shift]

/-- A natural number below 2 ^ 53 is converted to the one double that stands for it. -/
theorem isNat_iff {n : Nat} (hn : n < 2 ^ 53) (d : Double) : IsNat d n ↔ d = ofInt n := by
  constructor
  · rintro ⟨hsign, x, hx, hvalue⟩
    rw [isNegative_eq_false_iff] at hsign
    have hx := bits_of_size hsign hx
    suffices hbits : d.bits.toNat = (ofInt n).bits.toNat from
      congrArg mk (UInt64.toNat_inj.mp hbits)
    rcases Nat.eq_zero_or_pos n with rfl | hpos
    · have hpow : (2 : ℚ) ^ x.exponent ≠ 0 := zpow_ne_zero _ (by norm_num)
      have hzero : x.mantissa = 0 := by simpa [hpow] using hvalue
      change d.bits.toNat = 0
      omega
    · obtain ⟨s, hs, h, h'⟩ := exists_shift hpos hn
      rw [← value_shift n s] at hvalue
      rw [bits_ofInt h h' hs hn]
      rcases hx with ⟨hm, he, -⟩ | ⟨hm, -, hbits⟩
      · -- a number without a leading one is too small
        have := exponent_le_of_value_eq (by omega) h hvalue
        omega
      · obtain ⟨hm, he⟩ := eq_of_value_eq hm ⟨h, h'⟩ hvalue
        have hexponent : (x.exponent + 1075).toNat = 1075 - s := by omega
        rw [hbits, hm, hexponent]
  · rintro rfl
    exact isNat_ofInt hn

end PullSql.Double
