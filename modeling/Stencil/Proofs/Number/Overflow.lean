import Mathlib
import Stencil.Decimal.Range
import Stencil.Proofs.Number.Doubles
/-!
# Overflow

Rounding knows no greatest exponent, and what has a greater one than a double has room for is packed as an infinity
(`isFinite_pack`).  So a rounded number is finite if it was below the limit exactly, before it was rounded: a mantissa that
the last exponent has room for may still become a power of two that it has not (`isFinite_pack_quotient`).  Of two doubles
the sum, difference, product and quotient are rounded from the exact ones, and are finite if these are below the limit.
-/
namespace Stencil.Double

open Float.Model Float.Model.UnpackedFloat
open Decimal (finiteLimit)

/-! ## Packing -/

theorem isFinite_unpack (b : BitVec 64) :
    (UnpackedFloat.unpack .binary64 b).isFinite = true ↔ @unpackExponent .binary64 b ≠ -1#11 := by
  unfold UnpackedFloat.unpack
  simp only
  split
  · rename_i h
    refine iff_of_false (fun hfinite => ?_) (fun hne => hne h)
    split at hfinite <;> cases hfinite
  · rename_i h
    refine iff_of_true ?_ h
    split
    · split <;> rfl
    · rfl

/-- **A double is packed as finite just if its exponent is not too large.** -/
theorem isFinite_pack {sign : Sign} {m : Nat} {e : Int} {h : 0 < m} :
    (Float.Model.pack (.finite sign m e h)).unpack.isFinite = true ↔ e ≤ 971 := by
  obtain ⟨b, hb⟩ : ∃ b, (e + 1075).toNat = b := ⟨_, rfl⟩
  have h1023 : (Format.binary64.exponentBias : Int) = 1023 := rfl
  have h52 : (Format.binary64.mantissaBitsWithoutImplicit : Int) = 52 := rfl
  have hbits : 2 ^ Format.binary64.exponentBits = 2048 := rfl
  have hbias : (e + Format.binary64.exponentBias + Format.binary64.mantissaBitsWithoutImplicit).toNat = b := by omega
  show (UnpackedFloat.unpack .binary64 (UnpackedFloat.pack .binary64 _)).isFinite = true ↔ _
  rw [isFinite_unpack, UnpackedFloat.pack]
  simp only [hbias]
  split
  · rename_i hlarge
    refine iff_of_false (fun hne => hne ?_) (by omega)
    rw [packedInfinity, unpackExponent_packComponents]
  · rename_i hsmall
    refine iff_of_true ?_ (by omega)
    split
    · rw [unpackExponent_packComponents]
      intro hones
      have hfield : (BitVec.ofNat 11 b).toNat = 2047 := congrArg BitVec.toNat hones
      rw [BitVec.toNat_ofNat] at hfield
      omega
    · rw [unpackExponent_packComponents]
      exact fun hones => absurd hones (by decide)

/-! ## Rounding -/

theorem quotient_bounds {n d k : Nat} {e : Int} (hd : 0 < d) (he : 52 ≤ (n / d).log2 ∨ e ≤ -1074)
    (hk : (max ((n / d).log2 + e - 52) (-1074) - e).toNat = k) :
    -1074 ≤ e + k ∧ n < 2 ^ 53 * (d * 2 ^ k) ∧ (-1074 < e + k → 2 ^ 52 * (d * 2 ^ k) ≤ n) := by
  have hpos : 0 < d * 2 ^ k := Nat.mul_pos hd (Nat.two_pow_pos k)
  refine ⟨by omega, ?_, fun hleast => ?_⟩
  · rw [← Nat.div_lt_iff_lt_mul hpos, ← Nat.div_div_eq_div_mul, Nat.div_lt_iff_lt_mul (Nat.two_pow_pos k),
      ← Nat.pow_add]
    exact Nat.lt_of_lt_of_le Nat.lt_log2_self (Nat.pow_le_pow_right (by decide) (by omega))
  · have hne : n / d ≠ 0 := by
      intro hzero
      rw [hzero] at he hk
      have hlog : Nat.log2 0 = 0 := rfl
      omega
    rw [← Nat.le_div_iff_mul_le hpos, ← Nat.div_div_eq_div_mul, Nat.le_div_iff_mul_le (Nat.two_pow_pos k),
      ← Nat.pow_add]
    exact Nat.le_trans (Nat.pow_le_pow_right (by decide) (by omega)) (Nat.log2_self_le hne)

theorem nearestQuotient_le_of_lt {n d b : Nat} (hd : 0 < d) (h : n < b * d) : nearestQuotient n d ≤ b :=
  Nat.le_trans (nearestQuotient_le n d) ((Nat.div_lt_iff_lt_mul hd).2 h)

/-- A quotient below a power of two is rounded to it from half a step below on; there the last mantissa is odd. -/
theorem nearestQuotient_eq_iff {n d : Nat} (hd : 0 < d) (h : n < 2 ^ 53 * d) :
    nearestQuotient n d = 2 ^ 53 ↔ (2 ^ 54 - 1) * d ≤ 2 * n := by
  have hlt : n / d < 2 ^ 53 := (Nat.div_lt_iff_lt_mul hd).2 h
  have hmod := Nat.mod_lt n hd
  have hn := Nat.div_add_mod n d
  obtain hq | hq : n / d = 2 ^ 53 - 1 ∨ n / d ≤ 2 ^ 53 - 2 := by omega
  · have hodd : (2 ^ 53 - 1) % 2 = 1 := by decide
    unfold nearestQuotient
    rw [hq] at hn ⊢
    split
    · omega
    · split <;> omega
  · have hle := nearestQuotient_le n d
    have hmul : d * (n / d) ≤ d * (2 ^ 53 - 2) := Nat.mul_le_mul_left d hq
    omega

/-- A rounded quotient is finite if it is zero or its exponent fits, which is one more where the mantissa has become a power
of two. -/
theorem isFinite_pack_roundWithAccuracy {n d k : Nat} {e : Int} (sign : Sign) (hd : 0 < d)
    (he : 52 ≤ (n / d).log2 ∨ e ≤ -1074) (hk : (max ((n / d).log2 + e - 52) (-1074) - e).toNat = k) :
    (Float.Model.pack
      (roundWithAccuracy .binary64 sign (n / d) e (accuracyOfFraction (n % d) d))).unpack.isFinite = true ↔
      nearestQuotient n (d * 2 ^ k) = 0 ∨
        e + k ≤ 971 ∧ (nearestQuotient n (d * 2 ^ k) = 2 ^ 53 → e + k ≤ 970) := by
  have hpos : 0 < d * 2 ^ k := Nat.mul_pos hd (Nat.two_pow_pos k)
  obtain ⟨hleast, hupper, -⟩ := quotient_bounds hd he hk
  have hrounded := ((holds_accuracyOfFraction n hd).shiftRight hd k).roundedMantissa hpos
  have hle := nearestQuotient_le_of_lt hpos hupper
  generalize nearestQuotient n (d * 2 ^ k) = r at *
  obtain ⟨j, hj⟩ : ∃ j, (max ((r.log2 : Int) + (e + k) - 52) (-1074) - (e + k)).toNat = j := ⟨_, rfl⟩
  have hmantissa := (holds_shiftRight r j).mantissa
  rw [roundWithAccuracy, shiftToTargetExponent_eq hk]
  simp only [hrounded, shiftToTargetExponent_eq hj, hmantissa]
  obtain hlt | rfl := Nat.lt_or_eq_of_le hle
  · have hlog : r.log2 ≤ 52 := by
      obtain rfl | hpos := Nat.eq_zero_or_pos r
      · decide
      · exact Nat.le_of_lt_succ ((Nat.log2_lt (Nat.ne_of_gt hpos)).2 hlt)
    have hzero : j = 0 := by omega
    subst hzero
    simp only [Nat.pow_zero, Nat.div_one]
    split
    · rename_i hr
      rw [unpack_pack_zero]
      exact iff_of_true rfl (.inl hr)
    · rename_i hr
      rw [isFinite_pack]
      omega
  · -- the carry into a 54th bit is dropped again, and the exponent is one more for it
    have hlog : Nat.log2 (2 ^ 53) = 53 := Nat.log2_two_pow
    have hone : j = 1 := by omega
    subst hone
    rw [dif_neg (by decide), isFinite_pack]
    omega

theorem scaled_lt_finiteLimit (q : ℚ) (e : ℤ) : q * 2 ^ e < finiteLimit ↔ q < (2 ^ 54 - 1) * 2 ^ (970 - e) := by
  obtain ⟨k, hk⟩ : ∃ k, k = 970 := ⟨_, rfl⟩
  have hlimit : (finiteLimit : ℚ) = (2 ^ 54 - 1) * 2 ^ (k : ℤ) := by
    have hodd : ((2 ^ 54 - 1 : ℕ) : ℚ) = 2 ^ 54 - 1 := by norm_num
    rw [finiteLimit, ← hk, Nat.cast_mul, hodd, Nat.cast_pow, Nat.cast_ofNat, zpow_natCast]
  rw [hlimit, ← lt_div_iff₀ (by positivity), mul_div_assoc, ← zpow_sub₀ (by norm_num), hk]
  rfl

theorem quotient_mul_two_pow (n : Nat) {d : Nat} (e : Int) (k : Nat) :
    (n / d : ℚ) * 2 ^ e = (n / (d * 2 ^ k : Nat) : ℚ) * 2 ^ (e + k) := by
  have hpow : (2 : ℚ) ^ (k : ℤ) ≠ 0 := by positivity
  rw [Nat.cast_mul, Nat.cast_pow, Nat.cast_ofNat, ← zpow_natCast, zpow_add₀ (by norm_num)]
  field_simp

/-- **A rounded quotient is finite if it was below the limit before.** -/
theorem isFinite_pack_quotient {n d : Nat} {e : Int} (sign : Sign) (hd : 0 < d) (he : 52 ≤ (n / d).log2 ∨ e ≤ -1074) :
    (Float.Model.pack
      (roundWithAccuracy .binary64 sign (n / d) e (accuracyOfFraction (n % d) d))).unpack.isFinite = true ↔
      (n / d : ℚ) * 2 ^ e < finiteLimit := by
  obtain ⟨k, hk⟩ : ∃ k, (max ((n / d).log2 + e - 52) (-1074) - e).toNat = k := ⟨_, rfl⟩
  have hpos : 0 < d * 2 ^ k := Nat.mul_pos hd (Nat.two_pow_pos k)
  obtain ⟨-, hupper, hlower⟩ := quotient_bounds hd he hk
  rw [isFinite_pack_roundWithAccuracy sign hd he hk, quotient_mul_two_pow n e k, scaled_lt_finiteLimit]
  generalize d * 2 ^ k = D at *
  have hD : (0 : ℚ) < D := Nat.cast_pos.2 hpos
  obtain hsmall | hlast | hlarge : e + k ≤ 970 ∨ e + k = 971 ∨ 972 ≤ e + k := by omega
  · -- there is room even for a mantissa that has become a power of two
    have hbound : (n / D : ℚ) < 2 ^ 53 := by
      rw [div_lt_iff₀ hD]
      exact_mod_cast hupper
    have hpow : (1 : ℚ) ≤ 2 ^ (970 - (e + k)) := one_le_zpow₀ (by norm_num) (by omega)
    refine iff_of_true (.inr ⟨by omega, fun _ => hsmall⟩) (hbound.trans_le ?_)
    linarith
  · -- there is room unless the mantissa becomes a power of two
    have hcarry := nearestQuotient_eq_iff hpos hupper
    have hhalf : (2 : ℚ) ^ (970 - (e + k)) = 1 / 2 := by
      rw [hlast]
      norm_num
    have hcast : (n / D : ℚ) < (2 ^ 54 - 1) * (1 / 2) ↔ 2 * n < (2 ^ 54 - 1) * D := by
      rw [div_lt_iff₀ hD, mul_right_comm, mul_one_div, lt_div_iff₀ (by norm_num), mul_comm (n : ℚ) 2]
      norm_num
      exact_mod_cast Iff.rfl
    rw [hhalf, hcast]
    omega
  · -- there is no room for a mantissa of 53 bits
    have hnear := le_nearestQuotient n D
    have hfull : 2 ^ 52 ≤ n / D := (Nat.le_div_iff_mul_le hpos).2 (hlower (by omega))
    have hbound : (2 ^ 52 : ℚ) ≤ n / D := by
      rw [le_div_iff₀ hD]
      exact_mod_cast hlower (by omega)
    have hquarter : (2 : ℚ) ^ (-2 : ℤ) = 1 / 4 := by norm_num
    have hpow : (2 : ℚ) ^ (970 - (e + k)) ≤ 1 / 4 := hquarter ▸ zpow_le_zpow_right₀ (by norm_num) (by omega)
    refine iff_of_false (by omega) (not_lt.2 ?_)
    linarith

theorem isFinite_pack_exact {m : Nat} {e : Int} (sign : Sign) (he : 52 ≤ m.log2 ∨ e ≤ -1074) :
    (Float.Model.pack (roundWithAccuracy .binary64 sign m e .exact)).unpack.isFinite = true ↔
      (m : ℚ) * 2 ^ e < finiteLimit := by
  have haccuracy : accuracyOfFraction (m % 1) 1 = .exact := by rw [Nat.mod_one]; rfl
  have h := isFinite_pack_quotient (n := m) sign Nat.one_pos (by rwa [Nat.div_one])
  rwa [Nat.div_one, haccuracy, Nat.cast_one, div_one] at h

theorem shifted_value (m : Nat) (e : Int) (k : Nat) : ((m * 2 ^ k : Nat) : ℚ) * 2 ^ (e - k) = (m : ℚ) * 2 ^ e := by
  rw [Nat.cast_mul, Nat.cast_pow, Nat.cast_ofNat, mul_assoc, ← zpow_natCast, ← zpow_add₀ (by norm_num),
    add_sub_cancel]

theorem isFinite_pack_round {m : Nat} {e : Int} (sign : Sign) (hm : m ≠ 0) :
    (Float.Model.pack (UnpackedFloat.round .binary64 sign m e)).unpack.isFinite = true ↔
      (m : ℚ) * 2 ^ e < finiteLimit := by
  obtain ⟨k, hk⟩ : ∃ k, (e - Format.binary64.targetExponent (totalExponent m e)).toNat = k := ⟨_, rfl⟩
  have hroom : 52 ≤ (m * 2 ^ k).log2 ∨ e - k ≤ -1074 := by
    rw [targetExponent_eq, totalExponent] at hk
    rw [log2_mul_two_pow hm]
    omega
  rw [UnpackedFloat.round, decreaseExponent, hk]
  simp only [Nat.shiftLeft_eq]
  rw [isFinite_pack_exact sign hroom, shifted_value]

theorem isFinite_pack_normalize (n e : Int) (sign : Sign) :
    (Float.Model.pack (UnpackedFloat.normalize .binary64 n e sign)).unpack.isFinite = true ↔
      |(n : ℚ) * 2 ^ e| < finiteLimit := by
  have habs : |(n : ℚ) * 2 ^ e| = (n.natAbs : ℚ) * 2 ^ e := by
    rw [abs_mul, abs_of_pos (show (0 : ℚ) < 2 ^ e by positivity), Nat.cast_natAbs, Int.cast_abs]
  rw [UnpackedFloat.normalize, habs]
  obtain hneg | rfl | hpos := Int.lt_trichotomy n 0
  · have hnat : (-n).toNat = n.natAbs := by omega
    rw [Std.compare_eq_lt.2 hneg]
    simp only [hnat]
    exact isFinite_pack_round .negative (by omega)
  · have hlimit : (0 : ℚ) < finiteLimit := Nat.cast_pos.2 Decimal.finiteLimit_pos
    rw [Std.compare_self]
    simp only [unpack_pack_zero]
    refine iff_of_true rfl ?_
    rwa [Int.natAbs_zero, Nat.cast_zero, zero_mul]
  · have hnat : n.toNat = n.natAbs := by omega
    rw [Std.compare_eq_gt.2 hpos]
    simp only [hnat]
    exact isFinite_pack_round .positive (by omega)

/-! ## Arithmetic -/

/-- The number that a finite double is, and zero for any other. -/
def value : UnpackedFloat → ℚ
  | .finite sign m e _ => (sign.apply m : Int) * 2 ^ e
  | _ => 0

/-- Zero, or a mantissa and an exponent that a double has room for. -/
inductive Fits : UnpackedFloat → Prop
  | zero (sign : Sign) : Fits (.zero sign)
  | finite {sign : Sign} {m : Nat} {e : Int} {h : 0 < m} (hm : m < 2 ^ 53) (hleast : -1074 ≤ e) (hgreat : e ≤ 971)
      (hfull : 2 ^ 52 ≤ m ∨ e = -1074) : Fits (.finite sign m e h)

theorem Fits.neg {u : UnpackedFloat} (h : Fits u) : Fits u.neg := by
  cases h with
  | zero sign => exact .zero _
  | finite hm hleast hgreat hfull => exact .finite hm hleast hgreat hfull

theorem value_zero (sign : Sign) : value (.zero sign) = 0 := rfl

theorem abs_value_finite (sign : Sign) (m : Nat) (e : Int) (h : 0 < m) :
    |value (.finite sign m e h)| = (m : ℚ) * 2 ^ e := by
  have hsign : |((sign.apply m : Int) : ℚ)| = m := by cases sign <;> simp [Sign.apply]
  rw [value, abs_mul, hsign, abs_of_pos (show (0 : ℚ) < 2 ^ e by positivity)]

theorem Fits.value_neg {u : UnpackedFloat} (h : Fits u) : value u.neg = -value u := by
  cases h with
  | zero sign => exact neg_zero.symm
  | @finite sign m e h hm hleast hgreat hfull =>
    cases sign with
    | negative => rw [UnpackedFloat.neg, value, value, Sign.apply, Int.cast_neg, neg_mul, neg_neg]; rfl
    | positive => rw [UnpackedFloat.neg, value, value, ← neg_mul, ← Int.cast_neg]; rfl

theorem Fits.abs_value_lt {u : UnpackedFloat} (h : Fits u) : |value u| < finiteLimit := by
  cases h with
  | zero sign =>
    rw [value_zero, abs_zero]
    exact Nat.cast_pos.2 Decimal.finiteLimit_pos
  | @finite sign m e h hm hleast hgreat hfull =>
    have hm' : (m : ℚ) + 1 ≤ 2 ^ 53 := by exact_mod_cast hm
    have hhalf : (2 : ℚ) ^ (-1 : ℤ) = 1 / 2 := by norm_num
    have hpow : (1 / 2 : ℚ) ≤ 2 ^ (970 - e) := hhalf ▸ zpow_le_zpow_right₀ (by norm_num) (by omega)
    rw [abs_value_finite, scaled_lt_finiteLimit]
    linarith

theorem Fits.isFinite_pack_iff {u : UnpackedFloat} {q : ℚ} (h : Fits u) (hq : value u = q) :
    (Float.Model.pack u).unpack.isFinite = true ↔ |q| < finiteLimit := by
  refine iff_of_true ?_ (hq ▸ h.abs_value_lt)
  cases h with
  | zero sign =>
    rw [unpack_pack_zero]
    rfl
  | finite hm hleast hgreat hfull => exact isFinite_pack.2 hgreat

theorem isFinite_pack_mul {u v : UnpackedFloat} (hu : Fits u) (hv : Fits v) :
    (Float.Model.pack (UnpackedFloat.mul .binary64 u v)).unpack.isFinite = true ↔ |value u * value v| < finiteLimit := by
  cases hu with
  | zero s =>
    rw [value_zero, zero_mul]
    cases hv with
    | zero s' => exact (Fits.zero _).isFinite_pack_iff rfl
    | finite => exact (Fits.zero _).isFinite_pack_iff rfl
  | @finite s m e h hm hleast hgreat hfull =>
    cases hv with
    | zero s' =>
      rw [value_zero, mul_zero]
      exact (Fits.zero _).isFinite_pack_iff rfl
    | @finite s' m' e' h' hm' hleast' hgreat' hfull' =>
      -- a mantissa that is not full has the least exponent
      have hroom : 52 ≤ (m * m').log2 ∨ e + e' ≤ -1074 := by
        rw [Nat.le_log2 (Nat.ne_of_gt (Nat.mul_pos h h'))]
        have hle := Nat.le_mul_of_pos_right m h'
        have hle' := Nat.le_mul_of_pos_left m' h
        omega
      rw [UnpackedFloat.mul, isFinite_pack_exact _ hroom, abs_mul, abs_value_finite, abs_value_finite, Nat.cast_mul,
        zpow_add₀ (by norm_num), mul_mul_mul_comm]

theorem value_decreaseExponent (sign : Sign) (m : Nat) {e e' : Int} (h : 0 < m) (he : e' ≤ e) :
    ((sign.apply (decreaseExponent m e e').1 : Int) : ℚ) * 2 ^ e' = value (.finite sign m e h) := by
  obtain ⟨k, hk⟩ : ∃ k, (e - e').toNat = k := ⟨_, rfl⟩
  have hshift : ((m * 2 ^ k : Nat) : ℚ) * 2 ^ e' = m * 2 ^ e := by
    rw [← shifted_value m e k]
    congr 2
    omega
  simp only [decreaseExponent, hk, Nat.shiftLeft_eq, value]
  cases sign with
  | positive => exact hshift
  | negative =>
    simp only [Sign.apply, Int.cast_neg, neg_mul, neg_inj]
    exact hshift

theorem isFinite_pack_add {u v : UnpackedFloat} (hu : Fits u) (hv : Fits v) :
    (Float.Model.pack (UnpackedFloat.add .binary64 u v)).unpack.isFinite = true ↔ |value u + value v| < finiteLimit := by
  have hu' := hu
  have hv' := hv
  cases hu with
  | zero s =>
    rw [value_zero, zero_add]
    cases hv with
    | zero s' => cases s <;> cases s' <;> exact (Fits.zero _).isFinite_pack_iff rfl
    | finite => exact hv'.isFinite_pack_iff rfl
  | @finite s m e h hm hleast hgreat hfull =>
    cases hv with
    | zero s' =>
      rw [value_zero, add_zero]
      exact hu'.isFinite_pack_iff rfl
    | @finite s' m' e' h' hm' hleast' hgreat' hfull' =>
      simp only [UnpackedFloat.add]
      rw [isFinite_pack_normalize, Int.cast_add, add_mul, value_decreaseExponent s m h (min_le_left e e'),
        value_decreaseExponent s' m' h' (min_le_right e e')]

theorem Fits.sub_eq {u v : UnpackedFloat} (hu : Fits u) (hv : Fits v) :
    UnpackedFloat.sub .binary64 u v = UnpackedFloat.add .binary64 u v.neg := by
  cases hu with
  | zero s => cases hv <;> rfl
  | finite =>
    cases hv with
    | zero s' => rfl
    | @finite s' =>
      simp only [UnpackedFloat.add, UnpackedFloat.sub, UnpackedFloat.neg, Int.sub_eq_add_neg]
      cases s' with
      | positive => rfl
      | negative => simp only [Sign.apply, Int.neg_neg]

theorem isFinite_pack_sub {u v : UnpackedFloat} (hu : Fits u) (hv : Fits v) :
    (Float.Model.pack (UnpackedFloat.sub .binary64 u v)).unpack.isFinite = true ↔ |value u - value v| < finiteLimit := by
  rw [hu.sub_eq hv, isFinite_pack_add hu hv.neg, hv.value_neg, sub_eq_add_neg]

theorem le_log2_div {m m' k : Nat} (h : 0 < m) (h' : 0 < m') (hk : m'.log2 + 53 ≤ m.log2 + k) :
    52 ≤ (m * 2 ^ k / m').log2 := by
  have hle : 2 ^ 52 ≤ m * 2 ^ k / m' := by
    rw [Nat.le_div_iff_mul_le h']
    calc
      2 ^ 52 * m' ≤ 2 ^ 52 * 2 ^ (m'.log2 + 1) := Nat.mul_le_mul_left _ (Nat.le_of_lt Nat.lt_log2_self)
      _ = 2 ^ (m'.log2 + 53) := by rw [← Nat.pow_add]; congr 1; omega
      _ ≤ 2 ^ (m.log2 + k) := Nat.pow_le_pow_right (by decide) hk
      _ ≤ m * 2 ^ k := by rw [Nat.pow_add]; exact Nat.mul_le_mul_right _ (Nat.log2_self_le (Nat.ne_of_gt h))
  exact (Nat.le_log2 (Nat.ne_of_gt (Nat.lt_of_lt_of_le (Nat.two_pow_pos 52) hle))).2 hle

theorem isFinite_pack_div {u v : UnpackedFloat} (hu : Fits u) (hv : Fits v) (hne : value v ≠ 0) :
    (Float.Model.pack (UnpackedFloat.div .binary64 u v)).unpack.isFinite = true ↔ |value u / value v| < finiteLimit := by
  cases hv with
  | zero s' => exact absurd (value_zero s') hne
  | @finite s' m' e' h' hm' hleast' hgreat' hfull' =>
    cases hu with
    | zero s =>
      rw [value_zero, zero_div]
      exact (Fits.zero _).isFinite_pack_iff rfl
    | @finite s m e h hm hleast hgreat hfull =>
      obtain ⟨target, htarget⟩ : ∃ target,
        min (e - e') (Format.binary64.targetExponent (totalExponent m e - totalExponent m' e')) = target := ⟨_, rfl⟩
      obtain ⟨k, hk⟩ : ∃ k, (e - e' - target).toNat = k := ⟨_, rfl⟩
      -- the dividend is shifted until it has so many, or until the exponent is the least
      have hroom : 52 ≤ (m * 2 ^ k / m').log2 ∨ target ≤ -1074 := by
        rw [targetExponent_eq, totalExponent, totalExponent] at htarget
        obtain hfar | hnear : m'.log2 + 53 ≤ m.log2 + k ∨ target ≤ -1074 := by omega
        · exact .inl (le_log2_div h h' hfar)
        · exact .inr hnear
      have hexponent : target = e - e' - k := by omega
      have hvalue : (m * 2 ^ k : Nat) / (m' : ℚ) * 2 ^ target = (m * 2 ^ e) / (m' * 2 ^ e') := by
        rw [hexponent, div_mul_eq_mul_div, shifted_value, zpow_sub₀ (by norm_num), ← mul_div_assoc, div_div,
          mul_comm (2 ^ e')]
      rw [UnpackedFloat.div, divCore]
      simp only [htarget, hk, Nat.shiftLeft_eq]
      rw [isFinite_pack_quotient _ h' hroom, hvalue, abs_div, abs_value_finite, abs_value_finite]

end Stencil.Double
