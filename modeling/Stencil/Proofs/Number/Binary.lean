import Mathlib
import Stencil.Proofs.Number.Overflow
/-!
# Doubles by their bits

A finite double is unpacked to the sign, mantissa and exponent that it is decoded to (`isOf_decode`), so that both stand for
one number, `Decimal.Binary.value`.  Of this is said when arithmetic on doubles overflows.  Quotients of integers do not, and
remainders, which are put together from their bits, do not either.
-/
namespace Stencil

open Float.Model Float.Model.UnpackedFloat
open Decimal (Binary finiteLimit)

def Decimal.Binary.value (b : Binary) : ℚ := (if b.negative then -(b.mantissa : ℚ) else b.mantissa) * 2 ^ b.exponent

namespace Double

/-! ## Fields -/

theorem toNat_unpackExponent (b : BitVec 64) : (@unpackExponent .binary64 b).toNat = b.toNat / 2 ^ 52 % 2 ^ 11 := by
  rw [unpackExponent, BitVec.toNat_cast, BitVec.extractLsb_toNat, Nat.shiftRight_eq_div_pow]
  rfl

theorem toNat_unpackMantissa (b : BitVec 64) : (@unpackMantissa .binary64 b).toNat = b.toNat % 2 ^ 52 := by
  rw [unpackMantissa, BitVec.toNat_cast, BitVec.extractLsb_toNat, Nat.shiftRight_zero]
  rfl

theorem toNat_unpackSign (b : BitVec 64) : (@unpackSign .binary64 b).toNat = b.toNat / 2 ^ 63 := by
  have hlt := b.isLt
  rw [unpackSign, BitVec.toNat_cast, BitVec.extractLsb_toNat, Nat.shiftRight_eq_div_pow]
  show b.toNat / 2 ^ 63 % 2 = _
  omega

/-- **A double is finite unless all bits of its exponent are set.** -/
theorem isFinite_unpack_iff (b : BitVec 64) :
    (UnpackedFloat.unpack .binary64 b).isFinite = true ↔ b.toNat / 2 ^ 52 % 2 ^ 11 ≠ 2047 := by
  rw [isFinite_unpack, ← toNat_unpackExponent, ne_eq, ne_eq, ← BitVec.toNat_inj]
  rfl

/-- An unpacked double with a sign, a mantissa and an exponent, of which a zero has any. -/
inductive IsOf (sign : Sign) (m : Nat) (e : Int) : UnpackedFloat → Prop
  | zero (hm : m = 0) : IsOf sign m e (.zero sign)
  | finite {m' : Nat} {e' : Int} {h : 0 < m'} (hm : m' = m) (he : e' = e) : IsOf sign m e (.finite sign m' e' h)

theorem isOf_unpack {b : BitVec 64} {field fraction : Nat} (hfield : b.toNat / 2 ^ 52 % 2 ^ 11 = field)
    (hfraction : b.toNat % 2 ^ 52 = fraction) (hfinite : field ≠ 2047) :
    IsOf (Sign.ofBitVec (@unpackSign .binary64 b)) (if field = 0 then fraction else 2 ^ 52 + fraction)
      (if field = 0 then -1074 else (field : Int) - 1075) (UnpackedFloat.unpack .binary64 b) := by
  have hexponent : (@unpackExponent .binary64 b).toNat = field := (toNat_unpackExponent b).trans hfield
  have hmantissa : (@unpackMantissa .binary64 b).toNat = fraction := (toNat_unpackMantissa b).trans hfraction
  have hbias : (Format.binary64.exponentBias + Format.binary64.mantissaBitsWithoutImplicit : Int) = 1075 := rfl
  have hones : @unpackExponent .binary64 b ≠ -1#11 := fun h => hfinite (hexponent ▸ congrArg BitVec.toNat h)
  rw [UnpackedFloat.unpack]
  simp only
  rw [if_neg hones, hbias]
  by_cases hfield : field = 0
  · have hzero : @unpackExponent .binary64 b = 0#11 := BitVec.toNat_inj.1 (hexponent.trans hfield)
    rw [if_pos hfield, if_pos hfield, if_pos hzero]
    split
    · rename_i hnone
      rw [hnone] at hmantissa
      exact .zero hmantissa.symm
    · refine .finite hmantissa ?_
      rw [hexponent, hfield]
      rfl
  · have hnonzero : @unpackExponent .binary64 b ≠ 0#11 := by
      intro hzero
      rw [hzero] at hexponent
      exact hfield hexponent.symm
    rw [if_neg hfield, if_neg hfield, if_neg hnonzero]
    refine .finite ?_ ?_
    · rw [← hmantissa]
      exact toNat_one_append _
    · rw [hexponent]

theorem fits_of_field {b : BitVec 64} (h : b.toNat / 2 ^ 52 % 2 ^ 11 ≠ 2047) :
    Fits (UnpackedFloat.unpack .binary64 b) := by
  have hfraction : b.toNat % 2 ^ 52 < 2 ^ 52 := Nat.mod_lt _ (by decide)
  have hfields := isOf_unpack rfl rfl h
  generalize UnpackedFloat.unpack .binary64 b = u at *
  cases hfields with
  | zero hm => exact .zero _
  | finite hm he =>
    split at hm
    · rename_i hfield
      rw [if_pos hfield] at he
      exact .finite (by omega) (by omega) (by omega) (by omega)
    · rename_i hfield
      rw [if_neg hfield] at he
      exact .finite (by omega) (by omega) (by omega) (by omega)

theorem field_ne_of_isFinite {x : Float} (h : x.isFinite = true) : x.toBits.toNat / 2 ^ 52 % 2 ^ 11 ≠ 2047 :=
  (isFinite_unpack_iff x.toBits.toBitVec).1 h

theorem fits_unpack {x : Float} (h : x.isFinite = true) : Fits x.toModel.unpack :=
  fits_of_field (field_ne_of_isFinite h)

theorem ofBitVec_eq (b : BitVec 1) : Sign.ofBitVec b = if b.toNat == 1 then .negative else .positive := by
  obtain rfl | rfl : b = 0#1 ∨ b = 1#1 := by
    have hlt := b.isLt
    rw [← BitVec.toNat_inj, ← BitVec.toNat_inj]
    show b.toNat = 0 ∨ b.toNat = 1
    omega
  · rfl
  · rfl

theorem isOf_decode {x : Float} (h : x.isFinite = true) :
    IsOf (if (Binary.decode x).negative then .negative else .positive) (Binary.decode x).mantissa
      (Binary.decode x).exponent x.toModel.unpack := by
  have hfields := isOf_unpack (b := x.toBits.toBitVec) rfl rfl (field_ne_of_isFinite h)
  rw [ofBitVec_eq, toNat_unpackSign] at hfields
  exact hfields

theorem value_unpack {x : Float} (h : x.isFinite = true) : value x.toModel.unpack = (Binary.decode x).value := by
  have hx := isOf_decode h
  rw [Binary.value]
  generalize x.toModel.unpack = u at *
  cases hx with
  | zero hzero =>
    rw [value_zero, hzero, Nat.cast_zero, neg_zero, ite_self, zero_mul]
  | finite hm' he' =>
    subst hm' he'
    rw [value]
    split
    · rw [Sign.apply, Int.cast_neg, Int.cast_natCast]
    · rw [Sign.apply, Int.cast_natCast]

/-! ## Arithmetic -/

variable {x y : Float}

theorem isFinite_add (hx : x.isFinite = true) (hy : y.isFinite = true) :
    (x + y).isFinite = true ↔ |(Binary.decode x).value + (Binary.decode y).value| < finiteLimit := by
  rw [← value_unpack hx, ← value_unpack hy]
  exact isFinite_pack_add (fits_unpack hx) (fits_unpack hy)

theorem isFinite_sub (hx : x.isFinite = true) (hy : y.isFinite = true) :
    (x - y).isFinite = true ↔ |(Binary.decode x).value - (Binary.decode y).value| < finiteLimit := by
  rw [← value_unpack hx, ← value_unpack hy]
  exact isFinite_pack_sub (fits_unpack hx) (fits_unpack hy)

theorem isFinite_mul (hx : x.isFinite = true) (hy : y.isFinite = true) :
    (x * y).isFinite = true ↔ |(Binary.decode x).value * (Binary.decode y).value| < finiteLimit := by
  rw [← value_unpack hx, ← value_unpack hy]
  exact isFinite_pack_mul (fits_unpack hx) (fits_unpack hy)

theorem isFinite_div (hx : x.isFinite = true) (hy : y.isFinite = true) (hne : (Binary.decode y).value ≠ 0) :
    (x / y).isFinite = true ↔ |(Binary.decode x).value / (Binary.decode y).value| < finiteLimit := by
  rw [← value_unpack hy] at hne
  rw [← value_unpack hx, ← value_unpack hy]
  exact isFinite_pack_div (fits_unpack hx) (fits_unpack hy) hne

theorem value_eq_zero_iff (hx : x.isFinite = true) : (x == 0) = true ↔ (Binary.decode x).value = 0 := by
  rw [beq_iff_compare, ← value_unpack hx]
  have hu := fits_unpack hx
  have hzero : (0 : Float).toModel.unpack = .zero .positive := by rfl
  rw [hzero]
  generalize x.toModel.unpack = u at *
  cases hu with
  | zero sign => exact iff_of_true rfl rfl
  | @finite sign m e h hm hleast hgreat hfull =>
    refine iff_of_false (fun hcompare => ?_) (fun hvalue => ?_)
    · cases sign <;> cases hcompare
    · have habs := abs_value_finite sign m e h
      rw [hvalue, abs_zero] at habs
      exact (by positivity : (m : ℚ) * 2 ^ e ≠ 0) habs.symm

theorem isFinite_ofBits {n : Nat} (hlt : n < 2 ^ 64) (h : n / 2 ^ 52 % 2 ^ 11 ≠ 2047) :
    (Float.ofBits (UInt64.ofNat n)).isFinite = true := by
  have hn : (UInt64.ofNat n).toBitVec.toNat = n := Nat.mod_eq_of_lt hlt
  have hfits : Fits (UnpackedFloat.unpack .binary64 (UInt64.ofNat n).toBitVec) := fits_of_field (by rwa [hn])
  exact (hfits.isFinite_pack_iff rfl).2 hfits.abs_value_lt

theorem isFinite_encode {b : Binary} (h : b.exponent ≤ 971) : b.encode.isFinite = true := by
  obtain ⟨shift, hshift⟩ : ∃ shift, min (52 - b.mantissa.log2) (b.exponent + 1074).toNat = shift := ⟨_, rfl⟩
  rw [Binary.encode]
  simp only [hshift]
  have hmod : b.mantissa * 2 ^ shift % 2 ^ 52 < 2 ^ 52 := Nat.mod_lt _ (by decide)
  refine isFinite_ofBits ?_ ?_
  · split <;> split <;> omega
  · split <;> split <;> omega

theorem isFinite_remainder (hx : x.isFinite = true) : (Decimal.remainder x y).isFinite = true := by
  have hgreat : (Binary.decode x).exponent ≤ 971 := by
    have hne := field_ne_of_isFinite hx
    simp only [Binary.decode]
    split <;> omega
  exact isFinite_encode (Int.le_trans (Int.min_le_left _ _) hgreat)

/-! ## Integers -/

theorem IsExactly.isFinite {u : UnpackedFloat} {n : Int} (h : IsExactly u n) : u.isFinite = true := by
  cases h <;> rfl

theorem IsExactly.value_eq {u : UnpackedFloat} {n : Int} (h : IsExactly u n) : value u = n := by
  cases h with
  | zero sign => exact Int.cast_zero.symm
  | @finite sign m i e _ h hm hi he hn =>
    have hcast : (n : ℚ) * 2 ^ 52 = (sign.apply m : Int) * 2 ^ i := by
      rw [← apply_mul] at hn
      exact_mod_cast hn
    rw [value, he, zpow_sub₀ (by norm_num), zpow_natCast, ← mul_div_assoc, ← hcast]
    norm_num

theorem isFinite_ofInt {n : Int} (h : n.natAbs < 2 ^ 65) : (Float.ofInt n).isFinite = true := (isExactly_ofInt h).isFinite

theorem value_ofInt {n : Int} (h : n.natAbs < 2 ^ 65) : (Binary.decode (Float.ofInt n)).value = rounded n := by
  rw [← value_unpack (isFinite_ofInt h), (isExactly_ofInt h).value_eq]

theorem isFinite_div_ofInt {a b : Int} (ha : a.natAbs < 2 ^ 65) (hb : b.natAbs < 2 ^ 65) (hne : b ≠ 0) :
    (Float.ofInt a / Float.ofInt b).isFinite = true := by
  have hdivisor : 0 < (rounded b).natAbs := by
    rw [natAbs_rounded]
    exact nearest_pos (Int.natAbs_pos.2 hne)
  have hdividend : (rounded a).natAbs < finiteLimit := by
    have hle := nearest_le a.natAbs
    rw [natAbs_rounded]
    exact Nat.lt_of_lt_of_le (by omega : nearest a.natAbs < 2 ^ 66) (by decide +kernel)
  have hcast : ∀ n : Int, |(n : ℚ)| = n.natAbs := fun n => by rw [Nat.cast_natAbs, Int.cast_abs]
  have hvalue : (Binary.decode (Float.ofInt b)).value ≠ 0 := by
    rw [value_ofInt hb]
    exact_mod_cast Int.natAbs_pos.1 hdivisor
  rw [isFinite_div (isFinite_ofInt ha) (isFinite_ofInt hb) hvalue, value_ofInt ha, value_ofInt hb, abs_div, hcast, hcast]
  calc
    ((rounded a).natAbs : ℚ) / (rounded b).natAbs ≤ (rounded a).natAbs :=
      div_le_self (Nat.cast_nonneg _) (Nat.one_le_cast.2 hdivisor)
    _ < finiteLimit := Nat.cast_lt.2 hdividend

end Double
end Stencil
