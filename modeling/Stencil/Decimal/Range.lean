import Stencil.Decimal.Shortest
/-!
# Decimals in the range of the doubles

Reading a decimal gives the double next to it, and a decimal half a step above the greatest double or farther is next to
infinity: that double has an odd mantissa, and a tie goes to the even neighbour.  `Scaled.isFinite` decides most decimals
by the place of their first digit alone, so that a great exponent costs nothing (`isFinite_iff`).
-/
namespace Stencil.Decimal

/-- Half a step above the greatest double, a number of 309 digits. -/
def finiteLimit : Nat := (2 ^ 54 - 1) * 2 ^ 970

def Scaled.isFinite (s : Scaled) : Bool :=
  let point := width s.digits + s.exponent
  if s.digits = 0 || point < 309 then true
  else if 309 < point then false
  else s.digits * 10 ^ s.exponent.toNat < finiteLimit * 10 ^ (-s.exponent).toNat

theorem finiteLimit_pos : 0 < finiteLimit := by decide +kernel

theorem pow_le_finiteLimit {k : Nat} (h : k ≤ 308) : 10 ^ k ≤ finiteLimit :=
  Nat.le_trans (Nat.pow_le_pow_right (by decide) h) (by decide +kernel)

theorem finiteLimit_le_pow {k : Nat} (h : 309 ≤ k) : finiteLimit ≤ 10 ^ k :=
  Nat.le_trans (by decide +kernel) (Nat.pow_le_pow_right (by decide) h)

theorem lt_pow_width (n : Nat) : n < 10 ^ width n :=
  (Nat.length_toDigits_le_iff (by decide) Nat.length_toDigits_pos).1 (Nat.le_refl _)

theorem pow_width_le {n : Nat} (h : n ≠ 0) : 10 ^ (width n - 1) ≤ n := by
  by_cases hw : width n = 1
  · rw [hw]; exact Nat.pos_of_ne_zero h
  · have hpos : 0 < width n := Nat.length_toDigits_pos
    refine Nat.le_of_not_lt fun hlt => ?_
    have : width n ≤ width n - 1 := (Nat.length_toDigits_le_iff (by decide) (by omega)).2 hlt
    omega

theorem Scaled.isFinite_iff (s : Scaled) :
    s.isFinite = true ↔ s.digits * 10 ^ s.exponent.toNat < finiteLimit * 10 ^ (-s.exponent).toNat := by
  have hone : ∀ k : Nat, 0 < 10 ^ k := fun k => Nat.pow_pos (by decide)
  unfold isFinite
  simp only [Bool.or_eq_true, decide_eq_true_eq]
  split
  · rename_i h
    simp only [true_iff]
    rcases h with h | h
    · rw [h, Nat.zero_mul]; exact Nat.mul_pos finiteLimit_pos (hone _)
    · calc s.digits * 10 ^ s.exponent.toNat
          < 10 ^ width s.digits * 10 ^ s.exponent.toNat := Nat.mul_lt_mul_of_pos_right (lt_pow_width _) (hone _)
        _ = 10 ^ (width s.digits + s.exponent.toNat) := (Nat.pow_add ..).symm
        _ ≤ 10 ^ (width s.digits + s.exponent.toNat - (-s.exponent).toNat + (-s.exponent).toNat) :=
          Nat.pow_le_pow_right (by decide) (by omega)
        _ = 10 ^ (width s.digits + s.exponent.toNat - (-s.exponent).toNat) * 10 ^ (-s.exponent).toNat := Nat.pow_add ..
        _ ≤ finiteLimit * 10 ^ (-s.exponent).toNat := Nat.mul_le_mul_right _ (pow_le_finiteLimit (by omega))
  · rename_i h
    simp only [not_or] at h
    split
    · simp only [Bool.false_eq_true, false_iff, Nat.not_lt]
      calc finiteLimit * 10 ^ (-s.exponent).toNat
          ≤ 10 ^ (width s.digits - 1 + s.exponent.toNat - (-s.exponent).toNat) * 10 ^ (-s.exponent).toNat :=
          Nat.mul_le_mul_right _ (finiteLimit_le_pow (by omega))
        _ = 10 ^ (width s.digits - 1 + s.exponent.toNat - (-s.exponent).toNat + (-s.exponent).toNat) :=
          (Nat.pow_add ..).symm
        _ ≤ 10 ^ (width s.digits - 1 + s.exponent.toNat) := Nat.pow_le_pow_right (by decide) (by omega)
        _ = 10 ^ (width s.digits - 1) * 10 ^ s.exponent.toNat := Nat.pow_add ..
        _ ≤ s.digits * 10 ^ s.exponent.toNat := Nat.mul_le_mul_right _ (pow_width_le h.1)
    · simp only [decide_eq_true_eq]

end Stencil.Decimal
