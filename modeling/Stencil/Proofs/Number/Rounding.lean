import Mathlib
import Stencil.Number
/-!
# Rounding to doubles

A natural number is rounded to 53 significant bits (`Double.nearest`): to the nearest number that has no more, and of two
equally near ones to the one whose last bit is even.  This keeps the order (`nearest_mono`), and it is what the rounding of
doubles does (`roundWithAccuracy_exact`), though that sees of what it drops only a round bit and a sticky bit (`Holds`).
-/
namespace Stencil

open Float.Model Float.Model.UnpackedFloat

theorem compare_congr {α β : Type} [LE α] [LT α] [Ord α] [Std.LawfulOrderOrd α] [Std.LawfulOrderLT α] [LE β] [LT β] [Ord β]
    [Std.LawfulOrderOrd β] [Std.LawfulOrderLT β] {a b : α} {x y : β} (h : a < b ↔ x < y) (h' : b < a ↔ y < x) :
    compare a b = compare x y := by
  cases hab : compare a b with
  | lt => exact (Std.compare_eq_lt.2 (h.1 (Std.compare_eq_lt.1 hab))).symm
  | gt => exact (Std.compare_eq_gt.2 (h'.1 (Std.compare_eq_gt.1 hab))).symm
  | eq =>
    cases hxy : compare x y with
    | lt => rw [Std.compare_eq_lt.2 (h.2 (Std.compare_eq_lt.1 hxy))] at hab; cases hab
    | gt => rw [Std.compare_eq_gt.2 (h'.2 (Std.compare_eq_gt.1 hxy))] at hab; cases hab
    | eq => rfl

namespace Double

/-! ## Nearest numbers -/

/-- The nearest natural number to a quotient, and of two equally near ones the even one. -/
def nearestQuotient (n d : Nat) : Nat :=
  if 2 * (n % d) < d then n / d
  else if 2 * (n % d) = d then n / d + n / d % 2
  else n / d + 1

/-- The nearest number of 53 significant bits, and of two equally near ones the one whose last bit is even. -/
def nearest (n : Nat) : Nat := nearestQuotient n (2 ^ (n.log2 - 52)) * 2 ^ (n.log2 - 52)

theorem nearestQuotient_mul_right {n d c : Nat} (hc : 0 < c) : nearestQuotient (n * c) (d * c) = nearestQuotient n d := by
  have hlt : 2 * (n % d * c) < d * c ↔ 2 * (n % d) < d := by
    rw [← Nat.mul_assoc]
    exact Nat.mul_lt_mul_right hc
  have heq : 2 * (n % d * c) = d * c ↔ 2 * (n % d) = d := by
    rw [← Nat.mul_assoc]
    exact Nat.mul_right_cancel_iff hc
  simp only [nearestQuotient, Nat.mul_mod_mul_right, Nat.mul_div_mul_right _ _ hc, hlt, heq]

theorem nearestQuotient_of_multiple {q d : Nat} (hd : 0 < d) : nearestQuotient (q * d) d = q := by
  have hlt : 2 * (q * d % d) < d := by rw [Nat.mul_mod_left]; exact hd
  rw [nearestQuotient, if_pos hlt, Nat.mul_div_cancel _ hd]

theorem le_nearestQuotient (n d : Nat) : n / d ≤ nearestQuotient n d := by
  unfold nearestQuotient
  split
  · exact Nat.le_refl _
  · split <;> omega

theorem nearestQuotient_le (n d : Nat) : nearestQuotient n d ≤ n / d + 1 := by
  unfold nearestQuotient
  split
  · exact Nat.le_succ _
  · split <;> omega

theorem log2_mul_two_pow {n : Nat} (h : n ≠ 0) (k : Nat) : (n * 2 ^ k).log2 = n.log2 + k := by
  have hpos : 0 < 2 ^ k := Nat.two_pow_pos k
  have hne : n * 2 ^ k ≠ 0 := Nat.mul_ne_zero h (Nat.ne_of_gt hpos)
  rw [Nat.log2_eq_iff hne, Nat.add_right_comm, Nat.pow_add, Nat.pow_add]
  exact ⟨Nat.mul_le_mul_right _ (Nat.log2_self_le h), Nat.mul_lt_mul_of_pos_right Nat.lt_log2_self hpos⟩

theorem nearest_of_log2_le {n : Nat} (h : n.log2 ≤ 52) : nearest n = n := by
  have hn := nearestQuotient_of_multiple (q := n) Nat.one_pos
  rw [Nat.mul_one] at hn
  rw [nearest, Nat.sub_eq_zero_of_le h, Nat.pow_zero, hn, Nat.mul_one]

theorem nearest_mul_two_pow (n k : Nat) : nearest (n * 2 ^ k) = nearest n * 2 ^ k := by
  by_cases hn : n = 0
  · have hzero : nearest 0 = 0 := rfl
    rw [hn, Nat.zero_mul, hzero, Nat.zero_mul]
  have hlog := log2_mul_two_pow hn k
  by_cases hlarge : 52 ≤ n.log2
  · have hshift : n.log2 + k - 52 = n.log2 - 52 + k := by omega
    rw [nearest, nearest, hlog, hshift, Nat.pow_add, nearestQuotient_mul_right (Nat.two_pow_pos k), Nat.mul_assoc]
  · -- as many bits as are dropped were put in
    have hsplit : n * 2 ^ k = n * 2 ^ (k - (n.log2 + k - 52)) * 2 ^ (n.log2 + k - 52) := by
      rw [Nat.mul_assoc, ← Nat.pow_add, Nat.sub_add_cancel (by omega)]
    rw [nearest_of_log2_le (by omega : n.log2 ≤ 52), nearest, hlog, hsplit,
      nearestQuotient_of_multiple (Nat.two_pow_pos _)]

theorem nearestQuotient_bounds {m : Nat} (hm : 52 ≤ m.log2) :
    2 ^ 52 ≤ nearestQuotient m (2 ^ (m.log2 - 52)) ∧ nearestQuotient m (2 ^ (m.log2 - 52)) ≤ 2 ^ 53 := by
  have hne : m ≠ 0 := by
    rintro rfl
    exact absurd hm (by decide)
  have hpow : ∀ i, 2 ^ (52 + i) * 2 ^ (m.log2 - 52) = 2 ^ (m.log2 + i) := fun i => by
    rw [← Nat.pow_add]
    congr 1
    omega
  have hle : 2 ^ 52 ≤ m / 2 ^ (m.log2 - 52) := by
    rw [Nat.le_div_iff_mul_le (Nat.two_pow_pos _)]
    exact Nat.le_trans (Nat.le_of_eq (hpow 0)) (Nat.log2_self_le hne)
  have hlt : m / 2 ^ (m.log2 - 52) < 2 ^ 53 := by
    rw [Nat.div_lt_iff_lt_mul (Nat.two_pow_pos _)]
    exact Nat.lt_of_lt_of_le Nat.lt_log2_self (Nat.le_of_eq (hpow 1).symm)
  exact ⟨Nat.le_trans hle (le_nearestQuotient _ _), Nat.le_trans (nearestQuotient_le _ _) hlt⟩

theorem nearest_bounds {n : Nat} (hn : n ≠ 0) : 2 ^ n.log2 ≤ nearest n ∧ nearest n ≤ 2 ^ (n.log2 + 1) := by
  by_cases hlarge : 52 ≤ n.log2
  · have hpow : ∀ i, 2 ^ (52 + i) * 2 ^ (n.log2 - 52) = 2 ^ (n.log2 + i) := fun i => by
      rw [← Nat.pow_add]
      congr 1
      omega
    obtain ⟨hle, hge⟩ := nearestQuotient_bounds hlarge
    exact ⟨Nat.le_trans (Nat.le_of_eq (hpow 0).symm) (Nat.mul_le_mul_right _ hle),
      Nat.le_trans (Nat.mul_le_mul_right _ hge) (Nat.le_of_eq (hpow 1))⟩
  · rw [nearest_of_log2_le (by omega)]
    exact ⟨Nat.log2_self_le hn, Nat.le_of_lt Nat.lt_log2_self⟩

theorem nearest_pos {n : Nat} (h : 0 < n) : 0 < nearest n :=
  Nat.lt_of_lt_of_le (Nat.two_pow_pos _) (nearest_bounds (Nat.ne_of_gt h)).1

theorem nearest_le (n : Nat) : nearest n ≤ 2 * n := by
  by_cases hn : n = 0
  · subst hn
    decide
  calc
    nearest n ≤ 2 ^ (n.log2 + 1) := (nearest_bounds hn).2
    _ = 2 * 2 ^ n.log2 := Nat.pow_succ'
    _ ≤ 2 * n := Nat.mul_le_mul_left _ (Nat.log2_self_le hn)

theorem nearestQuotient_mono {m n : Nat} (h : m ≤ n) (d : Nat) : nearestQuotient m d ≤ nearestQuotient n d := by
  obtain hlt | heq := Nat.lt_or_eq_of_le (Nat.div_le_div_right h : m / d ≤ n / d)
  · exact Nat.le_trans (nearestQuotient_le m d) (Nat.le_trans hlt (le_nearestQuotient n d))
  · have hmod : m % d ≤ n % d := by
      have hm := Nat.div_add_mod m d
      have hn := Nat.div_add_mod n d
      rw [heq] at hm
      omega
    unfold nearestQuotient
    rw [heq]
    grind

theorem nearest_mono {m n : Nat} (h : m ≤ n) : nearest m ≤ nearest n := by
  obtain rfl | hm := Nat.eq_zero_or_pos m
  · exact Nat.zero_le _
  have hm' : m ≠ 0 := Nat.ne_of_gt hm
  have hn' : n ≠ 0 := by omega
  have hlog : m.log2 ≤ n.log2 := (Nat.le_log2 hn').2 (Nat.le_trans (Nat.log2_self_le hm') h)
  obtain hlt | heq := Nat.lt_or_eq_of_le hlog
  · calc
      nearest m ≤ 2 ^ (m.log2 + 1) := (nearest_bounds hm').2
      _ ≤ 2 ^ n.log2 := Nat.pow_le_pow_right (by decide) hlt
      _ ≤ nearest n := (nearest_bounds hn').1
  · rw [nearest, nearest, heq]
    exact Nat.mul_le_mul_right _ (nearestQuotient_mono h _)

def rounded : Int → Int
  | .ofNat n => nearest n
  | .negSucc n => -nearest (n + 1)

theorem natAbs_rounded (n : Int) : (rounded n).natAbs = nearest n.natAbs := by
  cases n with
  | ofNat n => rfl
  | negSucc n => exact Int.natAbs_neg _

theorem rounded_mono {a b : Int} (h : a ≤ b) : rounded a ≤ rounded b := by
  cases a with
  | ofNat m =>
    cases b with
    | ofNat n => exact Int.ofNat_le.2 (nearest_mono (Int.ofNat_le.1 h))
    | negSucc n => exact absurd (Int.lt_of_le_of_lt h (Int.negSucc_lt_zero n)) (Int.not_lt.2 (Int.natCast_nonneg m))
  | negSucc m =>
    cases b with
    | ofNat n =>
      simp only [rounded]
      omega
    | negSucc n =>
      rw [Int.negSucc_eq, Int.negSucc_eq] at h
      have hle := nearest_mono (by omega : n + 1 ≤ m + 1)
      simp only [rounded]
      omega

theorem compare_rounded_iff {a b : Int} :
    compare (rounded a) (rounded b) = compare a b ↔ (rounded a = rounded b → a = b) := by
  constructor
  · intro h heq
    rw [heq, Std.compare_self] at h
    exact Std.compare_eq_iff_eq.1 h.symm
  · intro h
    have hlt : ∀ {a b}, (rounded a = rounded b → a = b) → (rounded a < rounded b ↔ a < b) := by
      intro a b h
      constructor
      · intro hr
        exact Int.lt_of_not_ge fun hle => Int.not_lt.2 (rounded_mono hle) hr
      · intro hab
        have hle := rounded_mono (Int.le_of_lt hab)
        have hne : rounded a ≠ rounded b := fun heq => Int.ne_of_lt hab (h heq)
        omega
    exact compare_congr (hlt h) (hlt fun heq => (h heq.symm).symm)

/-! ## Dropping bits -/

/-- A mantissa holds a quotient but for its fraction: of that the round bit says whether it is a half or more, and the sticky
bit whether it is neither nothing nor just a half. -/
structure Holds (em : ExtendedMantissa) (n d : Nat) : Prop where
  mantissa : em.mantissa = n / d
  roundBit : em.roundBit = true ↔ d ≤ 2 * (n % d)
  stickyBit : em.stickyBit = true ↔ 2 * (n % d) % d ≠ 0

theorem holds_exact (n : Nat) : Holds (.ofMantissaAndAccuracy n .exact) n 1 where
  mantissa := by rw [Nat.div_one]; rfl
  roundBit := by simp [ExtendedMantissa.ofMantissaAndAccuracy, Nat.mod_one]
  stickyBit := by simp [ExtendedMantissa.ofMantissaAndAccuracy, Nat.mod_one]

theorem holds_accuracyOfFraction (n : Nat) {d : Nat} (hd : 0 < d) :
    Holds (.ofMantissaAndAccuracy (n / d) (accuracyOfFraction (n % d) d)) n d := by
  have hlt := Nat.mod_lt n hd
  unfold accuracyOfFraction
  split
  · rename_i hzero
    have hnone : 2 * (n % d) % d = 0 := by rw [hzero, Nat.mul_zero, Nat.zero_mod]
    exact ⟨rfl, iff_of_false nofun (by omega), iff_of_false nofun fun h => h hnone⟩
  · rename_i hne
    obtain h | h | h := Nat.lt_trichotomy (2 * (n % d)) d
    · have hmod : 2 * (n % d) % d = 2 * (n % d) := Nat.mod_eq_of_lt h
      rw [Std.compare_eq_lt.2 h]
      exact ⟨rfl, iff_of_false nofun (by omega), iff_of_true rfl (by omega)⟩
    · have hmod : 2 * (n % d) % d = 0 := by rw [h, Nat.mod_self]
      rw [Std.compare_eq_iff_eq.2 h]
      exact ⟨rfl, iff_of_true rfl (by omega), iff_of_false nofun fun hsticky => hsticky hmod⟩
    · have hmod : 2 * (n % d) % d = 2 * (n % d) - d := by
        rw [Nat.mod_eq_sub_mod (Nat.le_of_lt h), Nat.mod_eq_of_lt (by omega)]
      rw [Std.compare_eq_gt.2 h]
      exact ⟨rfl, iff_of_true rfl (by omega), iff_of_true rfl (by omega)⟩

theorem mod_mul_two (n d : Nat) : n % (d * 2) = n % d + d * (n / d % 2) := Nat.mod_mul

theorem Holds.shiftRightOne {em : ExtendedMantissa} {n d : Nat} (hd : 0 < d) (h : Holds em n d) :
    Holds em.shiftRightOne n (d * 2) where
  mantissa := by
    rw [ExtendedMantissa.shiftRightOne, h.mantissa, Nat.div_div_eq_div_mul]
  roundBit := by
    have hlt := Nat.mod_lt n hd
    show (em.mantissa % 2 != 0) = true ↔ _
    rw [h.mantissa, bne_iff_ne, mod_mul_two]
    obtain hbit | hbit : n / d % 2 = 0 ∨ n / d % 2 = 1 := by omega
    · rw [hbit]; omega
    · rw [hbit]; omega
  stickyBit := by
    have hdropped : 2 * (n % (d * 2)) % (d * 2) = 2 * (n % d) := by
      rw [Nat.mul_comm d 2, Nat.mul_mod_mul_left, Nat.mod_mul_left_mod]
    show (em.roundBit || em.stickyBit) = true ↔ _
    rw [Bool.or_eq_true, h.roundBit, h.stickyBit, hdropped]
    constructor
    · rintro (hround | hsticky) hzero
      · omega
      · rw [hzero, Nat.zero_mod] at hsticky
        exact hsticky rfl
    · intro hne
      by_cases hround : d ≤ 2 * (n % d)
      · exact .inl hround
      · rw [Nat.mod_eq_of_lt (Nat.lt_of_not_le hround)]
        exact .inr hne

theorem Holds.shiftRight {em : ExtendedMantissa} {n d : Nat} (hd : 0 < d) (h : Holds em n d) (k : Nat) :
    Holds (em >>> k) n (d * 2 ^ k) := by
  induction k with
  | zero => rwa [Nat.pow_zero, Nat.mul_one]
  | succ k ih =>
    rw [Nat.pow_succ, ← Nat.mul_assoc]
    exact ih.shiftRightOne (Nat.mul_pos hd (Nat.two_pow_pos k))

theorem holds_shiftRight (n k : Nat) : Holds (ExtendedMantissa.ofMantissaAndAccuracy n .exact >>> k) n (2 ^ k) := by
  have h := (holds_exact n).shiftRight Nat.one_pos k
  rwa [Nat.one_mul] at h

theorem Holds.roundedMantissa {em : ExtendedMantissa} {n d : Nat} (hd : 0 < d) (h : Holds em n d) :
    em.roundedMantissa = nearestQuotient n d := by
  have hlt := Nat.mod_lt n hd
  obtain ⟨hmantissa, hround, hsticky⟩ := h
  obtain ⟨mantissa, round, sticky⟩ := em
  simp only at hmantissa hround hsticky
  subst hmantissa
  unfold nearestQuotient
  cases round with
  | false =>
    have hsmall : 2 * (n % d) < d := Nat.lt_of_not_le fun hle => nomatch hround.2 hle
    rw [if_pos hsmall]
    cases sticky <;> rfl
  | true =>
    have hlarge := hround.1 rfl
    have hmod : 2 * (n % d) % d = 2 * (n % d) - d := by
      rw [Nat.mod_eq_sub_mod hlarge, Nat.mod_eq_of_lt (by omega)]
    rw [if_neg (Nat.not_lt.2 hlarge)]
    cases sticky with
    | false =>
      have htie : 2 * (n % d) = d := by
        have hzero : ¬ 2 * (n % d) % d ≠ 0 := fun hne => nomatch hsticky.2 hne
        omega
      rw [if_pos htie]
      rfl
    | true =>
      have hne := hsticky.1 rfl
      rw [if_neg (by omega)]
      rfl

/-! ## The rounding of doubles -/

theorem targetExponent_eq (e : Int) : Format.binary64.targetExponent e = max (e - 53) (-1074) := rfl

theorem shiftToTargetExponent_eq {m k : Nat} {e : Int} (hk : (max (m.log2 + e - 52) (-1074) - e).toNat = k)
    (accuracy : Accuracy) : shiftToTargetExponent .binary64 m e accuracy =
      (ExtendedMantissa.ofMantissaAndAccuracy m accuracy >>> k, e + k) := by
  have htarget : (Format.binary64.targetExponent (totalExponent m e) - e).toNat = k := by
    rw [targetExponent_eq, totalExponent, ← hk]
    omega
  simp only [shiftToTargetExponent, shiftToExponent, htarget]

theorem log2_eq_of_bounds {n k : Nat} (h : 2 ^ k ≤ n) (h' : n < 2 ^ (k + 1)) : n.log2 = k :=
  (Nat.log2_eq_iff (Nat.ne_of_gt (Nat.lt_of_lt_of_le (Nat.two_pow_pos k) h))).2 ⟨h, h'⟩

/-- **A mantissa of 53 bits or more is rounded to the nearest one of 53 bits.** -/
theorem roundWithAccuracy_exact {m : Nat} {e : Int} (sign : Sign) (hm : 52 ≤ m.log2) (he : -1074 ≤ e) :
    ∃ (m' j : Nat) (h : 0 < m'), roundWithAccuracy .binary64 sign m e .exact = .finite sign m' (e + j) h ∧
      m'.log2 = 52 ∧ m' * 2 ^ j = nearest m := by
  obtain ⟨hle, hge⟩ := nearestQuotient_bounds hm
  have hrounded := (holds_shiftRight m (m.log2 - 52)).roundedMantissa (Nat.two_pow_pos _)
  have hshift := shiftToTargetExponent_eq (m := m) (k := m.log2 - 52) (e := e) (by omega) .exact
  rw [nearest]
  generalize m.log2 - 52 = k at *
  generalize nearestQuotient m (2 ^ k) = q at *
  have hlog : q.log2 = 52 ∨ q = 2 ^ 53 := by
    obtain hlt | heq := Nat.lt_or_eq_of_le hge
    · exact .inl (log2_eq_of_bounds hle hlt)
    · exact .inr heq
  have hq : 52 ≤ q.log2 := (Nat.le_log2 (by omega)).2 hle
  have hshift' := shiftToTargetExponent_eq (m := q) (k := q.log2 - 52) (e := e + k) (by omega) .exact
  have hmantissa := (holds_shiftRight q (q.log2 - 52)).mantissa
  -- a power of two that the mantissa may have become loses its last bit once more
  have hlast : (q / 2 ^ (q.log2 - 52)).log2 = 52 ∧ q / 2 ^ (q.log2 - 52) * 2 ^ (q.log2 - 52) = q := by
    obtain h | rfl := hlog
    · rw [h]
      exact ⟨by rwa [Nat.pow_zero, Nat.div_one], by rw [Nat.pow_zero, Nat.div_one, Nat.mul_one]⟩
    · decide +kernel
  have hpos : 0 < q / 2 ^ (q.log2 - 52) := by
    refine Nat.pos_of_ne_zero fun hzero => ?_
    rw [hzero] at hlast
    exact absurd hlast.1 (by decide)
  refine ⟨_, k + (q.log2 - 52), hpos, ?_, hlast.1, ?_⟩
  · have hexponent : e + k + (q.log2 - 52 : Nat) = e + (k + (q.log2 - 52) : Nat) := by omega
    rw [hexponent] at hshift'
    rw [roundWithAccuracy, hshift]
    simp only [hrounded, hshift', hmantissa]
    exact dif_neg (Nat.ne_of_gt hpos)
  · rw [Nat.add_comm, Nat.pow_add, ← Nat.mul_assoc, hlast.2]

end Double
end Stencil
