import Stencil.Proofs.Number.Rounding
/-!
# Integers as doubles

A double *is exactly* some integer if that is its value (`IsExactly`).  An integer taken as a double is rounded to 53
significant bits (`isExactly_ofInt`).  Doubles that are integers have the order of these (`IsExactly.compare_eq`), and the
difference of two is zero or of full precision and not small (`IsExactly.sub`).
-/
namespace Stencil.Double

open Float.Model Float.Model.UnpackedFloat

/-- The value of a double is an integer; its mantissa has 53 bits. -/
inductive IsExactly : UnpackedFloat → Int → Prop
  | zero (sign : Sign) : IsExactly (.zero sign) 0
  | finite {sign : Sign} {m i : Nat} {e n : Int} {h : 0 < m} (hm : m.log2 = 52) (hi : i < 128) (he : e = i - 52)
      (hn : n * 2 ^ 52 = sign.apply (m * 2 ^ i : Nat)) : IsExactly (.finite sign m e h) n

/-! ## Packing -/

theorem toNat_one_append (m : BitVec 52) : (1#1 ++ m).toNat = 2 ^ 52 + m.toNat := by
  rw [BitVec.toNat_append, ← Nat.shiftLeft_add_eq_or_of_lt m.isLt]
  rfl

/-- **A double of full precision is unpacked as it was packed**, if its exponent fits. -/
theorem unpack_pack_finite {sign : Sign} {m : Nat} {e : Int} {h : 0 < m} (hm : m.log2 = 52) (he : -1074 ≤ e ∧ e ≤ 971) :
    (Float.Model.pack (.finite sign m e h)).unpack = .finite sign m e h := by
  obtain ⟨hle, hlt⟩ := (Nat.log2_eq_iff (Nat.ne_of_gt h)).1 hm
  obtain ⟨b, hb⟩ : ∃ b : Nat, e + 1075 = b := ⟨(e + 1075).toNat, by omega⟩
  have h1023 : (Format.binary64.exponentBias : Int) = 1023 := rfl
  have h52 : (Format.binary64.mantissaBitsWithoutImplicit : Int) = 52 := rfl
  have hbias : (e + Format.binary64.exponentBias + Format.binary64.mantissaBitsWithoutImplicit).toNat = b := by omega
  have hexponent : (BitVec.ofNat 11 b).toNat = b := by
    rw [BitVec.toNat_ofNat]
    exact Nat.mod_eq_of_lt (by omega)
  have hmantissa : (1#1 ++ BitVec.ofNat 52 m).toNat = m := by
    rw [toNat_one_append, BitVec.toNat_ofNat]
    omega
  have hones : BitVec.ofNat 11 b ≠ -1#11 := by
    intro heq
    have hb : (BitVec.ofNat 11 b).toNat = 2047 := congrArg BitVec.toNat heq
    omega
  have hzero : BitVec.ofNat 11 b ≠ 0#11 := by
    intro heq
    have hb : (BitVec.ofNat 11 b).toNat = 0 := congrArg BitVec.toNat heq
    omega
  have hpack : UnpackedFloat.pack .binary64 (.finite sign m e h) =
      packComponents .binary64 sign (BitVec.ofNat 11 b) (BitVec.ofNat 52 m) := by
    simp only [UnpackedFloat.pack, hbias]
    rw [if_neg (by omega), if_pos (by rw [hm]; rfl)]
  show UnpackedFloat.unpack .binary64 (UnpackedFloat.pack .binary64 _) = _
  rw [hpack, UnpackedFloat.unpack]
  simp only [unpackMantissa_packComponents, unpackExponent_packComponents, unpackSign_packComponents,
    Sign.ofBitVec_toBitVec]
  rw [if_neg hones, if_neg hzero]
  congr 1
  omega

theorem unpack_pack_zero (sign : Sign) : (Float.Model.pack (.zero sign)).unpack = .zero sign := by
  cases sign <;> rfl

theorem IsExactly.unpack_pack {u : UnpackedFloat} {n : Int} (h : IsExactly u n) : (Float.Model.pack u).unpack = u := by
  cases h with
  | zero sign => exact unpack_pack_zero sign
  | finite hm hi he hn => exact unpack_pack_finite hm (by omega)

/-! ## Order -/

theorem two_pow_le_of_log2 {m : Nat} (hm : m.log2 = 52) : 2 ^ 52 ≤ m ∧ m < 2 ^ 53 := by
  refine (Nat.log2_eq_iff ?_).1 hm
  rintro rfl
  exact absurd hm (by decide)

theorem mantissa_lt {m m' i i' : Nat} (hm : m.log2 = 52) (hm' : m'.log2 = 52) (hi : i < i') : m * 2 ^ i < m' * 2 ^ i' :=
  calc
    m * 2 ^ i < 2 ^ 53 * 2 ^ i := Nat.mul_lt_mul_of_pos_right (two_pow_le_of_log2 hm).2 (Nat.two_pow_pos i)
    _ = 2 ^ 52 * 2 ^ (i + 1) := by rw [Nat.pow_succ 2 i]; omega
    _ ≤ m' * 2 ^ i' := Nat.mul_le_mul (two_pow_le_of_log2 hm').1 (Nat.pow_le_pow_right (by decide) hi)

/-- **Of two mantissas of full precision that with the greater exponent is greater**, and with equal exponents the greater
mantissa. -/
theorem compare_mantissas {m m' i i' : Nat} {e e' : Int} (hm : m.log2 = 52) (hm' : m'.log2 = 52) (he : e = i - 52)
    (he' : e' = i' - 52) : (compare e e').then (compare m m') = compare (m * 2 ^ i) (m' * 2 ^ i') := by
  obtain h | rfl | h := Nat.lt_trichotomy i i'
  · rw [Std.compare_eq_lt.2 (by omega : e < e'), Std.compare_eq_lt.2 (mantissa_lt hm hm' h)]
    rfl
  · have hpos := Nat.two_pow_pos i
    rw [he, he', Std.compare_self]
    exact compare_congr (Nat.mul_lt_mul_right hpos).symm (Nat.mul_lt_mul_right hpos).symm
  · rw [Std.compare_eq_gt.2 (by omega : e' < e), Std.compare_eq_gt.2 (mantissa_lt hm' hm h)]
    rfl

theorem IsExactly.pos {m : Nat} {e n : Int} {h : 0 < m} (hu : IsExactly (.finite .positive m e h) n) : 0 < n := by
  cases hu with
  | @finite _ _ i _ _ _ hm hi he hn =>
    have hpos := Nat.mul_pos h (Nat.two_pow_pos i)
    simp only [Sign.apply] at hn
    omega

theorem IsExactly.neg_of_negative {m : Nat} {e n : Int} {h : 0 < m} (hu : IsExactly (.finite .negative m e h) n) : n < 0 := by
  cases hu with
  | @finite _ _ i _ _ _ hm hi he hn =>
    have hpos := Nat.mul_pos h (Nat.two_pow_pos i)
    simp only [Sign.apply] at hn
    omega

theorem IsExactly.ne_zero {sign : Sign} {m : Nat} {e n : Int} {h : 0 < m} (hu : IsExactly (.finite sign m e h) n) :
    n ≠ 0 := by
  cases sign with
  | positive => exact Int.ne_of_gt hu.pos
  | negative => exact Int.ne_of_lt hu.neg_of_negative

/-- **Doubles that are integers have the order of the integers.** -/
theorem IsExactly.compare_eq {u v : UnpackedFloat} {a b : Int} (hu : IsExactly u a) (hv : IsExactly v b) :
    u.compare v = some (compare a b) := by
  have hu' := hu
  have hv' := hv
  cases hu with
  | zero s =>
    cases hv with
    | zero s' => rfl
    | @finite s' m' i' e' _ h' hm' hi' he' hn' =>
      cases s' with
      | positive => exact congrArg some (Std.compare_eq_lt.2 hv'.pos).symm
      | negative => exact congrArg some (Std.compare_eq_gt.2 hv'.neg_of_negative).symm
  | @finite s m i e _ h hm hi he hn =>
    cases hv with
    | zero s' =>
      cases s with
      | positive => exact congrArg some (Std.compare_eq_gt.2 hu'.pos).symm
      | negative => exact congrArg some (Std.compare_eq_lt.2 hu'.neg_of_negative).symm
    | @finite s' m' i' e' _ h' hm' hi' he' hn' =>
      have hcompare := compare_mantissas hm hm' he he'
      cases s with
      | positive =>
        cases s' with
        | positive =>
          simp only [Sign.apply] at hn hn'
          refine congrArg some (hcompare.trans (compare_congr ?_ ?_)) <;> omega
        | negative => exact congrArg some (Std.compare_eq_gt.2 (Int.lt_trans hv'.neg_of_negative hu'.pos)).symm
      | negative =>
        cases s' with
        | positive => exact congrArg some (Std.compare_eq_lt.2 (Int.lt_trans hu'.neg_of_negative hv'.pos)).symm
        | negative =>
          simp only [Sign.apply] at hn hn'
          refine congrArg some ?_
          rw [hcompare, Std.OrientedOrd.eq_swap (a := m * 2 ^ i), Ordering.swap_swap]
          refine compare_congr ?_ ?_ <;> omega

/-! ## Rounding -/

theorem apply_natCast (sign : Sign) {n k : Nat} (h : n * 2 ^ 52 = k) :
    sign.apply (n : Int) * 2 ^ 52 = sign.apply (k : Int) := by
  cases sign <;> simp only [Sign.apply] <;> omega

theorem isExactly_roundWithAccuracy (sign : Sign) {m n i c : Nat} {e : Int} (hm : 52 ≤ m.log2) (he : e = i - 52 - c)
    (hleast : -1074 ≤ e) (hvalue : nearest m * 2 ^ i = n * 2 ^ 52 * 2 ^ c) (hn : 0 < n) (hfits : n < 2 ^ 66) :
    IsExactly (roundWithAccuracy .binary64 sign m e .exact) (sign.apply n) := by
  obtain ⟨m', j, h, hround, hm', hnearest⟩ := roundWithAccuracy_exact sign hm hleast
  have htotal : m' * 2 ^ (i + j) = n * 2 ^ 52 * 2 ^ c := by
    rw [← hvalue, ← hnearest, Nat.mul_assoc, ← Nat.pow_add, Nat.add_comm j i]
  obtain ⟨hle, hlt⟩ := two_pow_le_of_log2 hm'
  have hc : c ≤ i + j := by
    refine Nat.le_of_not_lt fun hsmall => Nat.lt_irrefl (n * 2 ^ 52 * 2 ^ c) ?_
    calc
      n * 2 ^ 52 * 2 ^ c = m' * 2 ^ (i + j) := htotal.symm
      _ < 2 ^ 53 * 2 ^ (i + j) := Nat.mul_lt_mul_of_pos_right hlt (Nat.two_pow_pos _)
      _ = 1 * 2 ^ 52 * 2 ^ (i + j + 1) := by rw [Nat.pow_succ 2 (i + j)]; omega
      _ ≤ n * 2 ^ 52 * 2 ^ c :=
        Nat.mul_le_mul (Nat.mul_le_mul_right _ hn) (Nat.pow_le_pow_right (by decide) hsmall)
  obtain ⟨k, hk⟩ := Nat.exists_eq_add_of_le hc
  have hinteger : n * 2 ^ 52 = m' * 2 ^ k := by
    rw [hk, Nat.add_comm, Nat.pow_add, ← Nat.mul_assoc] at htotal
    exact (Nat.mul_right_cancel (Nat.two_pow_pos c) htotal).symm
  have hk66 : k < 66 := by
    refine (Nat.pow_lt_pow_iff_right (by decide : 1 < 2)).1 (Nat.lt_of_le_of_lt ?_ hfits)
    refine Nat.le_of_mul_le_mul_right (Nat.le_trans ?_ (Nat.le_of_eq hinteger.symm)) (Nat.two_pow_pos 52)
    rw [Nat.mul_comm]
    exact Nat.mul_le_mul_right _ hle
  rw [hround]
  exact .finite (i := k) hm' (by omega) (by omega) (apply_natCast sign hinteger)

theorem round_eq (sign : Sign) (m : Nat) {e : Int} (he : -1022 ≤ e) : UnpackedFloat.round .binary64 sign m e =
    roundWithAccuracy .binary64 sign (m * 2 ^ (52 - m.log2)) (e - (52 - m.log2 : Nat)) .exact := by
  have hshift : (e - Format.binary64.targetExponent (totalExponent m e)).toNat = 52 - m.log2 := by
    rw [targetExponent_eq, totalExponent]
    omega
  simp only [UnpackedFloat.round, decreaseExponent, hshift, Nat.shiftLeft_eq]

theorem le_log2_scaled {m : Nat} (h : m ≠ 0) : 52 ≤ (m * 2 ^ (52 - m.log2)).log2 := by
  rw [log2_mul_two_pow h]
  omega

/-! ## Integers -/

theorem unpack_one : (Float.ofBits 0x3FF0000000000000).toModel.unpack = .finite .positive (2 ^ 52) (-52) (by decide) := rfl

theorem isExactly_normalize {n : Nat} (h : n < 2 ^ 65) :
    IsExactly (UnpackedFloat.normalize .binary64 n 0 .positive) (nearest n) := by
  obtain rfl | hn := Nat.eq_zero_or_pos n
  · exact .zero _
  · have hcompare : compare (n : Int) 0 = .gt := Std.compare_eq_gt.2 (by omega)
    have hvalue : nearest (n * 2 ^ (52 - n.log2)) * 2 ^ 52 = nearest n * 2 ^ 52 * 2 ^ (52 - n.log2) := by
      rw [nearest_mul_two_pow, Nat.mul_assoc, Nat.mul_comm (2 ^ _), Nat.mul_assoc]
    have hle := nearest_le n
    rw [UnpackedFloat.normalize, hcompare]
    simp only [Int.toNat_natCast]
    rw [round_eq _ _ (by decide)]
    exact isExactly_roundWithAccuracy .positive (le_log2_scaled (Nat.ne_of_gt hn)) (by omega) (by omega) hvalue
      (nearest_pos hn) (by omega)

theorem IsExactly.mul_one {u : UnpackedFloat} {n : Int} (h : IsExactly u n) (hfits : n.natAbs < 2 ^ 66) :
    IsExactly (mul .binary64 u (.finite .positive (2 ^ 52) (-52) (by decide))) n := by
  cases h with
  | zero sign => exact .zero _
  | @finite sign m i e _ hpos hm hi he hn =>
    have hlog : (m * 2 ^ 52).log2 = 104 := by rw [log2_mul_two_pow (Nat.ne_of_gt hpos), hm]
    have habs : n.natAbs * 2 ^ 52 = m * 2 ^ i ∧ n = sign.apply n.natAbs := by
      cases sign <;> simp only [Sign.apply] at hn ⊢ <;> omega
    have hvalue : nearest (m * 2 ^ 52) * 2 ^ i = n.natAbs * 2 ^ 52 * 2 ^ 52 := by
      rw [nearest_mul_two_pow, nearest_of_log2_le (Nat.le_of_eq hm), habs.1, Nat.mul_right_comm]
    have hne : 0 < n.natAbs := by
      have hmul := Nat.mul_pos hpos (Nat.two_pow_pos i)
      omega
    have hsign : sign * .positive = sign := by cases sign <;> rfl
    rw [UnpackedFloat.mul, hsign, habs.2]
    exact isExactly_roundWithAccuracy sign (by omega) (by omega) (by omega) hvalue hne hfits

theorem ofNat_toModel_of_lt {n : Nat} (h : n < 2 ^ 53) : (Float.ofNat n).toModel =
    Float.Model.pack (mul .binary64 (Float.Model.pack (UnpackedFloat.normalize .binary64 n 0 .positive)).unpack
      (Float.ofBits 0x3FF0000000000000).toModel.unpack) := by
  have hn : n.toUInt64.toNat = n := Nat.mod_eq_of_lt (by omega)
  have hproduct : Float.ofNat n = n.toUInt64.toFloat * Float.ofBits 0x3FF0000000000000 := by
    show Float.ofScientific n false 0 = _
    rw [Float.ofScientific, dif_pos ⟨h, by decide⟩]
    rfl
  have hfactor : n.toUInt64.toFloat.toModel = Float.Model.pack (UnpackedFloat.normalize .binary64 n 0 .positive) := by
    show Float.Model.pack (UnpackedFloat.normalize .binary64 (n.toUInt64.toNat : Int) 0 .positive) = _
    rw [hn]
  rw [hproduct, ← hfactor]
  rfl

theorem ofNat_toModel_of_le {n : Nat} (h : 2 ^ 53 ≤ n) : (Float.ofNat n).toModel =
    Float.Model.pack (roundWithAccuracy .binary64 .positive (n * 2 ^ 53) (-53) .exact) := by
  have hscientific : UnpackedFloat.ofScientific .binary64 n 0 =
      roundWithAccuracy .binary64 .positive (n * 2 ^ 53) (-53) .exact := by
    have hne : n ≠ 0 := by omega
    have hlarge : ¬ (0 : Int) > 2 ^ Format.binary64.exponentBits := by decide
    have hsmall : ¬ (0 : Int) < -((2 ^ Format.binary64.exponentBits : Int) + n.log2) := by
      have hbits : (2 ^ Format.binary64.exponentBits : Int) = 2048 := rfl
      omega
    have hbits : Format.binary64.mantissaBits = 53 := rfl
    have hone : 10 ^ (0 : Int).toNat = 1 := rfl
    rw [UnpackedFloat.ofScientific, dif_neg hne, if_neg hlarge, if_neg hsmall, if_pos (Int.le_refl 0), UnpackedFloat.mul,
      Nat.shiftLeft_eq, hbits, hone, Nat.mul_one]
    rfl
  rw [← hscientific]
  show (Float.ofScientific n false 0).toModel = _
  rw [Float.ofScientific, dif_neg fun hfast => absurd hfast.1 (Nat.not_lt.2 h)]
  rfl

/-- **A natural number as a double is rounded to 53 significant bits.** -/
theorem isExactly_ofNat {n : Nat} (h : n < 2 ^ 65) : IsExactly (Float.ofNat n).toModel.unpack (nearest n) := by
  have hle := nearest_le n
  by_cases hsmall : n < 2 ^ 53
  · have hnormal := isExactly_normalize h
    have hproduct := hnormal.mul_one (by omega)
    rw [ofNat_toModel_of_lt hsmall, hnormal.unpack_pack, unpack_one, hproduct.unpack_pack]
    exact hproduct
  · have hne : n ≠ 0 := by omega
    have hlog := log2_mul_two_pow hne 53
    have hvalue : nearest (n * 2 ^ 53) * 2 ^ 52 = nearest n * 2 ^ 52 * 2 ^ 53 := by
      rw [nearest_mul_two_pow, Nat.mul_right_comm]
    have hround := isExactly_roundWithAccuracy .positive (e := -53) (by omega) (by omega) (by decide) hvalue
      (nearest_pos (Nat.pos_of_ne_zero hne)) (by omega)
    rw [ofNat_toModel_of_le (Nat.le_of_not_lt hsmall), hround.unpack_pack]
    exact hround

theorem IsExactly.neg {u : UnpackedFloat} {n : Int} (h : IsExactly u n) : IsExactly u.neg (-n) := by
  cases h with
  | zero sign => exact .zero _
  | @finite sign m i e _ hpos hm hi he hn =>
    refine .finite (i := i) hm hi he ?_
    cases sign with
    | positive => rw [Int.neg_mul, hn]; rfl
    | negative => rw [Int.neg_mul, hn]; exact Int.neg_neg _

theorem isExactly_ofInt {n : Int} (h : n.natAbs < 2 ^ 65) : IsExactly (Float.ofInt n).toModel.unpack (rounded n) := by
  cases n with
  | ofNat n => exact isExactly_ofNat h
  | negSucc n =>
    have hneg := (isExactly_ofNat (n := n + 1) h).neg
    show IsExactly (Float.Model.pack (Float.ofNat (n + 1)).toModel.unpack.neg).unpack _
    rw [hneg.unpack_pack]
    exact hneg

/-! ## Differences -/

/-- A double of size one or more, and far from the greatest. -/
inductive IsLarge : UnpackedFloat → Prop
  | finite {sign : Sign} {m : Nat} {e : Int} {h : 0 < m} (hm : m.log2 = 52) (hle : -52 ≤ e) (hge : e ≤ 971) :
      IsLarge (.finite sign m e h)

theorem IsExactly.isLarge {sign : Sign} {m : Nat} {e n : Int} {h : 0 < m} (hu : IsExactly (.finite sign m e h) n) :
    IsLarge (.finite sign m e h) := by
  cases hu with
  | finite hm hi he hn => exact .finite hm (by omega) (by omega)

theorem IsLarge.neg {sign : Sign} {m : Nat} {e : Int} {h : 0 < m} (hu : IsLarge (.finite sign m e h)) :
    IsLarge (.finite (-sign) m e h) := by
  cases hu with
  | finite hm hle hge => exact .finite hm hle hge

theorem isLarge_round (sign : Sign) {m i : Nat} {e : Int} (he : e = i - 52) (hi : i < 128) (hle : 2 ^ 52 ≤ m * 2 ^ i)
    (hlt : m < 2 ^ 200) : IsLarge (UnpackedFloat.round .binary64 sign m e) := by
  have hne : m ≠ 0 := by
    rintro rfl
    rw [Nat.zero_mul] at hle
    exact absurd hle (by decide)
  have hlog : 52 < m.log2 + 1 + i := by
    refine (Nat.pow_lt_pow_iff_right (by decide : 1 < 2)).1 (Nat.lt_of_le_of_lt hle ?_)
    rw [Nat.pow_add]
    exact Nat.mul_lt_mul_of_pos_right Nat.lt_log2_self (Nat.two_pow_pos i)
  rw [round_eq sign m (by omega)]
  obtain ⟨m', j, h, hround, hm', hnearest⟩ :=
    roundWithAccuracy_exact sign (le_log2_scaled hne) (e := e - (52 - m.log2 : Nat)) (by omega)
  have hj : 52 + j < 253 := by
    refine (Nat.pow_lt_pow_iff_right (by decide : 1 < 2)).1 ?_
    calc
      2 ^ (52 + j) ≤ m' * 2 ^ j := by rw [Nat.pow_add]; exact Nat.mul_le_mul_right _ (two_pow_le_of_log2 hm').1
      _ ≤ 2 * (m * 2 ^ (52 - m.log2)) := hnearest ▸ nearest_le _
      _ ≤ 2 * (m * 2 ^ 52) :=
        Nat.mul_le_mul_left _ (Nat.mul_le_mul_left _ (Nat.pow_le_pow_right (by decide) (Nat.sub_le _ _)))
      _ < 2 ^ 253 := by omega
  rw [hround]
  exact .finite hm' (by omega) (by omega)

theorem decreaseExponent_eq {m i k : Nat} {e : Int} (he : e = i - 52) (hk : k ≤ i) :
    ∃ p, (decreaseExponent m e (k - 52)).1 = p ∧ p * 2 ^ k = m * 2 ^ i := by
  have hshift : (e - (k - 52)).toNat = i - k := by omega
  refine ⟨m * 2 ^ (i - k), ?_, ?_⟩
  · simp only [decreaseExponent, hshift, Nat.shiftLeft_eq]
  · rw [Nat.mul_assoc, ← Nat.pow_add, Nat.sub_add_cancel hk]

theorem isLarge_normalize {d n : Int} {k : Nat} (hk : k < 128) (hd : d * 2 ^ k = n * 2 ^ 52) (hn : n ≠ 0)
    (hlt : d.natAbs < 2 ^ 200) : IsLarge (UnpackedFloat.normalize .binary64 d (k - 52) .positive) := by
  have habs : d.natAbs * 2 ^ k = n.natAbs * 2 ^ 52 := by
    have h := congrArg Int.natAbs hd
    rwa [Int.natAbs_mul, Int.natAbs_mul, Int.natAbs_pow, Int.natAbs_pow] at h
  have hle : 2 ^ 52 ≤ d.natAbs * 2 ^ k := by omega
  have hd : d ≠ 0 := by
    rintro rfl
    rw [Int.natAbs_zero, Nat.zero_mul] at hle
    exact absurd hle (by decide)
  rw [UnpackedFloat.normalize]
  obtain hneg | hpos := Int.lt_or_gt_of_ne hd
  · have hnat : (-d).toNat = d.natAbs := by omega
    rw [Std.compare_eq_lt.2 hneg]
    simp only [hnat]
    exact isLarge_round .negative rfl hk hle hlt
  · have hnat : d.toNat = d.natAbs := by omega
    rw [Std.compare_eq_gt.2 hpos]
    simp only [hnat]
    exact isLarge_round .positive rfl hk hle hlt

theorem apply_mul (sign : Sign) (p k : Nat) : sign.apply (p : Int) * 2 ^ k = sign.apply (p * 2 ^ k : Nat) := by
  rw [Int.natCast_mul, Int.natCast_pow]
  cases sign with
  | positive => rfl
  | negative => exact Int.neg_mul _ _

theorem natAbs_apply (sign : Sign) (p : Nat) : (sign.apply (p : Int)).natAbs = p := by
  cases sign <;> simp only [Sign.apply] <;> omega

/-- **The difference of two doubles that are integers is zero if they are equal**, and else it is large. -/
theorem IsExactly.sub {u v : UnpackedFloat} {a b : Int} (hu : IsExactly u a) (hv : IsExactly v b) :
    a = b ∧ (∃ sign, UnpackedFloat.sub .binary64 u v = .zero sign) ∨ a ≠ b ∧ IsLarge (UnpackedFloat.sub .binary64 u v) := by
  have hu' := hu
  have hv' := hv
  cases hu with
  | zero s =>
    cases hv with
    | zero s' => exact .inl ⟨rfl, by cases s <;> cases s' <;> exact ⟨_, rfl⟩⟩
    | finite => exact .inr ⟨hv'.ne_zero.symm, hv'.isLarge.neg⟩
  | @finite s m i e _ h hm hi he hn =>
    cases hv with
    | zero s' => exact .inr ⟨hu'.ne_zero, hu'.isLarge⟩
    | @finite s' m' i' e' _ h' hm' hi' he' hn' =>
      obtain ⟨k, hk⟩ : ∃ k : Nat, k = min i i' := ⟨_, rfl⟩
      have hmin : min e e' = (k : Int) - 52 := by omega
      obtain ⟨p, hp, hpk⟩ := decreaseExponent_eq (m := m) he (by omega : k ≤ i)
      obtain ⟨q, hq, hqk⟩ := decreaseExponent_eq (m := m') he' (by omega : k ≤ i')
      have hdifference : UnpackedFloat.sub .binary64 (.finite s m e h) (.finite s' m' e' h') =
          UnpackedFloat.normalize .binary64 (s.apply p - s'.apply q) (k - 52) .positive := by
        simp only [UnpackedFloat.sub, hmin, hp, hq]
      have hvalue : (s.apply p - s'.apply q) * 2 ^ k = (a - b) * 2 ^ 52 := by
        rw [Int.sub_mul, Int.sub_mul, apply_mul, apply_mul, hpk, hqk, hn, hn']
      rw [hdifference]
      by_cases hab : a = b
      · have hzero : s.apply p - s'.apply q = 0 := by
          have hpow : (2 : Int) ^ k ≠ 0 := Int.pow_ne_zero (by decide)
          rw [hab, Int.sub_self, Int.zero_mul] at hvalue
          exact (Int.mul_eq_zero.1 hvalue).resolve_right hpow
        rw [hzero]
        exact .inl ⟨hab, .positive, rfl⟩
      · refine .inr ⟨hab, isLarge_normalize (by omega) hvalue (by omega) ?_⟩
        have hbound : ∀ {m i x : Nat}, m.log2 = 52 → i < 128 → x * 2 ^ k = m * 2 ^ i → x < 2 ^ 181 := by
          intro m i x hm hi hx
          calc
            x ≤ x * 2 ^ k := Nat.le_mul_of_pos_right _ (Nat.two_pow_pos k)
            _ = m * 2 ^ i := hx
            _ ≤ m * 2 ^ 127 := Nat.mul_le_mul_left _ (Nat.pow_le_pow_right (by decide) (Nat.le_of_lt_succ hi))
            _ < 2 ^ 53 * 2 ^ 127 := Nat.mul_lt_mul_of_pos_right (two_pow_le_of_log2 hm).2 (Nat.two_pow_pos _)
            _ < 2 ^ 181 := by decide
        have hp := hbound hm hi hpk
        have hq := hbound hm' hi' hqk
        have hs := natAbs_apply s p
        have hs' := natAbs_apply s' q
        omega

/-! ## Doubles of the language -/

theorem lt_iff_compare {x y : Float} : x < y ↔ x.toModel.unpack.compare y.toModel.unpack = some .lt := by
  show decide (x.toModel < y.toModel) = true ↔ _
  rw [decide_eq_true_iff]
  show (x.toModel.unpack.compare y.toModel.unpack == some .lt) = true ↔ _
  exact beq_iff_eq

theorem beq_iff_compare {x y : Float} : (x == y) = true ↔ x.toModel.unpack.compare y.toModel.unpack = some .eq := by
  show (x.toModel.unpack.compare y.toModel.unpack == some .eq) = true ↔ _
  exact beq_iff_eq

end Stencil.Double
