import Mathlib
import Stencil.Proofs.Expr.Integers
import Stencil.Proofs.Number.Doubles
/-!
# Comparing integers

Integers are compared exactly if both are of signed size, and otherwise as doubles, which are these integers rounded
(`compared`).  Every comparison is then that of the integers which the doubles are (`CompareOp.apply_ofInt`): doubles that
differ here are further from each other than `epsilon`.  Rounding keeps the order but not what is different, so a comparison
is right unless two different integers are rounded to one.
-/
namespace Stencil

open Float.Model Float.Model.UnpackedFloat

def compared (a b : Int) : Int × Int :=
  if FitsSigned a ∧ FitsSigned b then (a, b) else (Double.rounded a, Double.rounded b)

def CompareOp.ofInts (op : CompareOp) (a b : Int) : Bool :=
  match op with
  | .eq => a = b
  | .ne => a ≠ b
  | .lt => a < b
  | .le => a ≤ b
  | .gt => a > b
  | .ge => a ≥ b

/-! ## Comparing doubles -/

namespace Double

variable {x y : Float} {a b : Int}

theorem orderFloats_of_isExactly (hx : IsExactly x.toModel.unpack a) (hy : IsExactly y.toModel.unpack b) :
    Value.orderFloats x y = some (compare a b) := by
  have hlt : x < y ↔ a < b := by
    rw [lt_iff_compare, hx.compare_eq hy, Option.some.injEq, Std.compare_eq_lt]
  have hgt : y < x ↔ b < a := by
    rw [lt_iff_compare, hy.compare_eq hx, Option.some.injEq, Std.compare_eq_lt]
  have heq : (x == y) = true ↔ a = b := by
    rw [beq_iff_compare, hx.compare_eq hy, Option.some.injEq, Std.compare_eq_iff_eq]
  unfold Value.orderFloats
  obtain h | h | h := Int.lt_trichotomy a b
  · rw [if_pos (hlt.2 h), Std.compare_eq_lt.2 h]
  · rw [if_neg (by rw [hlt]; omega), if_neg (by rw [hgt]; omega), if_pos (heq.2 h), Std.compare_eq_iff_eq.2 h]
  · rw [if_neg (by rw [hlt]; omega), if_pos (hgt.2 h), Std.compare_eq_gt.2 h]

theorem unpack_epsilon : epsilon.toModel.unpack = .finite .positive (2 ^ 52) (-104) (by decide) := rfl

/-- **Doubles that are integers are nearer to each other than `epsilon` just if they are equal.** -/
theorem abs_sub_lt_epsilon_iff (hx : IsExactly x.toModel.unpack a) (hy : IsExactly y.toModel.unpack b) :
    (x - y).abs < epsilon ↔ a = b := by
  have hunpack : (x - y).abs.toModel.unpack =
      (Float.Model.pack (Float.Model.pack (sub .binary64 x.toModel.unpack y.toModel.unpack)).unpack.abs).unpack := rfl
  rw [lt_iff_compare, unpack_epsilon, hunpack]
  obtain ⟨hab, sign, hzero⟩ | ⟨hab, hlarge⟩ := hx.sub hy
  · rw [hzero, unpack_pack_zero, UnpackedFloat.abs, unpack_pack_zero]
    exact ⟨fun _ => hab, fun _ => rfl⟩
  · generalize sub .binary64 x.toModel.unpack y.toModel.unpack = d at hlarge
    cases hlarge with
    | @finite sign m e hpos hm hle hge =>
      have hgt : compare e (-104) = .gt := Std.compare_eq_gt.2 (by omega)
      rw [unpack_pack_finite hm (by omega), UnpackedFloat.abs, unpack_pack_finite hm (by omega), UnpackedFloat.compare, hgt]
      exact ⟨nofun, fun h => absurd h hab⟩

end Double

/-! ## Comparing values -/

theorem CompareOp.holds_compare (op : CompareOp) (a b : Int) : op.holds (compare a b) = op.ofInts a b := by
  have hlt : compare a b = .lt ↔ a < b := Std.compare_eq_lt
  have hgt : compare a b = .gt ↔ b < a := Std.compare_eq_gt
  have heq : compare a b = .eq ↔ a = b := Std.compare_eq_iff_eq
  refine Bool.eq_iff_iff.2 ?_
  cases op <;> simp [holds, ofInts, heq, hlt, hgt]

namespace Value

variable {a b : Int}

theorem isExactly_of_fitsWord {n : Int} (h : FitsWord n) :
    Double.IsExactly (Float.ofInt n).toModel.unpack (Double.rounded n) := by
  unfold FitsWord at h
  exact Double.isExactly_ofInt (by omega)

theorem order?_floats {v w : Value} {x y : Operand} (hv : Operand.of? v = some x) (hw : Operand.of? w = some y)
    (h : ∀ m n, x = .int m → y ≠ .int n) : v.order? w = orderFloats x.toFloat y.toFloat := by
  unfold order?
  rw [hv, hw]
  cases x with
  | float => rfl
  | int m =>
    cases y with
    | float => rfl
    | int n => exact absurd rfl (h m n rfl)

theorem looselyEqual_floats {v w : Value} {x y : Operand} (hv : Operand.of? v = some x) (hw : Operand.of? w = some y)
    (h : ∀ m n, x = .int m → y ≠ .int n) : v.looselyEqual w = decide ((x.toFloat - y.toFloat).abs < epsilon) := by
  rw [looselyEqual, hv, hw]
  cases x with
  | float => rfl
  | int m =>
    cases y with
    | float => rfl
    | int n => exact absurd rfl (h m n rfl)

theorem operands_ofInt (ha : FitsWord a) (hb : FitsWord b) : ∃ x y, Operand.of? (ofInt a ha) = some x ∧
    Operand.of? (ofInt b hb) = some y ∧ (x = .int a ∧ y = .int b ∧ compared a b = (a, b) ∨
      (∀ m n, x = .int m → y ≠ .int n) ∧ x.toFloat = Float.ofInt a ∧ y.toFloat = Float.ofInt b ∧
        compared a b = (Double.rounded a, Double.rounded b)) := by
  refine ⟨if FitsSigned a then .int a else .float (Float.ofInt a), if FitsSigned b then .int b else .float (Float.ofInt b),
    rfl, rfl, ?_⟩
  by_cases hsa : FitsSigned a
  · by_cases hsb : FitsSigned b
    · rw [if_pos hsa, if_pos hsb]
      exact .inl ⟨rfl, rfl, if_pos ⟨hsa, hsb⟩⟩
    · rw [if_pos hsa, if_neg hsb]
      exact .inr ⟨nofun, rfl, rfl, if_neg fun h => hsb h.2⟩
  · rw [if_neg hsa]
    refine .inr ⟨nofun, rfl, ?_, if_neg fun h => hsa h.1⟩
    split <;> rfl

theorem order?_ofInt (ha : FitsWord a) (hb : FitsWord b) :
    (ofInt a ha).order? (ofInt b hb) = some (compare (compared a b).1 (compared a b).2) := by
  obtain ⟨x, y, hx, hy, ⟨rfl, rfl, hc⟩ | ⟨hnot, hxf, hyf, hc⟩⟩ := operands_ofInt ha hb
  · unfold order?
    rw [hx, hy, hc]
  · rw [order?_floats hx hy hnot, hxf, hyf, hc]
    exact Double.orderFloats_of_isExactly (isExactly_of_fitsWord ha) (isExactly_of_fitsWord hb)

theorem looselyEqual_ofInt (ha : FitsWord a) (hb : FitsWord b) :
    (ofInt a ha).looselyEqual (ofInt b hb) = decide ((compared a b).1 = (compared a b).2) := by
  obtain ⟨x, y, hx, hy, ⟨rfl, rfl, hc⟩ | ⟨hnot, hxf, hyf, hc⟩⟩ := operands_ofInt ha hb
  · rw [looselyEqual, hx, hy, hc]
    rfl
  · rw [looselyEqual_floats hx hy hnot, hxf, hyf, hc, decide_eq_decide]
    exact Double.abs_sub_lt_epsilon_iff (isExactly_of_fitsWord ha) (isExactly_of_fitsWord hb)

end Value

theorem CompareOp.apply_ofInt (op : CompareOp) {a b : Int} (ha : FitsWord a) (hb : FitsWord b) :
    op.apply (.ofInt a ha) (.ofInt b hb) = .ok (op.ofInts (compared a b).1 (compared a b).2) := by
  have horder := Value.order?_ofInt ha hb
  have hequal := Value.looselyEqual_ofInt ha hb
  cases op with
  | eq => rw [apply, hequal]; rfl
  | ne => rw [apply, hequal]; exact congrArg Except.ok decide_not.symm
  | lt | le | gt | ge => simp only [apply, horder, holds_compare]

theorem CompareOp.ofInts_congr_iff {a b x y : Int} :
    (∀ op : CompareOp, op.ofInts x y = op.ofInts a b) ↔ compare x y = compare a b := by
  constructor
  · intro h
    have hlt : x < y ↔ a < b := decide_eq_decide.1 (h .lt)
    have hgt : y < x ↔ b < a := decide_eq_decide.1 (h .gt)
    exact compare_congr hlt hgt
  · intro h op
    rw [← op.holds_compare, h, op.holds_compare]

namespace Expr

variable {scope : Value} {left right : Expr} {a b : Int} {ha : FitsWord a} {hb : FitsWord b}

theorem eval_compare_eq (hl : left.eval scope = .ok (.ofInt a ha)) (hr : right.eval scope = .ok (.ofInt b hb))
    (op : CompareOp) : (Expr.compare op left right).eval scope = .ok (.bool (op.ofInts (compared a b).1 (compared a b).2)) := by
  have happly := op.apply_ofInt ha hb
  rw [eval, hl, hr]
  show (op.apply _ _).bind _ = _
  rw [happly]
  rfl

/-- **A comparison of integers is right unless rounding makes them equal.** -/
theorem eval_compare_ofInt (hl : left.eval scope = .ok (.ofInt a ha)) (hr : right.eval scope = .ok (.ofInt b hb)) :
    (∀ op : CompareOp, (Expr.compare op left right).eval scope =
      .ok (.bool (op.ofInts (compared a b).1 (compared a b).2))) ∧
    ((∀ op : CompareOp, (Expr.compare op left right).eval scope = .ok (.bool (op.ofInts a b))) ↔
      FitsSigned a ∧ FitsSigned b ∨ (Double.rounded a = Double.rounded b → a = b)) := by
  have heval := eval_compare_eq hl hr
  have hright : (∀ op : CompareOp, (Expr.compare op left right).eval scope = .ok (.bool (op.ofInts a b))) ↔
      Ord.compare (compared a b).1 (compared a b).2 = Ord.compare a b := by
    rw [← CompareOp.ofInts_congr_iff]
    refine forall_congr' fun op => ?_
    rw [heval op]
    simp
  refine ⟨heval, hright.trans ?_⟩
  unfold compared
  by_cases hsigned : FitsSigned a ∧ FitsSigned b
  · rw [if_pos hsigned]
    exact ⟨fun _ => .inl hsigned, fun _ => rfl⟩
  · rw [if_neg hsigned, Double.compare_rounded_iff]
    exact ⟨.inr, fun h => h.resolve_left hsigned⟩

/-- The greatest integer and a small one, of which only one is of signed size. -/
theorem eval_compare_ofInt_greatest :
    let scope : Value := .object [("a", .ofInt (2 ^ 64 - 1) (by decide)), ("b", .ofInt (-7) (by decide))]
    (∃ h, (path ["a"]).eval scope = .ok (.ofInt (2 ^ 64 - 1) h)) ∧ (∃ h, (path ["b"]).eval scope = .ok (.ofInt (-7) h)) ∧
      (Expr.compare .eq (.path ["a"]) (.path ["b"])).eval scope = .ok (.bool false) ∧
      (Expr.compare .gt (.path ["a"]) (.path ["b"])).eval scope = .ok (.bool true) := by
  intro scope
  have ha : (path ["a"]).eval scope = .ok (.ofInt (2 ^ 64 - 1) (by decide)) := rfl
  have hb : (path ["b"]).eval scope = .ok (.ofInt (-7) (by decide)) := rfl
  have hdistinct : Double.rounded (2 ^ 64 - 1) = Double.rounded (-7) → (2 ^ 64 - 1 : Int) = -7 := by decide +kernel
  have hright := (eval_compare_ofInt ha hb).2.2 (.inr hdistinct)
  exact ⟨⟨_, ha⟩, ⟨_, hb⟩, hright .eq, hright .gt⟩

/-- The two greatest integers are different and compared as equal. -/
theorem eval_compare_neighbours :
    let scope : Value := .object [("a", .ofInt 18446744073709551615 (by decide)),
      ("b", .ofInt 18446744073709551614 (by decide))]
    (Expr.compare .eq (.path ["a"]) (.path ["b"])).eval scope = .ok (.bool true) ∧
      (Expr.compare .lt (.path ["b"]) (.path ["a"])).eval scope = .ok (.bool false) := by
  intro scope
  have ha : (path ["a"]).eval scope = .ok (.ofInt 18446744073709551615 (by decide)) := rfl
  have hb : (path ["b"]).eval scope = .ok (.ofInt 18446744073709551614 (by decide)) := rfl
  have hab : compared 18446744073709551615 18446744073709551614 = (2 ^ 64, 2 ^ 64) := by decide +kernel
  have hba : compared 18446744073709551614 18446744073709551615 = (2 ^ 64, 2 ^ 64) := by decide +kernel
  rw [eval_compare_eq ha hb, eval_compare_eq hb ha, hab, hba]
  exact ⟨rfl, rfl⟩

end Expr
end Stencil
