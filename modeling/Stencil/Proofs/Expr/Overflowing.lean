import Mathlib
import Stencil.Proofs.Expr.Results
import Stencil.Proofs.Number.Binary
/-!
# Arithmetic that overflows

Arithmetic fails, or comes to a number or a string, with one exception: doubles are computed with unguarded, and a result
that is next to no finite double is null.  When this happens is said of the exact numbers (`MathOp.Overflows`): it is when
the sum, difference, product or quotient of two doubles reaches the limit in size (`Expr.eval_math_eq_null_iff`).  It never
happens to two integers of signed size, not even where their quotient is inexact, nor to a remainder.
-/
namespace Stencil

open Decimal (Binary finiteLimit)

def Number.value (n : Number) : ℚ := (Binary.decode n.toFloat).value

namespace MathOp

/-- The exact result of an operation on two doubles is next to no finite double. -/
def TooLarge (op : MathOp) (a b : ℚ) : Prop :=
  match op with
  | .add => finiteLimit ≤ |a + b|
  | .sub => finiteLimit ≤ |a - b|
  | .mul => finiteLimit ≤ |a * b|
  | .div => b ≠ 0 ∧ finiteLimit ≤ |a / b|
  | .rem => False

/-- Two values are numbers, not both integers of signed size, and what an operation on them comes to exactly is too large. -/
def Overflows (op : MathOp) (left right : Value) : Prop :=
  ∃ m n : Number, left = .number m ∧ right = .number n ∧ (m.toSigned? = none ∨ n.toSigned? = none) ∧
    op.TooLarge m.value n.value

end MathOp

/-! ## Numbers -/

theorem natAbs_lt_of_fitsWord {n : Int} (h : FitsWord n) : n.natAbs < 2 ^ 65 := by
  unfold FitsWord at h
  omega

namespace Number

theorem isFinite_toFloat (n : Number) : n.toFloat.isFinite = true := by
  cases n with
  | int n fits => exact Double.isFinite_ofInt (natAbs_lt_of_fitsWord fits)
  | float x finite => exact finite

theorem fitsSigned_of_toSigned? {n : Number} {a : Int} (h : n.toSigned? = some a) : FitsSigned a := by
  cases n with
  | float x finite => cases h
  | int n fits =>
    rw [toSigned?, Option.ite_none_right_eq_some] at h
    obtain ⟨hfits, heq⟩ := h
    cases heq
    exact hfits

end Number

theorem Operand.ofNumber_eq (n : Number) :
    ofNumber n = match n.toSigned? with
      | some a => .int a
      | none => .float n.toFloat := by
  cases n with
  | float x finite => rfl
  | int n fits =>
    rw [ofNumber, Number.toSigned?]
    split <;> rfl

theorem Operand.toFloat_ofNumber (n : Number) : (ofNumber n).toFloat = n.toFloat := by
  cases n with
  | float x finite => rfl
  | int n fits =>
    rw [ofNumber, Number.toFloat]
    split <;> rfl

theorem Value.ofFloat_eq_null_iff {x : Float} : ofFloat x = .null ↔ ¬ x.isFinite = true := by
  unfold ofFloat
  split
  · rename_i h
    refine iff_of_false (fun hnull => ?_) fun hnot => hnot h
    cases hnull
  · rename_i h
    exact iff_of_true rfl h

/-! ## One operation -/

namespace MathOp

variable {op : MathOp}

theorem onInts_ne_null {a b : Int} (ha : FitsSigned a) (hb : FitsSigned b) : op.onInts a b ≠ .ok .null := by
  intro h
  obtain ⟨n, hn⟩ | ⟨hne, hnull⟩ := onInts_eq_ok h
  · cases hn
  · refine Value.ofFloat_eq_null_iff.1 hnull.symm ?_
    exact Double.isFinite_div_ofInt (natAbs_lt_of_fitsWord ha.fitsWord) (natAbs_lt_of_fitsWord hb.fitsWord) hne

/-- **Two doubles come to null if the exact result is too large**, and only then. -/
theorem onFloats_eq_null_iff {x y : Float} (hx : x.isFinite = true) (hy : y.isFinite = true) :
    op.onFloats x y = .ok .null ↔ op.TooLarge (Binary.decode x).value (Binary.decode y).value := by
  have hok : ∀ r : Float, (Except.ok (Value.ofFloat r) : Except Failure Value) = .ok .null ↔ ¬ r.isFinite = true :=
    fun r => by rw [Except.ok.injEq, Value.ofFloat_eq_null_iff]
  cases op with
  | add => rw [onFloats, hok, Double.isFinite_add hx hy, not_lt, TooLarge]
  | sub => rw [onFloats, hok, Double.isFinite_sub hx hy, not_lt, TooLarge]
  | mul => rw [onFloats, hok, Double.isFinite_mul hx hy, not_lt, TooLarge]
  | div =>
    rw [onFloats, TooLarge]
    split
    · rename_i hzero
      refine iff_of_false (fun h => ?_) fun h => h.1 ((Double.value_eq_zero_iff hy).1 hzero)
      cases h
    · rename_i hzero
      have hne := fun h => hzero ((Double.value_eq_zero_iff hy).2 h)
      rw [hok, Double.isFinite_div hx hy hne, not_lt]
      exact (and_iff_right hne).symm
  | rem =>
    refine iff_of_false (fun h => ?_) id
    rw [onFloats] at h
    split at h
    · cases h
    · exact (hok _).1 h (Double.isFinite_remainder hx)

theorem onOperands_ofNumber (op : MathOp) (m n : Number) :
    (∃ a b, m.toSigned? = some a ∧ n.toSigned? = some b ∧ op.onOperands (.ofNumber m) (.ofNumber n) = op.onInts a b) ∨
      (m.toSigned? = none ∨ n.toSigned? = none) ∧
        op.onOperands (.ofNumber m) (.ofNumber n) = op.onFloats m.toFloat n.toFloat := by
  rw [← Operand.toFloat_ofNumber m, ← Operand.toFloat_ofNumber n, Operand.ofNumber_eq, Operand.ofNumber_eq]
  cases hm : m.toSigned? with
  | none => exact .inr ⟨.inl rfl, rfl⟩
  | some a =>
    cases hn : n.toSigned? with
    | none => exact .inr ⟨.inr rfl, rfl⟩
    | some b => exact .inl ⟨a, b, rfl, rfl, rfl⟩

theorem onOperands_eq_null_iff {m n : Number} : op.onOperands (.ofNumber m) (.ofNumber n) = .ok .null ↔
    (m.toSigned? = none ∨ n.toSigned? = none) ∧ op.TooLarge m.value n.value := by
  obtain ⟨a, b, hm, hn, hints⟩ | ⟨hnot, hfloats⟩ := op.onOperands_ofNumber m n
  · rw [hints, hm, hn]
    refine iff_of_false (onInts_ne_null (Number.fitsSigned_of_toSigned? hm) (Number.fitsSigned_of_toSigned? hn)) ?_
    rintro ⟨hnone | hnone, -⟩
    · cases hnone
    · cases hnone
  · rw [hfloats, onFloats_eq_null_iff m.isFinite_toFloat n.isFinite_toFloat]
    exact (and_iff_right hnot).symm

theorem apply_numbers (op : MathOp) (m n : Number) :
    op.apply (.number m) (.number n) = op.onOperands (.ofNumber m) (.ofNumber n) := by
  simp [apply, Value.string?, Value.isNull, Operand.of?, Value.number?]

/-- **Arithmetic on values comes to null where it overflows**, and only there. -/
theorem apply_eq_null_iff {v w : Value} : op.apply v w = .ok .null ↔ op.Overflows v w := by
  constructor
  · intro h
    obtain ⟨s, hs⟩ | ⟨m, n, rfl, rfl, hnull⟩ := apply_eq_ok h
    · cases hs
    · exact ⟨m, n, rfl, rfl, onOperands_eq_null_iff.1 hnull⟩
  · rintro ⟨m, n, rfl, rfl, h⟩
    rw [apply_numbers]
    exact onOperands_eq_null_iff.2 h

end MathOp

/-! ## Expressions -/

theorem Expr.eval_math_eq_ok_iff {scope : Value} {op : MathOp} {left right : Expr} {r : Value} :
    (Expr.math op left right).eval scope = .ok r ↔
      ∃ v w, left.eval scope = .ok v ∧ right.eval scope = .ok w ∧ op.apply v w = .ok r := by
  constructor
  · intro h
    obtain ⟨v, hv, h⟩ := ok_of_bind_ok h
    obtain ⟨w, hw, h⟩ := ok_of_bind_ok h
    exact ⟨v, w, hv, hw, h⟩
  · rintro ⟨v, w, hv, hw, h⟩
    rw [eval, hv, hw]
    exact h

/-- **Arithmetic comes to null where it overflows**, and else it fails or comes to a number or a string. -/
theorem Expr.eval_math_eq_null_iff (scope : Value) (op : MathOp) (left right : Expr) :
    ((Expr.math op left right).eval scope = .ok .null ↔
      ∃ v w, left.eval scope = .ok v ∧ right.eval scope = .ok w ∧ op.Overflows v w) ∧
    ∀ r, (Expr.math op left right).eval scope = .ok r →
      r = .null ∨ (∃ n, r = .number n) ∨ ∃ s, r = .string s := by
  refine ⟨?_, fun r h => ?_⟩
  · simp only [eval_math_eq_ok_iff, MathOp.apply_eq_null_iff]
  · obtain ⟨v, w, -, -, happly⟩ := eval_math_eq_ok_iff.1 h
    exact MathOp.result_of_apply happly

/-- Ten times 1e308 is null. -/
theorem Expr.eval_math_ten_times :
    let scope : Value := .object [("a", .ofFloat (Float.ofBits 0x7fe1ccf385ebc8a0)), ("b", .ofInt 10 (by decide))]
    (Expr.math .mul (.path ["a"]) (.path ["b"])).eval scope = .ok .null := rfl

end Stencil
