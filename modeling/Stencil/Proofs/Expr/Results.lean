import Stencil.Expr.Eval
/-!
# What arithmetic comes to

An operation that does not fail joins two texts, or is on two numbers (`MathOp.apply_eq_ok`).  Integers come to integers,
and to a double only where a quotient is inexact; doubles come to what is written for a double, a number or null.
-/
namespace Stencil

theorem ok_of_bind_ok {ε α β : Type} {x : Except ε α} {f : α → Except ε β} {b : β} (h : (x >>= f) = .ok b) :
    ∃ a, x = .ok a ∧ f a = .ok b := by
  cases x with
  | error e => cases h
  | ok a => exact ⟨a, rfl, h⟩

theorem ok_of_any_toOption {ε α : Type} {x : Except ε α} {p : α → Bool} (h : x.toOption.any p = true) :
    ∃ a, x = .ok a ∧ p a = true := by
  cases x with
  | error e => cases h
  | ok a => exact ⟨a, rfl, h⟩

theorem signedOr_eq_ok {failure : Failure} {n : Int} {v : Value} (h : signedOr failure n = .ok v) :
    ∃ x, v = .number x := by
  unfold signedOr at h
  split at h
  · cases h
    exact ⟨_, rfl⟩
  · cases h

theorem Value.ofFloat_cases (x : Float) : (∃ n, ofFloat x = .number n) ∨ ofFloat x = .null := by
  unfold ofFloat
  split
  · exact .inl ⟨_, rfl⟩
  · exact .inr rfl

theorem Operand.exists_number {v : Value} {x : Operand} (h : of? v = some x) : ∃ n, v = .number n ∧ ofNumber n = x := by
  cases v with
  | number n => exact ⟨n, rfl, Option.some.inj h⟩
  | _ => cases h

namespace MathOp

variable {op : MathOp}

theorem onInts_eq_ok {a b : Int} {v : Value} (h : op.onInts a b = .ok v) :
    (∃ n, v = .number n) ∨ b ≠ 0 ∧ v = .ofFloat (Float.ofInt a / Float.ofInt b) := by
  cases op with
  | add | sub | mul => exact .inl (signedOr_eq_ok h)
  | div =>
    rw [onInts] at h
    split at h
    · cases h
    · rename_i hb
      split at h
      · cases h
        exact .inr ⟨hb, rfl⟩
      · exact .inl (signedOr_eq_ok h)
  | rem =>
    rw [onInts] at h
    split at h
    · cases h
    · split at h
      · exact .inl (signedOr_eq_ok h)
      · cases h

theorem onFloats_eq_ok {a b : Float} {v : Value} (h : op.onFloats a b = .ok v) : ∃ x, v = .ofFloat x := by
  cases op with
  | add | sub | mul => exact ⟨_, (Except.ok.inj h).symm⟩
  | div | rem =>
    rw [onFloats] at h
    split at h
    · cases h
    · exact ⟨_, (Except.ok.inj h).symm⟩

theorem onOperands_eq_ok {x y : Operand} {v : Value} (h : op.onOperands x y = .ok v) : (∃ n, v = .number n) ∨ v = .null := by
  unfold onOperands at h
  split at h
  · obtain hnumber | ⟨-, rfl⟩ := onInts_eq_ok h
    · exact .inl hnumber
    · exact Value.ofFloat_cases _
  · obtain ⟨r, rfl⟩ := onFloats_eq_ok h
    exact Value.ofFloat_cases r

theorem apply_eq_ok {left right v : Value} (h : op.apply left right = .ok v) : (∃ s, v = .string s) ∨
    ∃ m n, left = .number m ∧ right = .number n ∧ op.onOperands (.ofNumber m) (.ofNumber n) = .ok v := by
  unfold apply at h
  split at h
  · cases h
    exact .inl ⟨_, rfl⟩
  · split at h
    · cases h
    · split at h
      · rename_i hx hy
        obtain ⟨m, rfl, rfl⟩ := Operand.exists_number hx
        obtain ⟨n, rfl, rfl⟩ := Operand.exists_number hy
        exact .inr ⟨m, n, rfl, rfl, h⟩
      · cases h

theorem result_of_apply {left right v : Value} (h : op.apply left right = .ok v) :
    v = .null ∨ (∃ n, v = .number n) ∨ ∃ s, v = .string s := by
  obtain hstring | ⟨m, n, -, -, h⟩ := apply_eq_ok h
  · exact .inr (.inr hstring)
  · obtain hnumber | hnull := onOperands_eq_ok h
    · exact .inr (.inl hnumber)
    · exact .inl hnull

end MathOp
end Stencil
