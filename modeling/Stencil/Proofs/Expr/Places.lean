import Mathlib.Order.MinMax
import Stencil.Proofs.Expr.Printer
/-!
# Places in an expression

An operand stands at a place, a phrase of the grammar, and derives as every phrase that is looser than it
(`Derives.loosen`).  At a tighter place it stands only in parentheses (`Derives.exists_paren_of_not_fits`).  So the
parentheses of `Expr.text` are just those that the grammar requires, and no other text of an expression has fewer levels
or another number of operators (`Derives.bounds`).
-/
namespace Stencil

open Grammar

/-- The phrases at the levels of the grammar; primaries and choices are just some of those at their level. -/
def Phrase.IsPlace (p : Phrase) : Prop := p ≠ .primary ∧ p ≠ .choices

instance (p : Phrase) : Decidable p.IsPlace := inferInstanceAs (Decidable (_ ∧ _))

theorem Phrase.eq_of_looseness_eq {p q : Phrase} (hp : p.IsPlace) (hq : q.IsPlace) (h : p.looseness = q.looseness) :
    p = q := by
  revert hp hq h
  cases p <;> cases q <;> decide

theorem Phrase.looseness_operand {p : Phrase} (hp : p.IsPlace) :
    p.operand.looseness = p.looseness - 1 ∧ p.operand.IsPlace := by
  revert hp
  cases p <;> decide

theorem Phrase.looseness_lt_ternary {p : Phrase} (h : p ≠ .ternary) : p.looseness < Phrase.ternary.looseness := by
  revert h
  cases p <;> decide

theorem Grammar.Chain.ne_ternary {p q : Phrase} (h : Chain p q) : p ≠ .ternary := by
  rintro rfl
  cases h

namespace Grammar.Derives

variable {p q : Phrase} {d n : Nat} {ts : List Token} {e : Expr}

theorem congr {d' n' : Nat} (h : Derives p d n ts e) (hd : d = d') (hn : n = n') : Derives p d' n' ts e := hd ▸ hn ▸ h

theorem ne_nil_of_choices {es : List Expr} (h : Derives .choices d n ts (.coalesce es)) : es ≠ [] := by
  generalize he : Expr.coalesce es = e at h
  cases h with
  | operand hp => cases hp
  | operator hp => cases hp
  | firstChoices => cases he; simp
  | nextChoice => cases he; simp

theorem of_operand (h : Derives p.operand d n ts e) (hp : p.IsPlace) (hternary : p ≠ .ternary) :
    Derives p d n ts e := by
  cases p with
  | unary => exact h
  | product => exact .operand .product h
  | sum => exact .operand .sum h
  | comparison => exact .sum h
  | coalesce => exact .comparison h
  | conjunction => exact .operand .conjunction h
  | disjunction => exact .operand .disjunction h
  | primary | choices => exact absurd hp (by decide)
  | ternary => exact absurd rfl hternary

/-- **What derives as a phrase derives as every looser one**; a ternary apart, these are at the same level. -/
theorem loosen (h : Derives q d n ts e) (hq : q.IsPlace) (hp : p.IsPlace) (hternary : p ≠ .ternary)
    (hle : q.looseness ≤ p.looseness) : Derives p d n ts e := by
  induction hk : p.looseness - q.looseness generalizing p with
  | zero =>
    have heq := Phrase.eq_of_looseness_eq hq hp (by omega)
    exact heq ▸ h
  | succ k ih =>
    obtain ⟨hoperand, hplace⟩ := Phrase.looseness_operand hp
    have hne : p.operand ≠ .ternary := by cases p <;> decide
    exact of_operand (ih hplace hne (by omega) (by omega)) hp hternary

end Grammar.Derives

/-! ## Levels -/

namespace Expr

theorem isPlace_phrase (e : Expr) : e.phrase.IsPlace := by
  cases e with
  | math op _ _ => cases op <;> exact ⟨nofun, nofun⟩
  | logic op _ _ => cases op <;> exact ⟨nofun, nofun⟩
  | _ => exact ⟨nofun, nofun⟩

theorem levelsAt_le (p : Phrase) (e : Expr) (n : Nat) : levelsAt p e n ≤ n + 1 := by
  unfold levelsAt
  split <;> omega

theorem le_levelsAt (p : Phrase) (e : Expr) (n : Nat) : n ≤ levelsAt p e n := by
  unfold levelsAt
  split <;> omega

theorem levelsAt_ternary (e : Expr) (n : Nat) : levelsAt .ternary e n = n + 1 := if_neg fun h => h.2 rfl

theorem levelsAt_mono {p q : Phrase} (e : Expr) (n : Nat) (hle : q.looseness ≤ p.looseness)
    (hternary : p ≠ .ternary) : levelsAt p e n ≤ levelsAt q e n := by
  unfold levelsAt
  by_cases hq : e.Fits q ∧ q ≠ .ternary
  · rw [if_pos hq, if_pos ⟨Nat.le_trans hq.1 hle, hternary⟩]
  · rw [if_neg hq]
    split <;> omega

theorem operandNesting_append (es : List Expr) (e : Expr) :
    operandNesting (es ++ [e]) = max (operandNesting es) (levelsAt .comparison e e.nesting) := by
  induction es with
  | nil => simp only [List.nil_append, operandNesting]; omega
  | cons x es ih => rw [List.cons_append, operandNesting, operandNesting, ih]; omega

theorem operandOperators_append (es : List Expr) (e : Expr) :
    operandOperators (es ++ [e]) = operandOperators es + (e.operators + 1) := by
  induction es with
  | nil => simp only [List.nil_append, operandOperators]; omega
  | cons x es ih => rw [List.cons_append, operandOperators, operandOperators, ih]; omega

variable {e : Expr}

theorem fits_ternary (e : Expr) : e.Fits .ternary := by
  unfold Fits
  cases e.phrase <;> decide

theorem levelsAt_of_fits {p : Phrase} {n : Nat} (h : e.Fits p) (hternary : p ≠ .ternary) : levelsAt p e n = n :=
  if_pos ⟨h, hternary⟩

theorem levelsAt_of_not_fits {p : Phrase} {n : Nat} (h : ¬ e.Fits p) : levelsAt p e n = n + 1 := if_neg fun hp => h hp.1

section Nodes

variable {l r : Expr}

theorem nesting_node {p q : Phrase} {x : Symbol} {node : Expr → Expr → Expr} (hp : Chain p q)
    (hx : Operator p x node) :
    levelsAt p (node l r) (node l r).nesting = max (levelsAt p l l.nesting) (levelsAt q r r.nesting) := by
  cases hx <;> cases hp <;> rfl

theorem operators_node {p : Phrase} {x : Symbol} {node : Expr → Expr → Expr} (hx : Operator p x node) :
    (node l r).operators = l.operators + (r.operators + 1) := by
  cases hx <;> rfl

theorem nesting_pair :
    nesting (.coalesce [l, r]) = max (levelsAt .comparison l l.nesting) (levelsAt .comparison r r.nesting) :=
  congrArg (max _) (Nat.max_zero _)

theorem operators_append {es : List Expr} (hne : es ≠ []) :
    operators (.coalesce (es ++ [r])) = operators (.coalesce es) + (r.operators + 1) := by
  cases es with
  | nil => exact absurd rfl hne
  | cons e es =>
    rw [operators, operandOperators_append, operators, operandOperators]
    omega

theorem operators_pair : operators (.coalesce [l, r]) = l.operators + (r.operators + 1) :=
  operators_append (List.cons_ne_nil l [])

end Nodes
end Expr

/-! ## All derivations -/

namespace Grammar.Derives

open Stencil.Expr

variable {p : Phrase} {d n : Nat} {ts : List Token} {e : Expr}

/-- **The operators of an expression are in all of its texts, and no text has fewer levels than the one written.** -/
theorem bounds (h : Derives p d n ts e) : e.operators = n ∧ levelsAt p e e.nesting ≤ d := by
  induction h with
  | literal h => exact ⟨rfl, Nat.le_refl 0⟩
  | path h => exact ⟨rfl, Nat.le_refl 0⟩
  | paren h ih =>
    rw [levelsAt_ternary] at ih
    exact ⟨ih.1, Nat.le_trans (levelsAt_le _ _ _) ih.2⟩
  | primary h ih | sum h ih | comparison h ih | choices h ih =>
    exact ⟨ih.1, Nat.le_trans (levelsAt_mono _ _ (by decide) (by decide)) ih.2⟩
  | negate h ih | not h ih => exact ⟨ih.1, Nat.succ_le_succ ih.2⟩
  | operand hp h ih =>
    exact ⟨ih.1, Nat.le_trans (levelsAt_mono _ _ (Nat.le_of_lt hp.looseness_lt) hp.ne_ternary) ih.2⟩
  | operator hp hx hl hr ihl ihr =>
    rw [operators_node hx, nesting_node hp hx, ihl.1, ihr.1]
    exact ⟨rfl, max_le_max ihl.2 ihr.2⟩
  | compare hx hl hr ihl ihr =>
    rw [operators, ihl.1, ihr.1]
    exact ⟨rfl, max_le_max ihl.2 ihr.2⟩
  | firstChoices hl hr ihl ihr =>
    rw [operators_pair, ihl.1, ihr.1]
    exact ⟨rfl, nesting_pair.trans_le (max_le_max ihl.2 ihr.2)⟩
  | nextChoice hl hr ihl ihr =>
    rw [operators_append hl.ne_nil_of_choices, ihl.1, ihr.1]
    exact ⟨rfl, (operandNesting_append _ _).trans_le (max_le_max ihl.2 ihr.2)⟩
  | disjunction h ih =>
    rw [levelsAt_ternary]
    exact ⟨ih.1, Nat.succ_le_succ (Nat.le_trans (le_levelsAt _ _ _) ih.2)⟩
  | ternary hc hyes hno ihc ihy ihn =>
    rw [operators, levelsAt_ternary, nesting, ihc.1, ihy.1, ihn.1]
    exact ⟨rfl, Nat.succ_le_succ (max_le_max ihc.2 (max_le_max ihy.2 ihn.2))⟩

/-- **An expression that is too loose for a place stands there only in parentheses.** -/
theorem exists_paren_of_not_fits (h : Derives p d n ts e) (hp : ¬ e.Fits p) :
    ∃ us, ts = .symbol .openParen :: (us ++ [.symbol .closeParen]) ∧ Derives .ternary d n us e := by
  induction h with
  | literal h | path h => exact absurd (Nat.zero_le _) hp
  | paren h => exact ⟨_, rfl, h⟩
  | primary h ih | sum h ih | comparison h ih | choices h ih =>
    exact ih fun hfits => hp (Nat.le_trans hfits (by decide))
  | negate h | not h => exact absurd (Nat.zero_le _) hp
  | operand hc h ih => exact ih fun hfits => hp (Nat.le_trans hfits (Nat.le_of_lt hc.looseness_lt))
  | operator hc hx hl hr => exact absurd (by cases hx <;> exact Nat.le_refl _) hp
  | compare | firstChoices | nextChoice | ternary => exact absurd (Nat.le_refl _) hp
  | disjunction h => exact absurd (fits_ternary _) hp

end Grammar.Derives
end Stencil
