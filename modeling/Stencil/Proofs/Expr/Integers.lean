import Stencil.Proofs.Expr.Nodes
/-!
# Arithmetic on integers

An expression of integers is computed exactly or not at all.  Beside its evaluation stands its exact value over the
unbounded integers (`Expr.exactInt?`).  What the machine can compute is said of every node by itself (`Expr.Computable`), and
an expression has its exact value if all its nodes are so; otherwise it fails.
-/
namespace Stencil

def Value.signed? (v : Value) : Option Int := v.number?.bind Number.toSigned?

namespace MathOp

def divides : MathOp → Bool
  | .div | .rem => true
  | .add | .sub | .mul => false

/-- The exact result over the unbounded integers, with quotients and remainders toward zero; there is none by zero. -/
def exactInt? (op : MathOp) (a b : Int) : Option Int :=
  match op with
  | .add => some (a + b)
  | .sub => some (a - b)
  | .mul => some (a * b)
  | .div => if b = 0 then none else some (a.tdiv b)
  | .rem => if b = 0 then none else some (a.tmod b)

end MathOp

namespace Expr

/-- Integers of signed size, as constants and behind paths, under arithmetic and negation. -/
inductive Integral (scope : Value) : Expr → Prop
  | constant {v : Value} {n : Int} (h : v.signed? = some n) : Integral scope (.constant v)
  | path {segments : List String} {v : Value} {n : Int} (hv : resolve segments scope = .ok v)
      (h : v.signed? = some n) : Integral scope (.path segments)
  | math (op : MathOp) {left right : Expr} (hl : Integral scope left) (hr : Integral scope right) :
      Integral scope (.math op left right)
  | negate {operand : Expr} (h : Integral scope operand) : Integral scope (.negate operand)

def exactInt? (scope : Value) : Expr → Option Int
  | .constant v => v.signed?
  | .path segments => (resolve segments scope).toOption.bind Value.signed?
  | .math op left right => (left.exactInt? scope).bind fun a => (right.exactInt? scope).bind fun b => op.exactInt? a b
  | .negate operand => (operand.exactInt? scope).map fun n => -n
  | _ => none

/-- What a node comes to is of signed size, and it divides neither by zero nor -2^63 by -1. -/
structure Computable (scope : Value) (e : Expr) : Prop where
  fits : ∀ n, e.exactInt? scope = some n → FitsSigned n
  divisor_ne_zero : ∀ op left right, e = .math op left right → op.divides = true → right.exactInt? scope ≠ some 0
  quotient_fits : ∀ op left right, e = .math op left right → op.divides = true →
    ¬ (left.exactInt? scope = some (-2 ^ 63) ∧ right.exactInt? scope = some (-1))

def DividesEvenly (scope : Value) (e : Expr) : Prop :=
  ∀ left right a b, e = .math .div left right → left.exactInt? scope = some a → right.exactInt? scope = some b →
    b ≠ 0 → a.tmod b = 0

end Expr

/-! ## One operation -/

theorem signedOr_of_fits {failure : Failure} {n : Int} (h : FitsSigned n) :
    signedOr failure n = .ok (.ofInt n h.fitsWord) := dif_pos h

theorem signedOr_of_not_fits {failure : Failure} {n : Int} (h : ¬ FitsSigned n) :
    signedOr failure n = .error failure := dif_neg h

theorem Value.eq_ofInt_of_signed? {v : Value} {n : Int} (h : v.signed? = some n) :
    ∃ fits : FitsSigned n, v = .ofInt n fits.fitsWord := by
  cases v with
  | number x =>
    cases x with
    | int m word =>
      simp only [signed?, number?, Option.bind_some, Number.toSigned?] at h
      split at h
      · rename_i hm
        cases h
        exact ⟨hm, rfl⟩
      · cases h
    | float x finite => cases h
  | _ => cases h

theorem Operand.of?_ofInt {n : Int} (h : FitsSigned n) : of? (.ofInt n h.fitsWord) = some (.int n) :=
  congrArg some (if_pos h)

theorem Value.negate_ofInt {n : Int} (h : FitsSigned n) :
    (Value.ofInt n h.fitsWord).negate = signedOr .overflow (-n) := by
  rw [negate, Operand.of?_ofInt h]

theorem fitsSigned_tdiv {a b : Int} (ha : FitsSigned a) (h : ¬ (a = -2 ^ 63 ∧ b = -1)) : FitsSigned (a.tdiv b) := by
  have hle : (a.tdiv b).natAbs ≤ a.natAbs := by rw [Int.natAbs_tdiv]; exact Nat.div_le_self _ _
  have hmul : (a.tdiv b).natAbs * b.natAbs ≤ a.natAbs := by rw [Int.natAbs_tdiv]; exact Nat.div_mul_le_self _ _
  unfold FitsSigned at *
  refine Decidable.byContradiction fun hnot => ?_
  have habs : (a.tdiv b).natAbs = 2 ^ 63 := by omega
  rw [habs] at hmul
  obtain rfl | rfl | rfl : b = 0 ∨ b = 1 ∨ b = -1 := by omega
  · rw [Int.tdiv_zero] at habs; cases habs
  · rw [Int.tdiv_one] at hnot; exact hnot ha
  · exact h ⟨by omega, rfl⟩

theorem fitsSigned_tmod (a : Int) {b : Int} (hb : FitsSigned b) (h : b ≠ 0) : FitsSigned (a.tmod b) := by
  have hlt : (a.tmod b).natAbs < b.natAbs := by rw [Int.natAbs_tmod]; exact Nat.mod_lt _ (by omega)
  unfold FitsSigned at *
  omega

theorem not_fitsSigned_least_tdiv {a b : Int} (ha : a = -2 ^ 63) (hb : b = -1) : ¬ FitsSigned (a.tdiv b) := by
  subst ha hb
  decide

namespace MathOp

theorem apply_ofInt (op : MathOp) {a b : Int} (ha : FitsSigned a) (hb : FitsSigned b) :
    op.apply (.ofInt a ha.fitsWord) (.ofInt b hb.fitsWord) = op.onInts a b := by
  unfold apply
  rw [Operand.of?_ofInt ha, Operand.of?_ofInt hb]
  simp [Value.ofInt, Value.string?, Value.isNull, onOperands]

structure Computable (op : MathOp) (a b : Int) : Prop where
  fits : ∀ n, op.exactInt? a b = some n → FitsSigned n
  divisor_ne_zero : op.divides = true → b ≠ 0
  quotient_fits : op.divides = true → ¬ (a = -2 ^ 63 ∧ b = -1)

variable {op : MathOp} {a b : Int}

theorem computable_of_exact {n : Int} (hexact : op.exactInt? a b = some n) (hn : FitsSigned n)
    (hzero : op.divides = true → b ≠ 0) (hquotient : op.divides = true → FitsSigned (a.tdiv b)) : op.Computable a b where
  fits _ h := Option.some.inj (hexact.symm.trans h) ▸ hn
  divisor_ne_zero := hzero
  quotient_fits hop h := not_fitsSigned_least_tdiv h.1 h.2 (hquotient hop)

theorem onInts_of_computable (ha : FitsSigned a) (hdiv : op = .div → b ≠ 0 → a.tmod b = 0) (h : op.Computable a b) :
    ∃ n, ∃ fits : FitsSigned n, op.exactInt? a b = some n ∧ op.onInts a b = .ok (.ofInt n fits.fitsWord) := by
  obtain ⟨hfits, hzero, hquotient⟩ := h
  cases op with
  | add | sub | mul => exact ⟨_, hfits _ rfl, rfl, signedOr_of_fits (hfits _ rfl)⟩
  | div =>
    have hb := hzero rfl
    have hexact : exactInt? .div a b = some (a.tdiv b) := if_neg hb
    refine ⟨_, hfits _ hexact, hexact, ?_⟩
    rw [onInts, if_neg hb, if_neg (fun h => h (hdiv rfl hb)), signedOr_of_fits (hfits _ hexact)]
  | rem =>
    have hb := hzero rfl
    have hexact : exactInt? .rem a b = some (a.tmod b) := if_neg hb
    refine ⟨_, hfits _ hexact, hexact, ?_⟩
    rw [onInts, if_neg hb, if_pos (fitsSigned_tdiv ha (hquotient rfl)), signedOr_of_fits (hfits _ hexact)]

theorem onInts_of_not_computable (hb : FitsSigned b) (hdiv : op = .div → b ≠ 0 → a.tmod b = 0)
    (h : ¬ op.Computable a b) : ∃ failure, op.onInts a b = .error failure := by
  cases op with
  | add | sub | mul =>
    exact ⟨_, signedOr_of_not_fits fun hn => h (computable_of_exact rfl hn nofun nofun)⟩
  | div =>
    by_cases hzero : b = 0
    · exact ⟨_, if_pos hzero⟩
    · rw [onInts, if_neg hzero, if_neg (fun h => h (hdiv rfl hzero))]
      refine ⟨_, signedOr_of_not_fits fun hn => h ?_⟩
      exact computable_of_exact (if_neg hzero) hn (fun _ => hzero) fun _ => hn
  | rem =>
    by_cases hzero : b = 0
    · exact ⟨_, if_pos hzero⟩
    · rw [onInts, if_neg hzero]
      refine ⟨_, if_neg fun hn => h ?_⟩
      exact computable_of_exact (if_neg hzero) (fitsSigned_tmod a hb hzero) (fun _ => hzero) fun _ => hn

end MathOp

/-! ## Whole expressions -/

namespace Expr

variable {scope : Value} {e left right operand : Expr} {a b n : Int}

theorem computable_math_iff {op : MathOp} (hl : left.exactInt? scope = some a) (hr : right.exactInt? scope = some b) :
    (Expr.math op left right).Computable scope ↔ op.Computable a b := by
  have hexact : (Expr.math op left right).exactInt? scope = op.exactInt? a b := by
    rw [exactInt?, hl, hr, Option.bind_some, Option.bind_some]
  constructor
  · rintro ⟨hfits, hzero, hquotient⟩
    refine ⟨fun n hn => hfits n (hexact.trans hn), fun hop hb => ?_, fun hop h => ?_⟩
    · exact hzero _ _ _ rfl hop (hb ▸ hr)
    · exact hquotient _ _ _ rfl hop ⟨h.1 ▸ hl, h.2 ▸ hr⟩
  · rintro ⟨hfits, hzero, hquotient⟩
    refine ⟨fun n hn => hfits n (hexact.symm.trans hn), ?_, ?_⟩
    · rintro _ _ _ ⟨⟩ hop hb
      exact hzero hop (Option.some.inj (hr.symm.trans hb))
    · rintro _ _ _ ⟨⟩ hop ⟨ha, hb⟩
      exact hquotient hop ⟨Option.some.inj (hl.symm.trans ha), Option.some.inj (hr.symm.trans hb)⟩

theorem computable_iff_fits (he : ∀ op left right, e ≠ .math op left right) (hexact : e.exactInt? scope = some n) :
    e.Computable scope ↔ FitsSigned n :=
  ⟨fun h => h.fits n hexact, fun hn => ⟨fun _ h => Option.some.inj (hexact.symm.trans h) ▸ hn,
    fun _ _ _ h => absurd h (he _ _ _), fun _ _ _ h => absurd h (he _ _ _)⟩⟩

/-- An expression has its exact value if all its nodes can be computed, and else it fails. -/
inductive Exactly (scope : Value) (e : Expr) : Prop
  | value {n : Int} (h : ∀ x ∈ e.nodes, x.Computable scope) (hexact : e.exactInt? scope = some n) (fits : FitsSigned n)
      (heval : e.eval scope = .ok (.ofInt n fits.fitsWord))
  | failure {failure : Failure} (h : ¬ ∀ x ∈ e.nodes, x.Computable scope) (heval : e.eval scope = .error failure)

theorem exactly_leaf {v : Value} (hleaf : e.operands = []) (heval : e.eval scope = .ok v)
    (hexact : e.exactInt? scope = v.signed?) (hv : v.signed? = some n) : e.Exactly scope := by
  obtain ⟨fits, rfl⟩ := Value.eq_ofInt_of_signed? hv
  refine .value ?_ (hexact.trans hv) fits heval
  rw [forall_mem_nodes_iff, hleaf]
  refine ⟨(computable_iff_fits ?_ (hexact.trans hv)).2 fits, nofun⟩
  rintro op left right rfl
  cases hleaf

theorem Exactly.math {op : MathOp} (hl : left.Exactly scope) (hr : right.Exactly scope)
    (hdiv : (Expr.math op left right).DividesEvenly scope) : (Expr.math op left right).Exactly scope := by
  have hnodes : (∀ x ∈ (Expr.math op left right).nodes, x.Computable scope) ↔
      (Expr.math op left right).Computable scope ∧ (∀ x ∈ left.nodes, x.Computable scope) ∧ ∀ x ∈ right.nodes, x.Computable scope := by
    rw [forall_mem_nodes_iff]
    simp [operands]
  cases hl with
  | @failure f h heval =>
    have hfails : (Expr.math op left right).eval scope = .error f := by rw [eval, heval]; rfl
    exact .failure (fun hall => h (hnodes.1 hall).2.1) hfails
  | @value a hleft ha fitsa hevala =>
    cases hr with
    | @failure f h heval =>
      have hfails : (Expr.math op left right).eval scope = .error f := by rw [eval, hevala, heval]; rfl
      exact .failure (fun hall => h (hnodes.1 hall).2.2) hfails
    | @value b hright hb fitsb hevalb =>
      have heval : (Expr.math op left right).eval scope = op.onInts a b := by
        rw [eval, hevala, hevalb, ← op.apply_ofInt fitsa fitsb]
        rfl
      have hdiv' : op = .div → b ≠ 0 → a.tmod b = 0 := by
        rintro rfl hzero
        exact hdiv _ _ _ _ rfl ha hb hzero
      by_cases hop : op.Computable a b
      · obtain ⟨n, fits, hexact, hn⟩ := MathOp.onInts_of_computable fitsa hdiv' hop
        refine .value (hnodes.2 ⟨(computable_math_iff ha hb).2 hop, hleft, hright⟩) ?_ fits (heval.trans hn)
        rw [exactInt?, ha, hb, Option.bind_some, Option.bind_some, hexact]
      · obtain ⟨failure, hn⟩ := MathOp.onInts_of_not_computable fitsb hdiv' hop
        exact .failure (fun hall => hop ((computable_math_iff ha hb).1 (hnodes.1 hall).1)) (heval.trans hn)

theorem Exactly.negate (h : operand.Exactly scope) : (Expr.negate operand).Exactly scope := by
  have hnodes : (∀ x ∈ (Expr.negate operand).nodes, x.Computable scope) ↔ (Expr.negate operand).Computable scope ∧
      ∀ x ∈ operand.nodes, x.Computable scope := by
    rw [forall_mem_nodes_iff]
    simp [operands]
  cases h with
  | @failure f h heval =>
    have hfails : (Expr.negate operand).eval scope = .error f := by rw [eval, heval]; rfl
    exact .failure (fun hall => h (hnodes.1 hall).2) hfails
  | @value n hoperand hn fits hevaln =>
    have hexact : (Expr.negate operand).exactInt? scope = some (-n) := by rw [exactInt?, hn, Option.map_some]
    have hnode : (Expr.negate operand).Computable scope ↔ FitsSigned (-n) :=
      computable_iff_fits (fun _ _ _ h => by cases h) hexact
    have heval : (Expr.negate operand).eval scope = signedOr .overflow (-n) := by
      rw [eval, hevaln, ← Value.negate_ofInt fits]
      rfl
    by_cases hneg : FitsSigned (-n)
    · exact .value (hnodes.2 ⟨hnode.2 hneg, hoperand⟩) hexact hneg (heval.trans (signedOr_of_fits hneg))
    · exact .failure (fun hall => hneg (hnode.1 (hnodes.1 hall).1)) (heval.trans (signedOr_of_not_fits hneg))

theorem exactly_of_integral (h : e.Integral scope) : (∀ x ∈ e.nodes, x.DividesEvenly scope) → e.Exactly scope := by
  induction h with
  | constant h => exact fun _ => exactly_leaf rfl rfl rfl h
  | path hv h =>
    intro _
    refine exactly_leaf rfl hv ?_ h
    rw [exactInt?, hv]
    rfl
  | math op hl hr ihl ihr =>
    intro hdiv
    obtain ⟨hnode, hoperands⟩ := forall_mem_nodes_iff.1 hdiv
    have hl := ihl (hoperands _ (by simp [operands]))
    have hr := ihr (hoperands _ (by simp [operands]))
    exact hl.math hr hnode
  | negate h ih =>
    intro hdiv
    exact (ih ((forall_mem_nodes_iff.1 hdiv).2 _ (by simp [operands]))).negate

/-- **Arithmetic on integers is exact or fails.**  An expression of integers in which no division leaves a remainder comes
to its exact value over the unbounded integers if all its nodes can be computed, and fails otherwise. -/
theorem eval_of_integral {scope : Value} {e : Expr} (h : e.Integral scope)
    (hdiv : ∀ x ∈ e.nodes, x.DividesEvenly scope) :
    ((∀ x ∈ e.nodes, x.Computable scope) →
      ∃ n fits, e.exactInt? scope = some n ∧ FitsSigned n ∧ e.eval scope = .ok (.ofInt n fits)) ∧
    ((¬ ∀ x ∈ e.nodes, x.Computable scope) → ∃ failure, e.eval scope = .error failure) := by
  cases exactly_of_integral h hdiv with
  | value hall hexact fits heval => exact ⟨fun _ => ⟨_, _, hexact, fits, heval⟩, fun hnot => absurd hall hnot⟩
  | failure hnot heval => exact ⟨fun hall => absurd hall hnot, fun _ => ⟨_, heval⟩⟩

/-- The least integer halved, negated and divided; and its remainder by -1, which is exactly 0 and fails. -/
theorem eval_of_integral_least :
    let scope : Value := .object [("n", .ofInt (-2 ^ 63) (by decide))]
    let n : Expr := .path ["n"]
    let int := fun m (fits : FitsWord m) => Expr.constant (.ofInt m fits)
    let halved : Expr := .math .rem (.negate (.math .div n (int 2 (by decide)))) (int 3 (by decide))
    let remainder : Expr := .math .add (.math .rem n (int (-1) (by decide))) (int 1 (by decide))
    (∃ fits, halved.eval scope = .ok (.ofInt 1 fits)) ∧
      remainder.exactInt? scope = some 1 ∧ ∃ failure, remainder.eval scope = .error failure := by
  intro scope n int halved remainder
  have hn : n.Integral scope := .path rfl (n := -2 ^ 63) rfl
  have hint : ∀ {m} (fits : FitsWord m), FitsSigned m → (int m fits).Integral scope :=
    fun fits h => .constant (dif_pos h)
  have hhalved : ∀ x ∈ halved.nodes, x.DividesEvenly scope ∧ x.Computable scope := by
    intro x hx
    simp only [halved, n, int, nodes, List.nil_append, List.cons_append, List.mem_cons, List.not_mem_nil, or_false] at hx
    obtain rfl | rfl | rfl | rfl | rfl | rfl := hx
    all_goals
      refine ⟨?_, ?_, ?_, ?_⟩
      · rintro _ _ _ _ ⟨⟩ ⟨⟩ ⟨⟩ - <;> rfl
      · rintro _ ⟨⟩
        decide
      · rintro _ _ _ ⟨⟩ - ⟨⟩
      · rintro _ _ _ ⟨⟩ - ⟨_, ⟨⟩⟩
  have hremainder : ∀ x ∈ remainder.nodes, x.DividesEvenly scope := by
    intro x hx
    simp only [remainder, n, int, nodes, List.nil_append, List.cons_append, List.mem_cons, List.not_mem_nil, or_false] at hx
    obtain rfl | rfl | rfl | rfl | rfl := hx
    all_goals rintro _ _ _ _ ⟨⟩
  have hintegral : halved.Integral scope :=
    .math .rem (.negate (.math .div hn (hint _ (by decide)))) (hint _ (by decide))
  have hintegral' : remainder.Integral scope := .math .add (.math .rem hn (hint _ (by decide))) (hint _ (by decide))
  have hleast : ¬ ∀ x ∈ remainder.nodes, x.Computable scope := by
    intro hall
    have hmem : Expr.math .rem n (int (-1) (by decide)) ∈ remainder.nodes := by simp [remainder, nodes]
    exact (hall _ hmem).quotient_fits _ _ _ rfl rfl ⟨rfl, rfl⟩
  obtain ⟨m, fits, hexact, -, heval⟩ :=
    (eval_of_integral hintegral fun x hx => (hhalved x hx).1).1 fun x hx => (hhalved x hx).2
  have hm : m = 1 := (Option.some.inj hexact).symm
  subst hm
  exact ⟨⟨fits, heval⟩, rfl, (eval_of_integral hintegral' hremainder).2 hleast⟩

end Expr
end Stencil
