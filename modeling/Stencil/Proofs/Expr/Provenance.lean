import Stencil.Proofs.Entries
import Stencil.Proofs.Expr.Nodes
import Stencil.Proofs.Expr.Parse
import Stencil.Proofs.Expr.Results
/-!
# Where the values of expressions come from

No value is made up: it is a scalar, or a constant of the expression, or what one of its paths comes to (`origin_of_eval`).
Only scalars are ever computed, and the constants of an expression that is read from a text are scalars, too
(`isScalar_of_parse`).  So everything else that a text comes to is taken out of the scope (`path_of_eval_parse`), from where
a path of the expression leads (`eval_taken_from_scope`).
-/
namespace Stencil

/-! ## Scalars -/

/-- The values without parts that are neither dates nor functions. -/
inductive Value.IsScalar : Value → Prop
  | null : IsScalar .null
  | bool (b : Bool) : IsScalar (.bool b)
  | number (n : Number) : IsScalar (.number n)
  | string (s : String) : IsScalar (.string s)

theorem Value.isScalar_ofFloat (x : Float) : (Value.ofFloat x).IsScalar := by
  obtain ⟨n, hn⟩ | hnull := ofFloat_cases x
  · rw [hn]
    exact .number n
  · rw [hnull]
    exact .null

theorem MathOp.isScalar_of_apply {op : MathOp} {left right v : Value} (h : op.apply left right = .ok v) : v.IsScalar := by
  obtain rfl | ⟨n, rfl⟩ | ⟨s, rfl⟩ := result_of_apply h
  · exact .null
  · exact .number n
  · exact .string s

theorem Value.isScalar_of_negate {v w : Value} (h : v.negate = .ok w) : w.IsScalar := by
  unfold negate at h
  split at h
  · obtain ⟨n, rfl⟩ := signedOr_eq_ok h
    exact .number n
  · cases h
    exact isScalar_ofFloat _
  · cases h

namespace Expr

/-- Where a value of an expression can come from. -/
inductive Origin (scope : Value) (e : Expr) (v : Value) : Prop
  | computed (h : v.IsScalar)
  | constant (h : .constant v ∈ e.nodes)
  | path {segments : List String} (h : .path segments ∈ e.nodes) (hv : resolve segments scope = .ok v)

theorem Origin.mono {scope : Value} {e e' : Expr} {v : Value} (h : Origin scope e v) (hsub : e.nodes ⊆ e'.nodes) :
    Origin scope e' v := by
  cases h with
  | computed h => exact .computed h
  | constant h => exact .constant (hsub h)
  | path h hv => exact .path (hsub h) hv

theorem exists_of_evalFirst {scope : Value} : ∀ {operands : List Expr} {v : Value}, evalFirst scope operands = .ok v →
    v = .null ∨ ∃ e ∈ operands, e.eval scope = .ok v
  | [], v, h => by cases h; exact .inl rfl
  | e :: rest, v, h => by
    rw [evalFirst] at h
    obtain ⟨w, hw, h⟩ := ok_of_bind_ok h
    split at h
    · obtain h | ⟨e', he', hv⟩ := exists_of_evalFirst h
      · exact .inl h
      · exact .inr ⟨e', List.mem_cons_of_mem _ he', hv⟩
    · cases h
      exact .inr ⟨e, List.mem_cons_self, hw⟩

/-- **No value is made up**: it is computed, a constant, or what a path comes to. -/
theorem origin_of_eval {scope : Value} {e : Expr} : ∀ {v : Value}, e.eval scope = .ok v → Origin scope e v := by
  induction e using inductionOn with
  | path segments => exact fun h => .path List.mem_cons_self h
  | constant v =>
    intro w h
    cases h
    exact .constant List.mem_cons_self
  | math op left right =>
    intro v h
    obtain ⟨a, -, h⟩ := ok_of_bind_ok h
    obtain ⟨b, -, h⟩ := ok_of_bind_ok h
    exact .computed (MathOp.isScalar_of_apply h)
  | compare op left right =>
    intro v h
    obtain ⟨a, -, h⟩ := ok_of_bind_ok h
    obtain ⟨b, -, h⟩ := ok_of_bind_ok h
    obtain ⟨c, -, h⟩ := ok_of_bind_ok h
    cases h
    exact .computed (.bool c)
  | logic op left right ihl ihr =>
    intro v h
    obtain ⟨a, ha, h⟩ := ok_of_bind_ok h
    have hleft : left.nodes ⊆ (Expr.logic op left right).nodes := nodes_subset (by simp [operands])
    split at h
    · cases h
      exact (ihl ha).mono hleft
    · cases h
      exact (ihl ha).mono hleft
    · exact (ihr h).mono (nodes_subset (by simp [operands]))
  | ternary condition yes no ihc ihy ihn =>
    intro v h
    obtain ⟨c, -, h⟩ := ok_of_bind_ok h
    split at h
    · exact (ihy h).mono (nodes_subset (by simp [operands]))
    · exact (ihn h).mono (nodes_subset (by simp [operands]))
  | coalesce operands ih =>
    intro v h
    rcases exists_of_evalFirst h with rfl | ⟨e, he, hv⟩
    · exact .computed .null
    · exact (ih e he hv).mono (nodes_subset he)
  | negate operand =>
    intro v h
    obtain ⟨a, -, h⟩ := ok_of_bind_ok h
    exact .computed (Value.isScalar_of_negate h)
  | not operand =>
    intro v h
    obtain ⟨a, -, h⟩ := ok_of_bind_ok h
    cases h
    exact .computed (.bool _)

end Expr

/-! ## Expressions that are read from texts -/

open Grammar

theorem Grammar.Literal.isScalar {t : Token} {v : Value} (h : Literal t v) : v.IsScalar := by
  cases h with
  | int n fits word => exact .number _
  | float x => exact Value.isScalar_ofFloat x
  | string s => exact .string s
  | bool b => exact .bool b
  | null => exact .null

def Expr.ScalarConstants (e : Expr) : Prop := ∀ v, .constant v ∈ e.nodes → v.IsScalar

theorem Expr.scalarConstants_of_operands {e : Expr} (he : ∀ v, e ≠ .constant v)
    (h : ∀ operand ∈ e.operands, operand.ScalarConstants) : e.ScalarConstants := by
  intro v hv
  rcases eq_or_exists_of_mem_nodes hv with heq | ⟨operand, hoperand, hv⟩
  · exact absurd heq.symm (he v)
  · exact h operand hoperand v hv

theorem Grammar.Derives.scalarConstants {p : Phrase} {d n : Nat} {ts : List Token} {e : Expr} (h : Derives p d n ts e) :
    e.ScalarConstants := by
  induction h with
  | literal h =>
    intro v hv
    cases List.mem_singleton.1 hv
    exact h.isScalar
  | path h => exact Expr.scalarConstants_of_operands (by simp) (by simp [Expr.operands])
  | paren _ ih | primary _ ih | operand _ _ ih | sum _ ih | comparison _ ih | choices _ ih | disjunction _ ih => exact ih
  | negate _ ih | not _ ih => exact Expr.scalarConstants_of_operands (by simp) (by simp [Expr.operands, ih])
  | operator _ hs _ _ ihl ihr =>
    cases hs
    all_goals exact Expr.scalarConstants_of_operands (by simp) (by simp [Expr.operands, ihl, ihr])
  | compare _ _ _ ihl ihr | firstChoices _ _ ihl ihr =>
    exact Expr.scalarConstants_of_operands (by simp) (by simp [Expr.operands, ihl, ihr])
  | nextChoice _ _ ihl ihr =>
    refine Expr.scalarConstants_of_operands (by simp) (List.forall_mem_append.2 ⟨fun operand h => ?_, ?_⟩)
    · exact fun v hv => ihl v (Expr.nodes_subset h hv)
    · exact List.forall_mem_singleton.2 ihr
  | ternary _ _ _ ihc ihy ihn =>
    exact Expr.scalarConstants_of_operands (by simp) (by simp [Expr.operands, ihc, ihy, ihn])

namespace Expr

theorem isScalar_of_parse {source : String} {e : Expr} (h : parse source = .ok e) {v : Value}
    (hv : .constant v ∈ e.nodes) : v.IsScalar :=
  have ⟨_, _, _, _, hd, _⟩ := exists_derives_of_parse h
  hd.scalarConstants v hv

/-- **What a text comes to is a scalar or taken out of the scope.** -/
theorem path_of_eval_parse {source : String} {e : Expr} {scope v : Value} (hparse : parse source = .ok e)
    (h : e.eval scope = .ok v) (hv : ¬ v.IsScalar) :
    ∃ segments, .path segments ∈ e.nodes ∧ resolve segments scope = .ok v := by
  cases origin_of_eval h with
  | computed h => exact absurd h hv
  | constant h => exact absurd (isScalar_of_parse hparse h) hv
  | path h hr => exact ⟨_, h, hr⟩

end Expr

/-! ## Arrays, objects, dates and functions -/

theorem Value.not_isScalar_iff {v : Value} : ¬ v.IsScalar ↔ v.isComposite = true ∨ ∃ f, v = .function f := by
  constructor
  · intro h
    cases v with
    | null => exact absurd .null h
    | bool b => exact absurd (.bool b) h
    | number n => exact absurd (.number n) h
    | string s => exact absurd (.string s) h
    | array | object | date => exact .inl rfl
    | function f => exact .inr ⟨f, rfl⟩
  · rintro (h | ⟨f, rfl⟩) hscalar
    · cases hscalar <;> cases h
    · cases hscalar

theorem Value.exists_of_entry?_isSome {v : Value} {key : String} (h : (v.entry? key).isSome = true) :
    ∃ es, v = .object es ∧ key ∈ Entries.keys es := by
  cases v with
  | object es =>
    obtain ⟨w, hw⟩ := Option.isSome_iff_exists.1 h
    exact ⟨es, rfl, List.mem_map.2 ⟨_, Entries.mem_of_get? hw, rfl⟩⟩
  | _ => cases h

namespace Expr

theorem descend?_of_resolve {segments : List String} {scope v : Value} (h : resolve segments scope = .ok v)
    (hv : v ≠ .null) : scope.descend? segments = some v ∧
      ∃ root rest es, segments = root :: rest ∧ scope = .object es ∧ root ∈ Entries.keys es := by
  cases segments with
  | nil => cases h
  | cons root rest =>
    rw [resolve] at h
    split at h
    · rename_i hroot
      obtain ⟨es, hes, hkey⟩ := Value.exists_of_entry?_isSome hroot
      refine ⟨?_, root, rest, es, rfl, hes, hkey⟩
      cases hd : scope.descend? (root :: rest) with
      | none => rw [hd] at h; cases h; exact absurd rfl hv
      | some w => rw [hd] at h; cases h; rfl
    · cases h

/-- **Arrays, objects, dates and functions are taken out of the scope.**  If all constants of an expression are scalars and
it comes to any of these, then that stands where a path of the expression leads, whose first segment is a key of the scope.
The constants of every expression that is read from a text are scalars. -/
theorem eval_taken_from_scope :
    (∀ (e : Expr) (scope v : Value), e.ScalarConstants → e.eval scope = .ok v →
      (v.isComposite = true ∨ ∃ f, v = .function f) →
      ∃ root rest es, .path (root :: rest) ∈ e.nodes ∧ scope = .object es ∧ root ∈ Entries.keys es ∧
        scope.descend? (root :: rest) = some v) ∧
    ∀ (source : String) (e : Expr), parse source = .ok e → e.ScalarConstants := by
  refine ⟨fun e scope v hconstants heval hv => ?_, fun source e hparse v hv => isScalar_of_parse hparse hv⟩
  have hscalar := Value.not_isScalar_iff.2 hv
  cases origin_of_eval heval with
  | computed h => exact absurd h hscalar
  | constant h => exact absurd (hconstants v h) hscalar
  | path hpath hresolve =>
    have hnull : v ≠ .null := fun h => hscalar (h ▸ .null)
    obtain ⟨hlead, root, rest, es, rfl, hes, hkey⟩ := descend?_of_resolve hresolve hnull
    exact ⟨root, rest, es, hpath, hes, hkey, hlead⟩

/-- A function in an array, behind a choice and a condition that is computed. -/
theorem eval_taken_from_scope_chosen :
    let scope : Value := .object [("a", .null), ("b", .object [("c", .array [.function ⟨3⟩])])]
    ∃ e, parse "a ?? (1 + 1 == 2 ? b.c[0] : 'x')" = .ok e ∧ e.eval scope = .ok (.function ⟨3⟩) ∧
      ∃ root rest es, .path (root :: rest) ∈ e.nodes ∧ scope = .object es ∧ root ∈ Entries.keys es ∧
        scope.descend? (root :: rest) = some (.function ⟨3⟩) := by
  intro scope
  have hcheck : ((parse "a ?? (1 + 1 == 2 ? b.c[0] : 'x')").toOption.any fun e =>
      (e.eval scope).toOption.any (Value.same (.function ⟨3⟩))) = true := by decide +kernel
  obtain ⟨e, hparse, hcheck⟩ := ok_of_any_toOption hcheck
  obtain ⟨v, heval, hsame⟩ := ok_of_any_toOption hcheck
  have hv : v = .function ⟨3⟩ := by
    cases v with
    | function f => rw [of_decide_eq_true hsame]
    | _ => cases hsame
  subst hv
  have hconstants := eval_taken_from_scope.2 _ e hparse
  exact ⟨e, hparse, heval, eval_taken_from_scope.1 e scope _ hconstants heval (.inr ⟨_, rfl⟩)⟩

end Expr
end Stencil
