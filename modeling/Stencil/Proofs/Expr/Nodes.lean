import Stencil.Expr.Eval
/-!
# The nodes of an expression

The nodes of an expression are the expression itself and all expressions in it.  A scope matters to an expression only
through what the paths among its nodes come to (`eval_congr`), and to these only through the entry of their first segment
(`resolve_congr`), so that two scopes with the same entries under these are as good as one (`eval_congr_of_roots`).
-/
namespace Stencil

namespace Expr

@[elab_as_elim] theorem inductionOn {motive : Expr → Prop} (e : Expr) (path : ∀ segments, motive (.path segments))
    (constant : ∀ v, motive (.constant v))
    (math : ∀ op left right, motive left → motive right → motive (.math op left right))
    (compare : ∀ op left right, motive left → motive right → motive (.compare op left right))
    (logic : ∀ op left right, motive left → motive right → motive (.logic op left right))
    (ternary : ∀ condition yes no, motive condition → motive yes → motive no → motive (.ternary condition yes no))
    (coalesce : ∀ operands, (∀ e ∈ operands, motive e) → motive (.coalesce operands))
    (negate : ∀ operand, motive operand → motive (.negate operand))
    (not : ∀ operand, motive operand → motive (.not operand)) : motive e := by
  refine Expr.rec (motive_1 := motive) (motive_2 := fun operands => ∀ e ∈ operands, motive e)
    path constant math compare logic ternary coalesce negate not ?_ ?_ e
  · exact fun _ h => nomatch h
  · exact fun _ _ he hrest => List.forall_mem_cons.2 ⟨he, hrest⟩

mutual

def nodes : Expr → List Expr
  | e@(.path _) | e@(.constant _) => [e]
  | e@(.math _ left right) | e@(.compare _ left right) | e@(.logic _ left right) => e :: (left.nodes ++ right.nodes)
  | e@(.ternary condition yes no) => e :: (condition.nodes ++ (yes.nodes ++ no.nodes))
  | e@(.coalesce operands) => e :: operandNodes operands
  | e@(.negate operand) | e@(.not operand) => e :: operand.nodes

def operandNodes : List Expr → List Expr
  | [] => []
  | e :: rest => e.nodes ++ operandNodes rest

end

theorem operandNodes_eq (operands : List Expr) : operandNodes operands = operands.flatMap nodes := by
  induction operands with
  | nil => rfl
  | cons e rest ih => rw [operandNodes, ih, List.flatMap_cons]

def operands : Expr → List Expr
  | .path _ | .constant _ => []
  | .math _ left right | .compare _ left right | .logic _ left right => [left, right]
  | .ternary condition yes no => [condition, yes, no]
  | .coalesce operands => operands
  | .negate operand | .not operand => [operand]

/-- **Induction on an expression by its operands**, whatever kind of node it is. -/
@[elab_as_elim] theorem operandInductionOn {motive : Expr → Prop} (e : Expr)
    (node : ∀ e, (∀ o ∈ e.operands, motive o) → motive e) : motive e := by
  induction e using inductionOn with
  | path _ | constant _ => exact node _ fun _ h => nomatch h
  | math _ _ _ ihl ihr | compare _ _ _ ihl ihr | logic _ _ _ ihl ihr =>
    exact node _ (List.forall_mem_cons.2 ⟨ihl, List.forall_mem_singleton.2 ihr⟩)
  | ternary _ _ _ ihc ihy ihn =>
    exact node _ (List.forall_mem_cons.2 ⟨ihc, List.forall_mem_cons.2 ⟨ihy, List.forall_mem_singleton.2 ihn⟩⟩)
  | coalesce _ ih => exact node _ ih
  | negate _ ih | not _ ih => exact node _ (List.forall_mem_singleton.2 ih)

theorem nodes_eq (e : Expr) : e.nodes = e :: e.operands.flatMap nodes := by
  cases e with
  | coalesce operands => rw [nodes, operandNodes_eq, Expr.operands]
  | _ => simp only [nodes, operands, List.flatMap_cons, List.flatMap_nil, List.append_nil]

theorem nodes_subset {e operand : Expr} (h : operand ∈ e.operands) : operand.nodes ⊆ e.nodes := fun x hx => by
  rw [nodes_eq e]
  exact List.mem_cons_of_mem _ (List.mem_flatMap.2 ⟨operand, h, hx⟩)

theorem eq_or_exists_of_mem_nodes {x e : Expr} (h : x ∈ e.nodes) : x = e ∨ ∃ operand ∈ e.operands, x ∈ operand.nodes := by
  rw [nodes_eq] at h
  exact (List.mem_cons.1 h).imp_right List.mem_flatMap.1

theorem mem_nodes_self (e : Expr) : e ∈ e.nodes := by
  rw [nodes_eq]
  exact List.mem_cons_self

theorem forall_mem_nodes_iff {P : Expr → Prop} {e : Expr} :
    (∀ x ∈ e.nodes, P x) ↔ P e ∧ ∀ o ∈ e.operands, ∀ x ∈ o.nodes, P x := by
  constructor
  · exact fun h => ⟨h e (mem_nodes_self e), fun o ho x hx => h x (nodes_subset ho hx)⟩
  · rintro ⟨he, h⟩ x hx
    rcases eq_or_exists_of_mem_nodes hx with rfl | ⟨o, ho, hx⟩
    · exact he
    · exact h o ho x hx

def root? : Expr → Option String
  | .path segments => segments.head?
  | _ => none

def roots (e : Expr) : List String := e.nodes.filterMap root?

theorem mem_roots {e : Expr} {segments : List String} {root : String} (hpath : .path segments ∈ e.nodes)
    (hroot : segments.head? = some root) : root ∈ e.roots :=
  List.mem_filterMap.2 ⟨.path segments, hpath, hroot⟩

/-! ## What a scope matters for -/

theorem resolve_congr {c d : Value} {segments : List String}
    (h : ∀ root, segments.head? = some root → c.entry? root = d.entry? root) :
    resolve segments c = resolve segments d := by
  cases segments with
  | nil => rfl
  | cons root rest =>
    have hroot := h root rfl
    have hdescend : ∀ c : Value, (c.entry? root).isSome = true →
        c.descend? (root :: rest) = (c.entry? root).bind (·.follow? rest) := by
      intro c hc
      cases c with
      | object es => rfl
      | _ => cases hc
    rw [resolve, resolve]
    by_cases hc : (c.entry? root).isSome = true
    · rw [hdescend c hc, hdescend d (hroot ▸ hc), hroot]
    · rw [if_neg hc, if_neg (hroot ▸ hc)]

theorem evalFirst_congr {c d : Value} {operands : List Expr} (h : ∀ e ∈ operands, e.eval c = e.eval d) :
    evalFirst c operands = evalFirst d operands := by
  induction operands with
  | nil => rfl
  | cons e rest ih =>
    obtain ⟨he, hrest⟩ := List.forall_mem_cons.1 h
    rw [evalFirst, evalFirst, he, ih hrest]

theorem eval_congr {c d : Value} {e : Expr} :
    (∀ segments, .path segments ∈ e.nodes → resolve segments c = resolve segments d) → e.eval c = e.eval d := by
  induction e using inductionOn with
  | path segments => exact fun h => h segments List.mem_cons_self
  | constant v => exact fun _ => rfl
  | math op left right ihl ihr | compare op left right ihl ihr | logic op left right ihl ihr =>
    intro h
    have hl := ihl fun p hp => h p (nodes_subset (by simp [operands]) hp)
    have hr := ihr fun p hp => h p (nodes_subset (by simp [operands]) hp)
    rw [eval, eval, hl, hr]
  | ternary condition yes no ihc ihy ihn =>
    intro h
    have hc := ihc fun p hp => h p (nodes_subset (by simp [operands]) hp)
    have hy := ihy fun p hp => h p (nodes_subset (by simp [operands]) hp)
    have hn := ihn fun p hp => h p (nodes_subset (by simp [operands]) hp)
    rw [eval, eval, hc, hy, hn]
  | coalesce operands ih =>
    intro h
    rw [eval, eval]
    exact evalFirst_congr fun e he => ih e he fun p hp => h p (nodes_subset he hp)
  | negate operand ih | not operand ih =>
    intro h
    rw [eval, eval, ih fun p hp => h p (nodes_subset (by simp [operands]) hp)]

/-- **An expression reads only the entries of the first segments of its paths.** -/
theorem eval_congr_of_roots {c d : Value} {e : Expr} (h : ∀ root ∈ e.roots, c.entry? root = d.entry? root) :
    e.eval c = e.eval d :=
  eval_congr fun _ hpath => resolve_congr fun root hroot => h root (mem_roots hpath hroot)

end Expr

end Stencil
