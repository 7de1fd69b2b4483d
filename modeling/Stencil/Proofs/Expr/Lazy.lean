import Stencil.Proofs.Expr.Nodes
/-!
# Laws of the lazy operators

`&&`, `||`, the conditional and the choice evaluate an operand only if the operands before it select it.  They can be
written for each other (`Law`), and what is not selected does not matter (`Unselected`): it may be anything, also what
would fail.

Evaluating a node looks at nothing but what its operands come to.  So an expression can be replaced wherever it stands in
another by one that comes to the same, a frame at a time (`Frame`, `fill`).
-/
namespace Stencil

@[simp] theorem Value.truthy_bool (b : Bool) : (Value.bool b).truthy = b := rfl

namespace Expr

variable {scope : Value}

/-! ## Places -/

inductive Frame
  | mathLeft (op : MathOp) (right : Expr)
  | mathRight (op : MathOp) (left : Expr)
  | compareLeft (op : CompareOp) (right : Expr)
  | compareRight (op : CompareOp) (left : Expr)
  | logicLeft (op : LogicOp) (right : Expr)
  | logicRight (op : LogicOp) (left : Expr)
  | condition (yes no : Expr)
  | yes (condition no : Expr)
  | no (condition yes : Expr)
  | choice (before after : List Expr)
  | negate
  | not

def Frame.plug : Frame → Expr → Expr
  | .mathLeft op right, e => .math op e right
  | .mathRight op left, e => .math op left e
  | .compareLeft op right, e => .compare op e right
  | .compareRight op left, e => .compare op left e
  | .logicLeft op right, e => .logic op e right
  | .logicRight op left, e => .logic op left e
  | .condition y n, e => .ternary e y n
  | .yes c n, e => .ternary c e n
  | .no c y, e => .ternary c y e
  | .choice before after, e => .coalesce (before ++ e :: after)
  | .negate, e => .negate e
  | .not, e => .not e

/-- The expression in which another one stands at a place, which is given by the frames around it, the outermost first. -/
def fill : List Frame → Expr → Expr
  | [], e => e
  | f :: place, e => f.plug (fill place e)

theorem mem_operands_iff {o e : Expr} : o ∈ e.operands ↔ ∃ f : Frame, f.plug o = e := by
  constructor
  · intro h
    have pair : ∀ {l r : Expr}, o ∈ [l, r] → o = l ∨ o = r := by simp
    cases e with
    | path segments | constant v => cases h
    | math op l r =>
      rcases pair h with rfl | rfl
      · exact ⟨.mathLeft op r, rfl⟩
      · exact ⟨.mathRight op l, rfl⟩
    | compare op l r =>
      rcases pair h with rfl | rfl
      · exact ⟨.compareLeft op r, rfl⟩
      · exact ⟨.compareRight op l, rfl⟩
    | logic op l r =>
      rcases pair h with rfl | rfl
      · exact ⟨.logicLeft op r, rfl⟩
      · exact ⟨.logicRight op l, rfl⟩
    | ternary c y n =>
      rcases List.mem_cons.1 h with rfl | h
      · exact ⟨.condition y n, rfl⟩
      rcases pair h with rfl | rfl
      · exact ⟨.yes c n, rfl⟩
      · exact ⟨.no c y, rfl⟩
    | coalesce es =>
      obtain ⟨before, after, rfl⟩ := List.append_of_mem h
      exact ⟨.choice before after, rfl⟩
    | negate x => exact ⟨.negate, List.mem_singleton.1 h ▸ rfl⟩
    | not x => exact ⟨.not, List.mem_singleton.1 h ▸ rfl⟩
  · rintro ⟨f, rfl⟩
    cases f <;> simp [Frame.plug, operands]

/-- **The places in an expression are those of its nodes.** -/
theorem mem_nodes_iff_fill {x e : Expr} : x ∈ e.nodes ↔ ∃ place, fill place x = e := by
  constructor
  · induction e using operandInductionOn with
    | node e ih =>
      intro h
      rcases eq_or_exists_of_mem_nodes h with rfl | ⟨o, ho, hx⟩
      · exact ⟨[], rfl⟩
      · obtain ⟨place, hplace⟩ := ih o ho hx
        obtain ⟨f, hf⟩ := mem_operands_iff.1 ho
        exact ⟨f :: place, by rw [fill, hplace, hf]⟩
  · rintro ⟨place, rfl⟩
    induction place with
    | nil => exact mem_nodes_self x
    | cons f place ih => exact nodes_subset (mem_operands_iff.2 ⟨f, rfl⟩) ih

/-! ## Replacing at a place -/

theorem evalFirst_append_congr {es fs : List Expr} (h : evalFirst scope es = evalFirst scope fs) (before : List Expr) :
    evalFirst scope (before ++ es) = evalFirst scope (before ++ fs) := by
  induction before with
  | nil => exact h
  | cons e before ih => rw [List.cons_append, List.cons_append, evalFirst, evalFirst, ih]

theorem eval_plug_congr {x y : Expr} (f : Frame) (h : x.eval scope = y.eval scope) :
    (f.plug x).eval scope = (f.plug y).eval scope := by
  cases f with
  | choice before after =>
    have hrest : evalFirst scope (x :: after) = evalFirst scope (y :: after) := by rw [evalFirst, evalFirst, h]
    rw [Frame.plug, Frame.plug, eval, eval]
    exact evalFirst_append_congr hrest before
  | _ => rw [Frame.plug, Frame.plug, eval, eval, h]

/-- **An expression comes to the same if what stands at a place in it does.** -/
theorem eval_fill_congr {x y : Expr} (place : List Frame) (h : x.eval scope = y.eval scope) :
    (fill place x).eval scope = (fill place y).eval scope := by
  induction place with
  | nil => exact h
  | cons f place ih => exact eval_plug_congr f ih

/-! ## Selecting operands -/

theorem eval_and (a b : Expr) : (logic .and a b).eval scope =
    (a.eval scope).bind fun v => if v.truthy then b.eval scope else .ok v := by
  rw [eval]
  cases a.eval scope with
  | error failure => rfl
  | ok v => cases hv : v.truthy <;> simp [bind, Except.bind, hv, pure, Except.pure]

theorem eval_or (a b : Expr) : (logic .or a b).eval scope =
    (a.eval scope).bind fun v => if v.truthy then .ok v else b.eval scope := by
  rw [eval]
  cases a.eval scope with
  | error failure => rfl
  | ok v => cases hv : v.truthy <;> simp [bind, Except.bind, hv, pure, Except.pure]

theorem eval_ternary (c yes no : Expr) : (ternary c yes no).eval scope =
    (c.eval scope).bind fun v => if v.truthy then yes.eval scope else no.eval scope := by
  rw [eval]; rfl

theorem eval_not (e : Expr) : (not e).eval scope = (e.eval scope).map fun v => .bool (!v.truthy) := by
  rw [eval]
  cases e.eval scope <;> rfl

theorem evalFirst_append (es fs : List Expr) : evalFirst scope (es ++ fs) =
    (evalFirst scope es).bind fun v => if v.isNull then evalFirst scope fs else .ok v := by
  induction es with
  | nil => rfl
  | cons e es ih =>
    rw [List.cons_append, evalFirst, evalFirst]
    cases e.eval scope with
    | error failure => rfl
    | ok v => cases hv : v.isNull <;> simp [bind, Except.bind, hv, pure, Except.pure, ih]

theorem evalFirst_eq_null_iff {es : List Expr} :
    evalFirst scope es = .ok .null ↔ ∀ e ∈ es, e.eval scope = .ok .null := by
  induction es with
  | nil => exact ⟨fun _ _ he => (nomatch he), fun _ => rfl⟩
  | cons e es ih =>
    rw [evalFirst, List.forall_mem_cons, ← ih]
    cases e.eval scope with
    | error failure => exact ⟨fun h => (by cases h), fun h => (by cases h.1)⟩
    | ok v =>
      cases v with
      | null => exact ⟨fun h => ⟨rfl, h⟩, fun h => h.2⟩
      | _ => exact ⟨fun h => (by cases h), fun h => (by cases h.1)⟩

/-! ## Laws -/

/-- **What lazy operators can be written as with each other.** -/
inductive Law : Expr → Expr → Prop
  | and (a b : Expr) : Law (.logic .and a b) (.ternary a b a)
  | or (a b : Expr) : Law (.logic .or a b) (.ternary a a b)
  | notAnd (a b : Expr) : Law (.not (.logic .and a b)) (.logic .or (.not a) (.not b))
  | notOr (a b : Expr) : Law (.not (.logic .or a b)) (.logic .and (.not a) (.not b))
  | notCondition (a b c : Expr) : Law (.ternary (.not a) b c) (.ternary a c b)
  | choices (xs ys zs : List Expr) : Law (.coalesce (xs ++ [.coalesce ys] ++ zs)) (.coalesce (xs ++ ys ++ zs))

theorem eval_of_law {x y : Expr} (h : Law x y) : x.eval scope = y.eval scope := by
  cases h with
  | and a b | or a b =>
    simp only [eval_and, eval_or, eval_ternary]
    cases a.eval scope <;> rfl
  | notAnd a b | notOr a b =>
    simp only [eval_not, eval_and, eval_or]
    cases a.eval scope with
    | error failure => rfl
    | ok v => cases hv : v.truthy <;> simp [Except.bind, Except.map, hv]
  | notCondition a b c =>
    simp only [eval_not, eval_ternary]
    cases a.eval scope with
    | error failure => rfl
    | ok v => cases hv : v.truthy <;> simp [Except.bind, Except.map, hv]
  | choices xs ys zs =>
    have hnested : evalFirst scope ([.coalesce ys] ++ zs) = evalFirst scope (ys ++ zs) := by
      rw [evalFirst_append ys, List.singleton_append, evalFirst, eval]
      rfl
    rw [eval, eval, List.append_assoc, List.append_assoc]
    exact evalFirst_append_congr hnested xs

/-- **Two expressions that differ only in what is not selected in a scope**: an operand, or some of several choices, whose
turn does not come, for what stands before either decides otherwise or fails. -/
inductive Unselected (scope : Value) : Expr → Expr → Prop
  | and {a : Expr} (b c : Expr) (h : ∀ v, a.eval scope = .ok v → v.truthy = false) :
      Unselected scope (.logic .and a b) (.logic .and a c)
  | or {a : Expr} (b c : Expr) (h : ∀ v, a.eval scope = .ok v → v.truthy = true) :
      Unselected scope (.logic .or a b) (.logic .or a c)
  | yes {a : Expr} (b c no : Expr) (h : ∀ v, a.eval scope = .ok v → v.truthy = false) :
      Unselected scope (.ternary a b no) (.ternary a c no)
  | no {a : Expr} (yes b c : Expr) (h : ∀ v, a.eval scope = .ok v → v.truthy = true) :
      Unselected scope (.ternary a yes b) (.ternary a yes c)
  | choices {xs : List Expr} (ys zs : List Expr) (h : ∃ x ∈ xs, x.eval scope ≠ .ok .null) :
      Unselected scope (.coalesce (xs ++ ys)) (.coalesce (xs ++ zs))

theorem bind_congr_ok {ε α β : Type} {x : Except ε α} {f g : α → Except ε β} (h : ∀ a, x = .ok a → f a = g a) :
    x.bind f = x.bind g := by
  cases x with
  | error e => rfl
  | ok a => exact h a rfl

theorem eval_of_unselected {x y : Expr} (h : Unselected scope x y) : x.eval scope = y.eval scope := by
  cases h with
  | and b c h | or b c h | yes b c no h | no yes b c h =>
    simp only [eval_and, eval_or, eval_ternary]
    refine bind_congr_ok fun v hv => ?_
    simp [h v hv]
  | choices ys zs h =>
    rw [eval, eval, evalFirst_append, evalFirst_append]
    refine bind_congr_ok fun v hv => ?_
    cases v with
    | null =>
      obtain ⟨x, hx, hne⟩ := h
      exact absurd (evalFirst_eq_null_iff.1 hv x hx) hne
    | _ => rfl

/-- **Lazy operators obey their laws anywhere in an expression, and what is not selected does not matter there**: with
either side of a law, or whatever stands where it is not selected, the whole comes to the same value or fails alike. -/
theorem eval_fill_lazy {x y : Expr} (h : Law x y ∨ Unselected scope x y) (place : List Frame) :
    (fill place x).eval scope = (fill place y).eval scope := by
  refine eval_fill_congr place ?_
  rcases h with h | h
  · exact eval_of_law h
  · exact eval_of_unselected h

/-- An operand that fails: behind `&&` it is selected and fails with either side of the law, behind `||` it is not. -/
theorem eval_fill_lazy_failing :
    let scope : Value := .object [("on", .bool true)]
    let place : List Frame := [.choice [.constant .null] [.path ["c"]], .compareLeft .eq (.constant (.bool true))]
    let both : Expr := .logic .and (.path ["on"]) (.path ["off"])
    let either : Expr := .logic .or (.path ["on"]) (.path ["off"])
    (Law (.not both) (.logic .or (.not (.path ["on"])) (.not (.path ["off"]))) ∧
      (fill place (.not both)).eval scope = (fill place (.logic .or (.not (.path ["on"])) (.not (.path ["off"])))).eval scope ∧
      (fill place (.not both)).eval scope = .error (.undefined "off")) ∧
    Unselected scope either (.logic .or (.path ["on"]) (.constant .null)) ∧
      (fill place either).eval scope = (fill place (.logic .or (.path ["on"]) (.constant .null))).eval scope ∧
      (fill place either).eval scope = .ok (.bool true) := by
  intro scope place both either
  have hlaw : Law (.not both) (.logic .or (.not (.path ["on"])) (.not (.path ["off"]))) := .notAnd _ _
  have hunselected : Unselected scope either (.logic .or (.path ["on"]) (.constant .null)) :=
    .or _ _ fun v hv => by cases hv; rfl
  exact ⟨⟨hlaw, eval_fill_lazy (.inl hlaw) place, rfl⟩, hunselected, eval_fill_lazy (.inr hunselected) place, rfl⟩

end Expr
end Stencil
