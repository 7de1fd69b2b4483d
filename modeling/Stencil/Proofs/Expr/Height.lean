import Mathlib
import Stencil.Proofs.Expr.Printed
import Stencil.Proofs.Expr.Provenance
/-!
# The height of expressions

A *way* leads from an expression down to a leaf.  The two limits of the parser bound every way: what the levels of a
derivation bound are the conditionals and signs on a way and the comparisons on it (`Derives.within`), and what its
operators bound are the joints of the whole expression, which are the operators between operands other than comparisons.

The calls of an evaluation follow the ways, each evaluating one operand of an expression (`evalBy`).  So with room for the
longest way an evaluation is complete, whatever were to come of a call beyond that (`evalWithin_eq`).
-/
namespace Stencil

open Grammar

namespace Expr

/-! ## Ways and joints -/

/-- The nodes on the way from an expression down to a leaf. -/
inductive Way : Expr → List Expr → Prop
  | leaf {e : Expr} (h : e.operands = []) : Way e [e]
  | down {e o : Expr} {way : List Expr} (ho : o ∈ e.operands) (h : Way o way) : Way e (e :: way)

/-- The operators that a node is, comparisons apart: choices have one less than operands. -/
def joints : Expr → Nat
  | .math _ _ _ | .logic _ _ _ => 1
  | .coalesce operands => operands.length - 1
  | _ => 0

def allJoints (e : Expr) : Nat := (e.nodes.map joints).sum

def isNesting : Expr → Bool
  | .ternary _ _ _ | .negate _ | .not _ => true
  | _ => false

def isComparison : Expr → Bool
  | .compare _ _ _ => true
  | _ => false

/-- Choices have at least two operands. -/
def isJoined : Expr → Bool
  | .coalesce operands => 2 ≤ operands.length
  | _ => true

variable {e : Expr}

theorem allJoints_eq (e : Expr) : e.allJoints = e.joints + (e.operands.map allJoints).sum := by
  unfold allJoints
  rw [nodes_eq, List.map_cons, List.sum_cons, List.map_flatMap, List.flatMap_def, List.sum_flatten, List.map_map]
  rfl

theorem two_le_of_isJoined {es : List Expr} (h : (Expr.coalesce es).isJoined = true) : 2 ≤ es.length := of_decide_eq_true h

theorem operandOperators_eq (es : List Expr) : operandOperators es = es.length + (es.map operators).sum := by
  induction es with
  | nil => rfl
  | cons e es ih => rw [operandOperators, ih, List.length_cons, List.map_cons, List.sum_cons]; omega

/-- **The operators of an expression are its joints**, if all its choices are between two operands or more. -/
theorem operators_eq_allJoints (e : Expr) : (∀ x ∈ e.nodes, x.isJoined = true) → e.operators = e.allJoints := by
  induction e using inductionOn with
  | path segments | constant v => exact fun _ => rfl
  | math op l r ihl ihr | logic op l r ihl ihr | compare op l r ihl ihr =>
    intro h
    have hl := ihl fun x hx => h x (nodes_subset (by simp [operands]) hx)
    have hr := ihr fun x hx => h x (nodes_subset (by simp [operands]) hx)
    simp only [allJoints_eq (.math _ _ _), allJoints_eq (.logic _ _ _), allJoints_eq (.compare _ _ _), operators, operands,
      joints, List.map_cons, List.map_nil, List.sum_cons, List.sum_nil, hl, hr]
    omega
  | ternary c yes no ihc ihy ihn =>
    intro h
    have hc := ihc fun x hx => h x (nodes_subset (by simp [operands]) hx)
    have hy := ihy fun x hx => h x (nodes_subset (by simp [operands]) hx)
    have hn := ihn fun x hx => h x (nodes_subset (by simp [operands]) hx)
    simp only [allJoints_eq (.ternary _ _ _), operators, operands, joints, List.map_cons, List.map_nil, List.sum_cons,
      List.sum_nil, hc, hy, hn]
    omega
  | coalesce es ih =>
    intro h
    have hlength := two_le_of_isJoined (h _ (mem_nodes_self _))
    have hes : es.map operators = es.map allJoints :=
      List.map_congr_left fun o ho => ih o ho fun x hx => h x (nodes_subset ho hx)
    simp only [allJoints_eq (.coalesce _), operators, operands, joints, operandOperators_eq, hes]
    omega
  | negate o ih | not o ih =>
    intro h
    have ho := ih fun x hx => h x (nodes_subset (by simp [operands]) hx)
    simp only [allJoints_eq (.negate _), allJoints_eq (.not _), operators, operands, joints, List.map_cons, List.map_nil,
      List.sum_cons, List.sum_nil, ho]
    omega

theorem Way.length_le {way : List Expr} (h : e.Way way) : (∀ x ∈ e.nodes, x.isJoined = true) →
    way.length ≤ e.allJoints + way.countP isNesting + way.countP isComparison + 1 := by
  induction h with
  | leaf => exact fun _ => by simp only [List.length_singleton]; omega
  | @down e o way ho h ih =>
    intro hjoined
    have hlength := ih fun x hx => hjoined x (nodes_subset ho hx)
    have hsum : o.allJoints ≤ (e.operands.map allJoints).sum := List.le_sum_of_mem (List.mem_map_of_mem ho)
    have hnode : 1 ≤ e.joints + (if e.isNesting then 1 else 0) + (if e.isComparison then 1 else 0) := by
      have he := hjoined e (mem_nodes_self e)
      cases e with
      | path | constant => cases ho
      | coalesce es =>
        have hlength := two_le_of_isJoined he
        simp only [joints]
        omega
      | _ => simp [joints, isNesting, isComparison]
    rw [allJoints_eq, List.length_cons, List.countP_cons, List.countP_cons]
    omega

/-! ## What levels bound -/

def Within (e : Expr) (nesting comparisons : Nat) : Prop :=
  ∀ way, e.Way way → way.countP isNesting ≤ nesting ∧ way.countP isComparison ≤ comparisons

theorem Within.mono {m n m' n' : Nat} (h : e.Within m n) (hm : m ≤ m') (hn : n ≤ n') : e.Within m' n' :=
  fun way hw => ⟨Nat.le_trans (h way hw).1 hm, Nat.le_trans (h way hw).2 hn⟩

theorem Within.operand {m n : Nat} {o : Expr} (h : e.Within m n) (ho : o ∈ e.operands) : o.Within m n := by
  intro way hw
  obtain ⟨hm, hn⟩ := h _ (.down ho hw)
  rw [List.countP_cons] at hm hn
  omega

theorem Within.pair {l r : Expr} {m n m' n' : Nat} (hl : l.Within m n) (hr : r.Within m' n') :
    ∀ o ∈ [l, r], o.Within (max m m') (max n n') :=
  List.forall_mem_cons.2 ⟨hl.mono (Nat.le_max_left m m') (Nat.le_max_left n n'),
    List.forall_mem_singleton.2 (hr.mono (Nat.le_max_right m m') (Nat.le_max_right n n'))⟩

theorem within_of_operands {m n m' n' : Nat} (h : ∀ o ∈ e.operands, o.Within m n)
    (hm : m + (if e.isNesting then 1 else 0) ≤ m') (hn : n + (if e.isComparison then 1 else 0) ≤ n') : e.Within m' n' := by
  intro way hw
  cases hw with
  | leaf =>
    rw [List.countP_cons, List.countP_cons, List.countP_nil, List.countP_nil]
    omega
  | down ho hw =>
    have hway := h _ ho _ hw
    rw [List.countP_cons, List.countP_cons]
    omega

end Expr

def Phrase.openComparisons : Phrase → Nat
  | .comparison | .choices | .coalesce | .conjunction | .disjunction => 1
  | .primary | .unary | .product | .sum | .ternary => 0

namespace Grammar

theorem Chain.openComparisons_eq {p q : Phrase} (h : Chain p q) : q.openComparisons = p.openComparisons := by
  cases h <;> rfl

variable {p : Phrase} {d n : Nat} {ts : List Token} {e : Expr}

theorem Derives.isJoined (h : Derives p d n ts e) : ∀ x ∈ e.nodes, x.isJoined = true := by
  induction h with
  | literal | path => exact Expr.forall_mem_nodes_iff.2 ⟨rfl, by simp [Expr.operands]⟩
  | paren _ ih | primary _ ih | operand _ _ ih | sum _ ih | comparison _ ih | choices _ ih | disjunction _ ih => exact ih
  | negate _ ih | not _ ih =>
    exact Expr.forall_mem_nodes_iff.2 ⟨rfl, List.forall_mem_singleton.2 ih⟩
  | operator _ hs _ _ ihl ihr =>
    cases hs
    all_goals exact Expr.forall_mem_nodes_iff.2 ⟨rfl, List.forall_mem_cons.2 ⟨ihl, List.forall_mem_singleton.2 ihr⟩⟩
  | compare _ _ _ ihl ihr | firstChoices _ _ ihl ihr =>
    exact Expr.forall_mem_nodes_iff.2 ⟨rfl, List.forall_mem_cons.2 ⟨ihl, List.forall_mem_singleton.2 ihr⟩⟩
  | nextChoice _ _ ihl ihr =>
    have hlength := Expr.two_le_of_isJoined (ihl _ (Expr.mem_nodes_self _))
    refine Expr.forall_mem_nodes_iff.2 ⟨decide_eq_true ?_, List.forall_mem_append.2 ⟨fun o ho => ?_, ?_⟩⟩
    · rw [List.length_append]; omega
    · exact fun x hx => ihl x (Expr.nodes_subset ho hx)
    · exact List.forall_mem_singleton.2 ihr
  | ternary _ _ _ ihc ihy ihn =>
    exact Expr.forall_mem_nodes_iff.2
      ⟨rfl, List.forall_mem_cons.2 ⟨ihc, List.forall_mem_cons.2 ⟨ihy, List.forall_mem_singleton.2 ihn⟩⟩⟩

/-- **Levels bound what nests**: no way of a derived expression has more conditionals and signs than the derivation has
levels, and none has more comparisons than that, but for one where the phrase itself may be a comparison. -/
theorem Derives.within (h : Derives p d n ts e) : e.Within d (d + p.openComparisons) := by
  induction h with
  | literal | path =>
    exact Expr.within_of_operands (m := 0) (n := 0) (by simp [Expr.operands]) (Nat.le_refl 0) (Nat.le_refl 0)
  | paren _ ih | primary _ ih | sum _ ih | comparison _ ih | choices _ ih | disjunction _ ih =>
    exact ih.mono (by omega) (by simp only [Phrase.openComparisons]; omega)
  | operand hp _ ih => exact hp.openComparisons_eq ▸ ih
  | @negate d _ _ o _ ih | @not d _ _ o _ ih =>
    have ho : ∀ x ∈ [o], x.Within d d := List.forall_mem_singleton.2 ih
    exact Expr.within_of_operands ho (Nat.le_refl _) (Nat.le_add_right _ _)
  | operator hp hs _ _ ihl ihr =>
    have hlevels := fun k d d' => Nat.le_of_eq (Nat.add_max_add_right d d' k)
    rw [hp.openComparisons_eq] at ihr
    cases hs
    all_goals exact Expr.within_of_operands (ihl.pair ihr) (Nat.le_refl _) (hlevels _ _ _)
  | compare _ _ _ ihl ihr => exact Expr.within_of_operands (ihl.pair ihr) (Nat.le_refl _) (Nat.le_refl _)
  | firstChoices _ _ ihl ihr =>
    exact Expr.within_of_operands (ihl.pair ihr) (Nat.le_refl _) (Nat.le_of_eq (Nat.add_max_add_right _ _ _))
  | @nextChoice d d' _ _ _ _ es r _ _ ihl ihr =>
    have hes : ∀ o ∈ es, o.Within (max d d') (max d d' + 1) := fun o ho =>
      (ihl.operand ho).mono (Nat.le_max_left d d') (Nat.succ_le_succ (Nat.le_max_left d d'))
    have hr : r.Within (max d d') (max d d' + 1) :=
      ihr.mono (Nat.le_max_right d d') (Nat.succ_le_succ (Nat.le_max_right d d'))
    have hoperands : ∀ o ∈ es ++ [r], o.Within (max d d') (max d d' + 1) :=
      List.forall_mem_append.2 ⟨hes, List.forall_mem_singleton.2 hr⟩
    exact Expr.within_of_operands hoperands (Nat.le_refl _) (Nat.le_refl _)
  | @ternary d d₁ d₂ _ _ _ _ _ _ c yes no _ _ _ ihc ihy ihn =>
    -- the condition stands at the level of the conditional itself, each branch at one within it
    have hoperands : ∀ o ∈ [c, yes, no], o.Within (max d (max d₁ d₂)) (max d (max d₁ d₂) + 1) := by
      have hbranches : ∀ o ∈ [yes, no], o.Within (max d₁ d₂) (max d₁ d₂) := ihy.pair ihn
      refine List.forall_mem_cons.2 ⟨ihc.mono (by omega) (by simp only [Phrase.openComparisons]; omega), fun o ho => ?_⟩
      exact (hbranches o ho).mono (by omega) (by omega)
    exact Expr.within_of_operands hoperands (Nat.le_refl _) (Nat.le_refl _)

end Grammar

namespace Expr

/-! ## Calls of an evaluation -/

/-- The first of some operands' values that is not null, or null; `call` evaluates operands. -/
def firstBy (call : Expr → Except Failure Value) : List Expr → Except Failure Value
  | [] => .ok .null
  | e :: rest => do
    let v ← call e
    if v.isNull then firstBy call rest else return v

/-- **One call of an evaluation**; `call` evaluates operands. -/
def evalBy (scope : Value) (call : Expr → Except Failure Value) : Expr → Except Failure Value
  | .path segments => resolve segments scope
  | .constant v => .ok v
  | .math op left right => do
    let a ← call left
    let b ← call right
    op.apply a b
  | .compare op left right => do
    let a ← call left
    let b ← call right
    return .bool (← op.apply a b)
  | .logic op left right => do
    let a ← call left
    match op, a.truthy with
    | .and, false | .or, true => return a
    | _, _ => call right
  | .ternary condition yes no => do
    let c ← call condition
    if c.truthy then call yes else call no
  | .coalesce operands => firstBy call operands
  | .negate operand => do
    let v ← call operand
    v.negate
  | .not operand => do
    let v ← call operand
    return .bool (!v.truthy)

/-- An evaluation with so many calls within each other; `beyond` stands for all calls within those. -/
def evalWithin (scope : Value) (beyond : Expr → Except Failure Value) : Nat → Expr → Except Failure Value
  | 0 => beyond
  | calls + 1 => evalBy scope (evalWithin scope beyond calls)

theorem firstBy_eval (scope : Value) (es : List Expr) : firstBy (eval scope) es = evalFirst scope es := by
  induction es with
  | nil => rfl
  | cons e es ih => rw [firstBy, evalFirst, ih]

theorem evalBy_eval (scope : Value) (e : Expr) : evalBy scope (eval scope) e = e.eval scope := by
  cases e with
  | coalesce es => rw [evalBy, eval, firstBy_eval]
  | logic => rw [eval]; rfl
  | _ => rw [evalBy, eval]

theorem firstBy_congr {f g : Expr → Except Failure Value} {es : List Expr} (h : ∀ o ∈ es, f o = g o) :
    firstBy f es = firstBy g es := by
  induction es with
  | nil => rfl
  | cons e es ih =>
    obtain ⟨he, hes⟩ := List.forall_mem_cons.1 h
    rw [firstBy, firstBy, he, ih hes]

theorem evalBy_congr {scope : Value} {f g : Expr → Except Failure Value} (h : ∀ o ∈ e.operands, f o = g o) :
    evalBy scope f e = evalBy scope g e := by
  cases e with
  | path | constant => rfl
  | coalesce es => exact firstBy_congr h
  | _ =>
    simp only [operands, List.forall_mem_cons] at h
    simp only [evalBy, h]

theorem exists_way (e : Expr) : ∃ way, e.Way way := by
  have hdown : ∀ {e o : Expr}, o ∈ e.operands → (∃ way, o.Way way) → ∃ way, e.Way way :=
    fun ho ⟨way, hw⟩ => ⟨_, .down ho hw⟩
  induction e using inductionOn with
  | path | constant => exact ⟨_, .leaf rfl⟩
  | math _ _ _ ih | compare _ _ _ ih | logic _ _ _ ih | ternary _ _ _ ih | negate _ ih | not _ ih =>
    exact hdown List.mem_cons_self ih
  | coalesce es ih =>
    cases es with
    | nil => exact ⟨_, .leaf rfl⟩
    | cons o es => exact hdown List.mem_cons_self (ih o List.mem_cons_self)

/-- **Room for the longest way is room for the evaluation.** -/
theorem evalWithin_eq {scope : Value} {beyond : Expr → Except Failure Value} {calls : Nat} {e : Expr}
    (h : ∀ way, e.Way way → way.length ≤ calls) : evalWithin scope beyond calls e = e.eval scope := by
  induction calls generalizing e with
  | zero =>
    obtain ⟨way, hw⟩ := exists_way e
    have hlength := h way hw
    cases hw <;> exact absurd hlength (by simp)
  | succ calls ih =>
    rw [evalWithin, ← evalBy_eval scope e]
    refine evalBy_congr fun o ho => ih fun way hw => ?_
    exact Nat.le_of_succ_le_succ (h _ (.down ho hw))

/-! ## Expressions that are read from texts -/

/-- **The limits of the parser bound the height of an expression.**  It has at most 1024 joints, and choices only between
two operands or more.  On every way there are at most 64 conditionals and signs and at most 64 comparisons, so that no way
has more nodes than these and a leaf.  As many calls within each other are enough for its evaluation. -/
theorem height_of_parse {source : String} {e : Expr} (h : parse source = .ok e) :
    e.allJoints ≤ 1024 ∧ (∀ operands, .coalesce operands ∈ e.nodes → 2 ≤ operands.length) ∧
    (∀ way, e.Way way → way.countP isNesting ≤ 64 ∧ way.countP isComparison ≤ 64 ∧ way.length ≤ 1024 + 64 + 64 + 1) ∧
    ∀ scope beyond, evalWithin scope beyond (1024 + 64 + 64 + 1) e = e.eval scope := by
  obtain ⟨ts, depth, n, -, hd, hdepth, hn⟩ := exists_derives_of_parse h
  have hjoints : e.allJoints ≤ 1024 := by
    rw [← operators_eq_allJoints e hd.isJoined, hd.bounds.1]
    exact hn
  have hways : ∀ way, e.Way way → way.countP isNesting ≤ 64 ∧ way.countP isComparison ≤ 64 ∧
      way.length ≤ 1024 + 64 + 64 + 1 := by
    intro way hw
    obtain ⟨hnesting, hcomparisons⟩ := hd.within.mono hdepth hdepth way hw
    have hlength := hw.length_le hd.isJoined
    omega
  exact ⟨hjoints, fun es hes => two_le_of_isJoined (hd.isJoined _ hes), hways,
    fun scope beyond => evalWithin_eq fun way hw => (hways way hw).2.2⟩

/-- The way through a conditional, choices and a sign. -/
theorem height_of_parse_choices : ∃ e, parse "a < b ? -c ?? d + 1 : !e" = .ok e ∧ e.allJoints = 2 ∧ e.allJoints ≤ 1024 ∧
    (∃ way, e.Way way ∧ way.length = 4 ∧ way.countP isNesting = 2 ∧ way.countP isNesting ≤ 64 ∧
      way.length ≤ 1024 + 64 + 64 + 1) ∧
    ∀ scope beyond, evalWithin scope beyond (1024 + 64 + 64 + 1) e = e.eval scope := by
  let c : Expr := .negate (.path ["c"])
  let choices : Expr := .coalesce [c, .math .add (.path ["d"]) (.constant (.ofInt 1 (by decide)))]
  let e : Expr := .ternary (.compare .lt (.path ["a"]) (.path ["b"])) choices (.not (.path ["e"]))
  have htext : e.text (fun _ => .single) = "a < b ? -c ?? d + 1 : !e" := by decide +kernel
  have hparse : parse "a < b ? -c ?? d + 1 : !e" = .ok e :=
    htext ▸ (shown_chars _ e (by decide +kernel)).ternary.parse_eq (by decide) (by decide)
  have hway : e.Way [e, choices, c, .path ["c"]] :=
    .down (o := choices) (by simp [e, operands]) (.down (o := c) (by simp [choices, operands])
      (.down (o := .path ["c"]) (by simp [c, operands]) (.leaf rfl)))
  obtain ⟨hjoints, -, hways, hcalls⟩ := height_of_parse hparse
  obtain ⟨hnesting, -, hlength⟩ := hways _ hway
  exact ⟨e, hparse, rfl, hjoints, ⟨_, hway, rfl, rfl, hnesting, hlength⟩, hcalls⟩

end Expr
end Stencil
