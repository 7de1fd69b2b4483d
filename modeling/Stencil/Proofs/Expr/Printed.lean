import Stencil.Proofs.Expr.Lexing
import Stencil.Proofs.Expr.Parse
import Stencil.Proofs.Expr.Places
/-!
# Parsing what is written

The text of an expression at a place is read as tokens from which the expression derives as that phrase, with the levels
that it has there and with its operators (`Shown`).  This is so for constants and paths and is kept by every kind of node,
hence it holds of every expression that can be written (`shown_chars`), and parsing gives that expression back
(`parse_text`).
-/
namespace Stencil

open Grammar

/-! ## Brackets -/

/-- What stands in the brackets of a path: an index as its decimal digits, or a key between quotation marks. -/
inductive Bracket
  | index (n : Nat) (fits : n < 2 ^ 63)
  | key (quote : Quote) (name : String)

namespace Bracket

def chars : Bracket → List Char
  | index n _ => '[' :: ((toString n).toList ++ [']'])
  | key quote name => '[' :: (quote.around name ++ [']'])

def segment : Bracket → String
  | index n _ => toString n
  | key _ name => name

theorem exists_reads {before : List String} {s : List Char} {ts : List Token} (b : Bracket) (hs : Reads s ts)
    (hp : Grammar.Path ts before) : ∃ us, Reads (s ++ b.chars) us ∧ Grammar.Path us (before ++ [b.segment]) := by
  cases b with
  | index n fits => exact ⟨_, hs.bracket (.int fits), .segment hp (.index n fits)⟩
  | key quote name => exact ⟨_, hs.bracket (.string quote.char_eq name), .segment hp (.key name)⟩

theorem exists_reads_all {before : List String} {s : List Char} {ts : List Token} (brackets : List Bracket)
    (hs : Reads s ts) (hp : Grammar.Path ts before) :
    ∃ us, Reads (s ++ brackets.flatMap chars) us ∧ Grammar.Path us (before ++ brackets.map segment) := by
  induction brackets generalizing before s ts with
  | nil => exact ⟨ts, by simpa using hs, by simpa using hp⟩
  | cons b rest ih =>
    obtain ⟨us, hus, hpath⟩ := b.exists_reads hs hp
    rw [List.flatMap_cons, ← List.append_assoc, List.map_cons, List.append_cons before]
    exact ih hus hpath

end Bracket

namespace Expr

/-- The text is read as tokens from which the expression derives as a phrase, with no more levels than it has there. -/
def Shown (p : Phrase) (e : Expr) (s : List Char) : Prop :=
  ∃ ts, Reads s ts ∧ Derives p (levelsAt p e e.nesting) e.operators ts e

variable {e : Expr} {s : List Char}

theorem Shown.ternary (h : Shown e.phrase e s) : Shown .ternary e s := by
  obtain ⟨ts, hs, hd⟩ := h
  refine ⟨ts, hs, ?_⟩
  by_cases hp : e.phrase = .ternary
  · rwa [hp] at hd
  · have hle : e.phrase.looseness ≤ Phrase.disjunction.looseness := Nat.le_of_lt_succ (Phrase.looseness_lt_ternary hp)
    rw [levelsAt_of_fits (Nat.le_refl _) hp] at hd
    rw [levelsAt_ternary]
    exact .disjunction (hd.loosen (isPlace_phrase e) (by decide) (by decide) hle)

/-- **At every place an expression is shown by its text there**, in parentheses if it is too loose for the place. -/
theorem Shown.enclosed {p : Phrase} (hp : p.IsPlace) (h : Shown e.phrase e s) : Shown p e (enclosed p e s) := by
  unfold Expr.enclosed
  split
  · rename_i hfits
    by_cases hternary : p = .ternary
    · subst hternary
      exact h.ternary
    · have hphrase : e.phrase ≠ .ternary := fun he =>
        absurd (Phrase.looseness_lt_ternary hternary) (Nat.not_lt.2 (he ▸ hfits))
      obtain ⟨ts, hs, hd⟩ := h
      rw [levelsAt_of_fits (Nat.le_refl _) hphrase] at hd
      refine ⟨ts, hs, ?_⟩
      rw [levelsAt_of_fits hfits hternary]
      exact hd.loosen (isPlace_phrase e) hp hternary hfits
  · rename_i hfits
    have hternary : p ≠ .ternary := by
      rintro rfl
      exact hfits (fits_ternary e)
    obtain ⟨ts, hs, hd⟩ := h.ternary
    rw [levelsAt_ternary] at hd
    refine ⟨_, hs.paren, ?_⟩
    rw [levelsAt_of_not_fits hfits]
    exact (Derives.primary (.paren hd)).loosen (by decide) hp hternary (Nat.zero_le _)

/-! ## Nodes -/

variable {l r : Expr} {u : List Char}

theorem Shown.operator {p q : Phrase} {x : Symbol} {node : Expr → Expr → Expr} (hp : Chain p q)
    (hx : Operator p x node) (hl : Shown p l s) (hr : Shown q r u) : Shown p (node l r) (joined x.sign s u) := by
  obtain ⟨ts, hs, hdl⟩ := hl
  obtain ⟨us, hu, hdr⟩ := hr
  have hd := Derives.operator hp hx hdl hdr
  exact ⟨_, hs.operator x hu, hd.congr (nesting_node hp hx).symm (operators_node hx).symm⟩

theorem Shown.compare {x : Symbol} {op : CompareOp} (hx : Comparison x op) (hl : Shown .sum l s) (hr : Shown .sum r u) :
    Shown .comparison (.compare op l r) (joined x.sign s u) := by
  obtain ⟨ts, hs, hdl⟩ := hl
  obtain ⟨us, hu, hdr⟩ := hr
  exact ⟨_, hs.operator x hu, .compare hx hdl hdr⟩

theorem Shown.ternary_node {c yes no : Expr} {v : List Char} (hc : Shown .disjunction c s) (hyes : Shown .ternary yes u)
    (hno : Shown .ternary no v) : Shown .ternary (.ternary c yes no) (joined "?" s (joined ":" u v)) := by
  obtain ⟨ts, hs, hdc⟩ := hc
  obtain ⟨us, hu, hdy⟩ := hyes
  obtain ⟨vs, hv, hdn⟩ := hno
  exact ⟨_, hs.operator .question (hu.operator .colon hv), .ternary hdc hdy hdn⟩

theorem Shown.firstChoices (hl : Shown .comparison l s) (hr : Shown .comparison r u) :
    Shown .choices (.coalesce [l, r]) (joined "??" s u) := by
  obtain ⟨ts, hs, hdl⟩ := hl
  obtain ⟨us, hu, hdr⟩ := hr
  have hd := Derives.firstChoices hdl hdr
  exact ⟨_, hs.operator .coalesce hu, hd.congr nesting_pair.symm operators_pair.symm⟩

theorem Shown.nextChoice {es : List Expr} (hl : Shown .choices (.coalesce es) s) (hr : Shown .comparison r u) :
    Shown .choices (.coalesce (es ++ [r])) (joined "??" s u) := by
  obtain ⟨ts, hs, hdl⟩ := hl
  obtain ⟨us, hu, hdr⟩ := hr
  have hd := Derives.nextChoice hdl hdr
  exact ⟨_, hs.operator .coalesce hu, hd.congr (operandNesting_append es r).symm
    (operators_append hdl.ne_nil_of_choices).symm⟩

theorem Shown.choices {es rest : List Expr} {f : Expr → List Char} (h : Shown .choices (.coalesce es) s)
    (hrest : ∀ e ∈ rest, Shown .comparison e (f e)) :
    Shown .choices (.coalesce (es ++ rest)) ((rest.map f).foldl (joined "??") s) := by
  induction rest generalizing es s with
  | nil => rwa [List.append_nil]
  | cons r rest ih =>
    obtain ⟨hr, hrest⟩ := List.forall_mem_cons.1 hrest
    rw [List.append_cons]
    exact ih (h.nextChoice hr) hrest

theorem Shown.coalesce {es : List Expr} {f : Expr → List Char} (hlength : 2 ≤ es.length)
    (h : ∀ e ∈ es, Shown .comparison e (f e)) : Shown .coalesce (.coalesce es) (joinedAll "??" (es.map f)) := by
  match es, hlength with
  | l :: r :: rest, _ =>
    obtain ⟨hl, h⟩ := List.forall_mem_cons.1 h
    obtain ⟨hr, hrest⟩ := List.forall_mem_cons.1 h
    obtain ⟨ts, hs, hd⟩ := (hl.firstChoices hr).choices hrest
    exact ⟨ts, hs, .choices hd⟩

theorem Shown.negate (h : Shown .unary e s) : Shown .unary (.negate e) ('-' :: s) := by
  obtain ⟨ts, hs, hd⟩ := h
  exact ⟨_, hs.sign (x := .minus) (by decide), .negate hd⟩

theorem Shown.not (h : Shown .unary e s) : Shown .unary (.not e) ('!' :: s) := by
  obtain ⟨ts, hs, hd⟩ := h
  exact ⟨_, hs.sign (x := .bang) (by decide), .not hd⟩

/-! ## Constants and paths -/

theorem exists_word_of_isName {name : String} (h : isName name = true) :
    ∃ c rest, name.toList = c :: rest ∧ Token.isNameStart c = true ∧ rest.all Token.isNameChar = true ∧
      Token.ofWord (c :: rest) = .name name := by
  unfold isName at h
  cases hs : name.toList with
  | nil => rw [hs] at h; cases h
  | cons c rest =>
    simp only [hs, Bool.and_eq_true, decide_eq_true_eq] at h
    obtain ⟨⟨hc, hrest⟩, hkeyword⟩ := h
    refine ⟨c, rest, rfl, hc, hrest, ?_⟩
    have hne : ∀ w ∈ ["true", "false", "null"], c :: rest ≠ w.toList := by
      intro w hw he
      rw [← hs, String.toList_inj] at he
      exact hkeyword (he ▸ hw)
    have htrue : c :: rest ≠ ['t', 'r', 'u', 'e'] := hne "true" (by decide)
    have hfalse : c :: rest ≠ ['f', 'a', 'l', 's', 'e'] := hne "false" (by decide)
    have hnull : c :: rest ≠ ['n', 'u', 'l', 'l'] := hne "null" (by decide)
    rw [Token.ofWord, if_neg htrue, if_neg hfalse, if_neg hnull, ← hs, String.ofList_toList]

theorem reads_name {name : String} (h : isName name = true) : Reads name.toList [.name name] := by
  obtain ⟨c, rest, hs, hc, hrest, hword⟩ := exists_word_of_isName h
  rw [hs, ← hword]
  exact Reads.word hc hrest

theorem shown_path {quote : String → Quote} {segments : List String} (h : segments.head?.any isName = true) :
    Shown .unary (.path segments) (pathChars quote segments) := by
  cases segments with
  | nil => cases h
  | cons root rest =>
    let brackets := rest.map fun name => Bracket.key (quote name) name
    have hchars : pathChars quote (root :: rest) = root.toList ++ brackets.flatMap Bracket.chars := by
      rw [pathChars, List.flatMap_map]
      rfl
    have hsegments : brackets.map Bracket.segment = rest := by
      rw [List.map_map]
      exact List.map_id' rest
    obtain ⟨us, hus, hpath⟩ := Bracket.exists_reads_all brackets (reads_name h) (.root root)
    rw [hsegments] at hpath
    rw [hchars]
    exact ⟨us, hus, .primary (.path hpath)⟩

theorem shown_constant {quote : String → Quote} {v : Value} (h : isLiteral v = true) :
    Shown .unary (.constant v) (constantChars quote v) := by
  have hword : ∀ c rest, Token.isNameStart c = true → rest.all Token.isNameChar = true →
      Literal (Token.ofWord (c :: rest)) v → Shown .unary (.constant v) (c :: rest) :=
    fun c rest hc hrest hv => ⟨_, Reads.word hc hrest, .primary (.literal hv)⟩
  cases v with
  | null => exact hword _ _ (by decide) (by decide) .null
  | bool b =>
    cases b with
    | true => exact hword _ _ (by decide) (by decide) (.bool true)
    | false => exact hword _ _ (by decide) (by decide) (.bool false)
  | string s => exact ⟨_, Reads.string (quote s).char_eq s, .primary (.literal (.string s))⟩
  | number n =>
    cases n with
    | float x finite => cases h
    | int n word =>
      simp only [isLiteral, Bool.and_eq_true, decide_eq_true_eq] at h
      obtain ⟨m, rfl⟩ := Int.eq_ofNat_of_zero_le h.1
      have hm : m < 2 ^ 63 := by omega
      exact ⟨_, Reads.int hm, .primary (.literal (.int m hm word))⟩
  | _ => cases h

/-! ## Expressions -/

theorem operandChars_eq (quote : String → Quote) (es : List Expr) :
    operandChars quote es = es.map fun e => enclosed .comparison e (e.chars quote) := by
  induction es with
  | nil => rfl
  | cons e es ih => rw [operandChars, ih, List.map_cons]

theorem Writable.operand {o : Expr} (h : e.Writable) (ho : o ∈ e.operands) : o.Writable :=
  fun x hx => h x (nodes_subset ho hx)

theorem Writable.isWritable (h : e.Writable) : e.isWritable = true := h e (mem_nodes_self e)

theorem exists_mathOperator (op : MathOp) :
    Chain op.phrase op.phrase.operand ∧ ∃ x, Operator op.phrase x (.math op) ∧ x.sign = op.sign := by
  cases op
  · exact ⟨.sum, _, .add, rfl⟩
  · exact ⟨.sum, _, .sub, rfl⟩
  · exact ⟨.product, _, .mul, rfl⟩
  · exact ⟨.product, _, .div, rfl⟩
  · exact ⟨.product, _, .rem, rfl⟩

theorem exists_logicOperator (op : LogicOp) :
    Chain op.phrase op.phrase.operand ∧ ∃ x, Operator op.phrase x (.logic op) ∧ x.sign = op.sign := by
  cases op
  · exact ⟨.conjunction, _, .and, rfl⟩
  · exact ⟨.disjunction, _, .or, rfl⟩

theorem exists_comparison (op : CompareOp) : ∃ x, Comparison x op ∧ x.sign = op.sign := by
  cases op
  · exact ⟨_, .eq, rfl⟩
  · exact ⟨_, .ne, rfl⟩
  · exact ⟨_, .lt, rfl⟩
  · exact ⟨_, .le, rfl⟩
  · exact ⟨_, .gt, rfl⟩
  · exact ⟨_, .ge, rfl⟩

/-- **Whatever can be written is shown by its text.** -/
theorem shown_chars (quote : String → Quote) (e : Expr) : e.Writable → Shown e.phrase e (e.chars quote) := by
  induction e using inductionOn with
  | path segments =>
    intro h
    rw [chars]
    exact shown_path h.isWritable
  | constant v =>
    intro h
    rw [chars]
    exact shown_constant h.isWritable
  | math op left right ihl ihr =>
    intro h
    have hplace := isPlace_phrase (.math op left right)
    have hl := (ihl (h.operand (by simp [operands]))).enclosed hplace
    have hr := (ihr (h.operand (by simp [operands]))).enclosed (Phrase.looseness_operand hplace).2
    obtain ⟨hp, x, hx, hsign⟩ := exists_mathOperator op
    rw [chars, ← hsign]
    exact .operator hp hx hl hr
  | compare op left right ihl ihr =>
    intro h
    have hl := (ihl (h.operand (by simp [operands]))).enclosed (p := .sum) (by decide)
    have hr := (ihr (h.operand (by simp [operands]))).enclosed (p := .sum) (by decide)
    obtain ⟨x, hx, hsign⟩ := exists_comparison op
    rw [chars, ← hsign]
    exact .compare hx hl hr
  | logic op left right ihl ihr =>
    intro h
    have hplace := isPlace_phrase (.logic op left right)
    have hl := (ihl (h.operand (by simp [operands]))).enclosed hplace
    have hr := (ihr (h.operand (by simp [operands]))).enclosed (Phrase.looseness_operand hplace).2
    obtain ⟨hp, x, hx, hsign⟩ := exists_logicOperator op
    rw [chars, ← hsign]
    exact .operator hp hx hl hr
  | ternary condition yes no ihc ihy ihn =>
    intro h
    have hc := (ihc (h.operand (by simp [operands]))).enclosed (p := .disjunction) (by decide)
    have hy := (ihy (h.operand (by simp [operands]))).enclosed (p := .ternary) (by decide)
    have hn := (ihn (h.operand (by simp [operands]))).enclosed (p := .ternary) (by decide)
    rw [chars]
    exact hc.ternary_node hy hn
  | coalesce es ih =>
    intro h
    have hes := fun e he => (ih e he (h.operand he)).enclosed (p := .comparison) (by decide)
    rw [chars, operandChars_eq]
    exact .coalesce (of_decide_eq_true h.isWritable) hes
  | negate operand ih =>
    intro h
    have ho := (ih (h.operand (by simp [operands]))).enclosed (p := .unary) (by decide)
    rw [chars]
    exact ho.negate
  | not operand ih =>
    intro h
    have ho := (ih (h.operand (by simp [operands]))).enclosed (p := .unary) (by decide)
    rw [chars]
    exact ho.not

theorem Shown.parse_eq (h : Shown .ternary e s) (hlevels : e.levels ≤ 64) (hoperators : e.operators ≤ 1024) :
    parse (String.ofList s) = .ok e := by
  obtain ⟨ts, hs, hd⟩ := h
  rw [levelsAt_ternary] at hd
  have htokens : (Feed.ofSource (String.ofList s)).tokens? = some ts := by
    rw [Feed.ofSource, String.toList_ofList]
    exact hs.read?_eq
  exact parse_of_derives htokens hd hlevels hoperators

/-- **Parsing gives back the expression that was written**, for every choice of quotation marks, if the text stays within
the levels and the operators that a source may have. -/
theorem parse_text (quote : String → Quote) {e : Expr} (h : e.Writable) :
    parse (e.text quote) = .ok e ↔ e.levels ≤ 64 ∧ e.operators ≤ 1024 := by
  constructor
  · intro hparse
    obtain ⟨ts, depth, n, -, hd, hdepth, hn⟩ := exists_derives_of_parse hparse
    obtain ⟨hoperators, hlevels⟩ := hd.bounds
    rw [levelsAt_ternary] at hlevels
    exact ⟨Nat.le_trans hlevels hdepth, hoperators ▸ hn⟩
  · rintro ⟨hlevels, hn⟩
    exact (shown_chars quote e h).ternary.parse_eq hlevels hn

/-- Parentheses under a sign and to the right of an operator, a comparison among choices, and both quotation marks. -/
theorem parse_text_nested : parse "-(a[\"it\\\"s\"] ? 1 : true) - (b - 2) < !c ?? null ?? d == 'x'" =
    .ok (.coalesce [.compare .lt (.math .sub
      (.negate (.ternary (.path ["a", "it\"s"]) (.constant (.ofInt 1 (by decide))) (.constant (.bool true))))
      (.math .sub (.path ["b"]) (.constant (.ofInt 2 (by decide))))) (.not (.path ["c"])), .constant .null,
      .compare .eq (.path ["d"]) (.constant (.string "x"))]) := by
  let quote : String → Quote := fun s => if s = "x" then .single else .double
  have hparse : ∀ {e : Expr} {source : String}, e.Writable → e.text quote = source →
      e.levels ≤ 64 ∧ e.operators ≤ 1024 → parse source = .ok e := by
    rintro e _ hwritable rfl hlimits
    exact (parse_text quote hwritable).2 hlimits
  exact hparse (by decide +kernel) (by decide +kernel) (by decide +kernel)

end Expr
end Stencil
