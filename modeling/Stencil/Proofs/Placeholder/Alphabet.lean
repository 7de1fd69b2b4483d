import Stencil.Proofs.Expr.Lexemes
import Stencil.Proofs.Expr.Provenance
import Stencil.Proofs.Placeholder.Intact
import Stencil.Proofs.Text.Trimming
/-!
# Expressions in placeholders

A default is part of a body, and so written with placeholder characters only (`isBodyChar_of_mem_default`).  These lack `%`,
`!`, `<`, `>`, `&`, `|` and the backslash.  As an expression is made of tokens that stand in its text, the operators written
with one of these do not occur in a default, and every string in it stands there as it is, with nothing escaped
(`placeable_of_default`).
-/
namespace Stencil

namespace Placeholder

theorem mem_of_mem_default {body : List Char} {default : String} (h : (parameterOf body).default? = some default) :
    ∀ c ∈ default.toList, c ∈ body := by
  intro c hc
  unfold parameterOf at h
  simp only at h
  split at h
  · cases h
  · rename_i d left hleft
    cases h
    rw [String.toList_ofList] at hc
    have hdrop : c ∈ (Text.trim body).dropWhile (· ≠ ':') := by
      rw [hleft]
      exact List.mem_cons_of_mem _ hc
    exact Text.mem_of_mem_trim ((List.dropWhile_suffix _).subset hdrop)

theorem isBodyChar_of_mem_default {input default : String} {p : Placeholder} (hp : p ∈ scan input)
    (hd : p.parameter.default? = some default) : ∀ c ∈ default.toList, isBodyChar c = true := by
  obtain ⟨start, body, hbody, rfl⟩ := exists_ofBody_of_mem_locate 0 input.toList p hp
  exact fun c hc => hbody.isBodyChar c (mem_of_mem_default hd c hc)

end Placeholder

/-! ## The expressions that defaults can be -/

open Placeholder (isBodyChar)

/-- An expression, its operands apart, that can stand in a text of placeholder characters: with no remainder, no logic and
no negation of truth values, and with no comparison but equality.  Its strings stand in the text as they are. -/
structure Expr.Placeable (text : List Char) (e : Expr) : Prop where
  remainder : ∀ left right, e ≠ .math .rem left right
  logic : ∀ op left right, e ≠ .logic op left right
  not : ∀ operand, e ≠ .not operand
  compare : ∀ op left right, e = .compare op left right → op = .eq
  constant : ∀ s, e = .constant (.string s) →
    (∀ c ∈ s.toList, isBodyChar c = true) ∧ ∃ quote, quote :: (s.toList ++ [quote]) <:+: text
  path : ∀ segments, e = .path segments → ∀ s ∈ segments, ∀ c ∈ s.toList, isBodyChar c = true

section Lexemes

variable {taken : List Char} (hall : ∀ c ∈ taken, isBodyChar c = true)

include hall

theorem Token.Lexeme.isBodyChar_of_string {s : String} (h : Lexeme (.string s) taken) :
    (∀ c ∈ s.toList, isBodyChar c = true) ∧ ∃ quote, taken = quote :: (s.toList ++ [quote]) := by
  have hbackslash : '\\' ∉ taken := fun hm => absurd (hall _ hm) (by decide)
  obtain ⟨quote, rfl⟩ := h.exists_quote hbackslash
  exact ⟨fun c hc => hall c (List.mem_cons_of_mem _ (List.mem_append_left _ hc)), quote, rfl⟩

theorem Grammar.IsSegment.isBodyChar {t : Token} {s : String} (h : IsSegment t s) (hl : t.Lexeme taken) :
    ∀ c ∈ s.toList, isBodyChar c = true := by
  cases h with
  | name s =>
    cases hl
    exact hall
  | string s => exact (hl.isBodyChar_of_string hall).1
  | int n fits =>
    intro c hc
    have hdigit : c.isDigit = true := (Path.isDecimal_toString n).isDigit c hc
    exact Placeholder.isBodyChar_of_isAlphanum (by simp [Char.isAlphanum, hdigit])

end Lexemes

theorem Grammar.Literal.eq_string {t : Token} {s : String} (h : Literal t (.string s)) : t = .string s := by
  generalize hv : Value.string s = v at h
  cases h with
  | string => cases hv; rfl
  | float x =>
    obtain ⟨n, hn⟩ | hn := Value.ofFloat_cases x
    · rw [hn] at hv
      cases hv
    · rw [hn] at hv
      cases hv
  | _ => cases hv

theorem Expr.MadeOf.placeable {text : List Char} {e : Expr} (htext : ∀ c ∈ text, isBodyChar c = true)
    (h : e.MadeOf fun t => ∃ taken, t.Lexeme taken ∧ taken <:+: text) : e.Placeable text := by
  cases h with
  | constant h ht =>
    obtain ⟨taken, hl, hin⟩ := h
    refine { remainder := by simp, logic := by simp, not := by simp, compare := by simp, path := by simp, constant := ?_ }
    rintro s he
    cases he
    obtain rfl := ht.eq_string
    obtain ⟨hchars, quote, rfl⟩ := hl.isBodyChar_of_string fun c hc => htext c (hin.subset hc)
    exact ⟨hchars, quote, hin⟩
  | path h =>
    refine { remainder := by simp, logic := by simp, not := by simp, compare := by simp, constant := by simp, path := ?_ }
    rintro segments he s hs
    cases he
    obtain ⟨t, ⟨taken, hl, hin⟩, hsegment⟩ := h s hs
    exact hsegment.isBodyChar (fun c hc => htext c (hin.subset hc)) hl
  | @sign _ s h hs =>
    obtain ⟨taken, hl, hin⟩ := h
    have hsign : ∀ g : String, g.toList.all isBodyChar = false → e.sign? ≠ some g := by
      intro g hg he
      obtain rfl := Option.some.inj (hs.symm.trans he)
      have hchars : s.sign.toList.all isBodyChar = true := by
        cases hl
        exact List.all_eq_true.2 fun c hc => htext c (hin.subset hc)
      rw [hg] at hchars
      cases hchars
    refine ⟨?_, ?_, ?_, ?_, ?_, ?_⟩
    · rintro left right rfl
      exact hsign "%" (by decide) rfl
    · rintro op left right rfl
      cases op with
      | and => exact hsign "&&" (by decide) rfl
      | or => exact hsign "||" (by decide) rfl
    · rintro operand rfl
      exact hsign "!" (by decide) rfl
    · rintro op left right rfl
      cases op with
      | eq => rfl
      | ne => exact absurd rfl (hsign "!=" (by decide))
      | lt => exact absurd rfl (hsign "<" (by decide))
      | le => exact absurd rfl (hsign "<=" (by decide))
      | gt => exact absurd rfl (hsign ">" (by decide))
      | ge => exact absurd rfl (hsign ">=" (by decide))
    · rintro s rfl
      cases hs
    · rintro segments rfl
      cases hs

namespace Placeholder

/-- **The alphabet of placeholders limits the expressions in them.**  Whatever expression the default of a placeholder is
read as, no node of it is a remainder, a logical operator, a negation of a truth value or a comparison other than equality;
the strings in it are those between quotation marks in the default, which has no backslash; and they and the segments of its
paths have placeholder characters only. -/
theorem placeable_of_default {input default : String} {p : Placeholder} {e : Expr} (hp : p ∈ scan input)
    (hd : p.parameter.default? = some default) (he : Expr.parse default = .ok e) :
    '\\' ∉ default.toList ∧ ∀ x ∈ e.nodes, x.Placeable default.toList := by
  have hchars := isBodyChar_of_mem_default hp hd
  have hbackslash : '\\' ∉ default.toList := fun hm => absurd (hchars _ hm) (by decide)
  exact ⟨hbackslash, fun x hx => (Expr.allMadeOf_of_parse he x hx).placeable hchars⟩

/-- A default with an equality, a choice, strings and a path with a quoted key. -/
theorem placeable_of_default_mixed : ∃ p ∈ scan "\x7b\x7bk: a['b c'].0 == '_' ? -1.5 : x ?? '@' \x7d\x7d", ∃ default e,
    p.parameter.default? = some default ∧ Expr.parse default = .ok e ∧
      '\\' ∉ default.toList ∧ ∀ x ∈ e.nodes, x.Placeable default.toList := by
  have hcheck : ((scan "\x7b\x7bk: a['b c'].0 == '_' ? -1.5 : x ?? '@' \x7d\x7d").any fun p =>
      p.parameter.default?.any fun default => (Expr.parse default).toOption.any fun _ => true) = true := by
    decide +kernel
  obtain ⟨p, hp, hcheck⟩ := List.any_eq_true.1 hcheck
  obtain ⟨default, hd, hcheck⟩ := (Option.any_eq_true _ _).1 hcheck
  obtain ⟨e, he, -⟩ := ok_of_any_toOption hcheck
  exact ⟨p, hp, default, e, hd, he, placeable_of_default hp hd he⟩

end Placeholder
end Stencil
