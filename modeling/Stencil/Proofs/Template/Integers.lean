import Mathlib
import Stencil.Proofs.Expr.Integers
import Stencil.Proofs.Expr.Printed
import Stencil.Proofs.Rendering.Single
/-!
# Integers as defaults

An integer of signed size is written as a literal or, below zero, as a literal behind a minus sign.  Where such a text is
the default of a placeholder by itself, the evaluated default is the integer again (`Template.render_integer_default`).
There is one exception: -2^63, whose literal would be 2^63.  No literal is as large as that, so the default cannot be read
and stays a text.
-/
namespace Stencil

/-! ## The text of an integer -/

theorem toList_toString_neg {m : Nat} (h : 0 < m) : (toString (-(m : Int))).toList = '-' :: (toString m).toList := by
  cases m with
  | zero => cases h
  | succ m =>
    show ("-" ++ Nat.repr (m + 1)).toList = _
    rw [String.toList_append]
    rfl

theorem exists_natAbs (n : Int) : (∃ m : Nat, n = m) ∨ ∃ m : Nat, 0 < m ∧ n = -m := by
  rcases Int.lt_or_le n 0 with h | h
  · exact .inr ⟨n.natAbs, by omega, by omega⟩
  · exact .inl ⟨n.toNat, by omega⟩

theorem eq_minus_or_isDigit {n : Int} {c : Char} (hc : c ∈ (toString n).toList) : c = '-' ∨ c.isDigit = true := by
  obtain ⟨m, rfl⟩ | ⟨m, hm, rfl⟩ := exists_natAbs n
  · exact .inr ((Path.isDecimal_toString m).isDigit c hc)
  · rw [toList_toString_neg hm] at hc
    exact (List.mem_cons.1 hc).imp_right ((Path.isDecimal_toString m).isDigit c)

namespace Expr

/-- **The text of an integer of signed size, but for the least, is read as an expression whose value is the integer.** -/
theorem parse_toString {n : Int} (hn : FitsSigned n) (hleast : n ≠ -2 ^ 63) :
    ∃ e, parse (toString n) = .ok e ∧ ∀ scope, e.eval scope = .ok (.ofInt n hn.fitsWord) := by
  have hliteral : ∀ m : Nat, (hm : FitsSigned m) →
      Shown .unary (.constant (.ofInt m hm.fitsWord)) (toString m).toList := fun m hm =>
    @shown_constant (fun _ => .single) (.ofInt m hm.fitsWord) (by simpa [isLiteral, Value.ofInt] using hm.2)
  obtain ⟨m, rfl⟩ | ⟨m, hm, rfl⟩ := exists_natAbs n
  · refine ⟨.constant (.ofInt m hn.fitsWord), ?_, fun scope => rfl⟩
    have hparse := (Shown.ternary (e := .constant _) (hliteral m hn)).parse_eq (show 1 ≤ 64 by decide) (Nat.zero_le _)
    rwa [String.ofList_toList] at hparse
  · have hfits : FitsSigned m := by
      unfold FitsSigned at *
      omega
    refine ⟨.negate (.constant (.ofInt m hfits.fitsWord)), ?_, fun scope => ?_⟩
    · have hparse := (Shown.ternary (e := .negate _) (hliteral m hfits).negate).parse_eq (show 2 ≤ 64 by decide) (Nat.zero_le _)
      rwa [← toList_toString_neg hm, String.ofList_toList] at hparse
    · have heval : ∀ v, (Expr.negate (.constant v)).eval scope = v.negate := fun v => by
        rw [eval, eval]
        rfl
      rw [heval, Value.negate_ofInt hfits, signedOr_of_fits hn]

theorem parse_toString_least : (parse "-9223372036854775808").map (fun _ => ()) =
    .error ⟨.integerTooLarge "9223372036854775808", 1, "9223372036"⟩ := by
  decide +kernel

end Expr

/-! ## Placeholders -/

namespace Placeholder

def integerBody (key : String) (n : Int) : List Char := key.toList ++ ':' :: (toString n).toList

variable {key : String} {n : Int}

theorem mem_integerBody {c : Char} (hletters : ∀ c ∈ key.toList, c.isAlpha = true) (hc : c ∈ integerBody key n) :
    c.isAlphanum = true ∨ c = ':' ∨ c = '-' := by
  rcases List.mem_append.1 hc with hkey | hc
  · exact .inl (by simp [Char.isAlphanum, hletters c hkey])
  rcases List.mem_cons.1 hc with rfl | hdigits
  · exact .inr (.inl rfl)
  rcases eq_minus_or_isDigit hdigits with rfl | hdigit
  · exact .inr (.inr rfl)
  · exact .inl (by simp [Char.isAlphanum, hdigit])

theorem wellFormed_integerBody (hletters : ∀ c ∈ key.toList, c.isAlpha = true) : WellFormed (integerBody key n) := by
  have hbrace : '}' ∉ integerBody key n := fun hm => absurd (mem_integerBody hletters hm) (by decide)
  refine wellFormed_of_not_infix (by simp [integerBody]) (fun c hc => ?_) (fun hin => ?_) (fun hlast => ?_)
  · rcases mem_integerBody hletters hc with h | rfl | rfl
    · exact isBodyChar_of_isAlphanum h
    · decide
    · decide
  · exact hbrace (hin.subset List.mem_cons_self)
  · exact hbrace (List.mem_of_getLast? hlast)

theorem flush_of_isBlank {s : List Char} (h : ∀ c ∈ s, Text.isBlank c = false) : Text.Flush s ∧ Text.Flush s.reverse :=
  ⟨fun c hc => h c (List.mem_of_mem_head? hc), fun c hc => h c (List.mem_reverse.1 (List.mem_of_mem_head? hc))⟩

theorem parameterOf_integerBody (hletters : ∀ c ∈ key.toList, c.isAlpha = true) :
    parameterOf (integerBody key n) = ⟨key, some (toString n)⟩ := by
  have hblank : ∀ c ∈ integerBody key n, Text.isBlank c = false := by
    intro c hc
    rcases mem_integerBody hletters hc with h | rfl | rfl
    · exact Text.isBlank_eq_false (p := Char.isAlphanum) (by decide +kernel) h
    · decide
    · decide
  have hkey := flush_of_isBlank fun c hc => hblank c (List.mem_append_left _ hc)
  have hdefault := flush_of_isBlank fun c hc => hblank c (List.mem_append_right _ (List.mem_cons_of_mem _ hc))
  have hcolon : ':' ∉ key.toList := fun hm => absurd (hletters _ hm) (by decide)
  have hnone : Text.AllBlank [] := fun c hc => nomatch hc
  have hwrites := Parameter.Writes.withDefault ⟨hcolon, hkey.1, hkey.2⟩ hdefault.2 hnone hnone hnone
  rw [List.nil_append, List.append_nil, List.append_nil] at hwrites
  exact parameterOf_of_writes hwrites

end Placeholder

/-! ## Templates -/

namespace Template

variable {key : String} {n : Int} {o : Options} {context : Value}

def integerSource (key : String) (n : Int) : String := "\x7b\x7b" ++ key ++ ":" ++ toString n ++ "\x7d\x7d"

theorem integerSource_eq (key : String) (n : Int) :
    integerSource key n = String.ofList (Placeholder.written (Placeholder.integerBody key n)) := by
  refine String.toList_inj.1 ?_
  simp [integerSource, Placeholder.written, Placeholder.integerBody]

def renderInteger (o : Options) (host : Host) (context : Value) (key : String) (n : Int) (j : Journal) :
    Except CallError Value × Journal :=
  ((compile o (.string (integerSource key n))).render host context).outcome j

/-- **A template that is a name and an integer comes to its default**, if the name leads to nothing or to null. -/
theorem renderInteger_eq (hletters : ∀ c ∈ key.toList, c.isAlpha = true)
    (hmissing : ∀ v, context.get? key = some v → v = .null) (host : Host) (j : Journal) {v : Value} (notes : List Note)
    (h : (⟨key, some (toString n)⟩ : Parameter).fallback ⟨host, o.active?, context⟩ = (v, notes))
    (hv : ∀ f, v ≠ .function f) : renderInteger o host context key n j = (.ok v, ⟨j.calls, notes.reverse ++ j.notes⟩) := by
  have hrender := Pattern.render_written (Placeholder.wellFormed_integerBody hletters (n := n)) ⟨host, o.active?, context⟩
  rw [← integerSource_eq, Placeholder.parameterOf_integerBody hletters] at hrender
  have hfound := (Parameter.found_eq_fallback (s := ⟨host, o.active?, context⟩) (p := ⟨key, some (toString n)⟩) hmissing).trans h
  show Rendering.outcome ((Pattern.ofText (integerSource key n)).render ⟨host, o.active?, context⟩) j = _
  rw [hrender, Parameter.outcome_resolve, hfound]
  cases v with
  | function f => exact absurd rfl (hv f)
  | _ => rfl

def leastNote (key : String) : Note :=
  .defaultAsText key (.unreadable ⟨.integerTooLarge "9223372036854775808", 1, "9223372036"⟩)

/-- **The least integer stays a text.** -/
theorem renderInteger_least (hletters : ∀ c ∈ key.toList, c.isAlpha = true) (ho : o.active? = some .expressions)
    (hmissing : ∀ v, context.get? key = some v → v = .null) (host : Host) (j : Journal) :
    renderInteger o host context key (-2 ^ 63) j =
      (.ok (.string "-9223372036854775808"), ⟨j.calls, leastNote key :: j.notes⟩) := by
  refine renderInteger_eq hletters hmissing host j [leastNote key] ?_ fun f hf => by cases hf
  have hparse := Expr.parse_toString_least
  have htext : toString (-2 ^ 63 : Int) = "-9223372036854775808" := by decide +kernel
  simp only [Parameter.fallback, ho, htext, Evaluator.expressions]
  cases he : Expr.parse "-9223372036854775808" with
  | ok e => rw [he] at hparse; cases hparse
  | error e => rw [he] at hparse; cases hparse; rfl

/-- **Every integer of signed size but the least survives being written as an evaluated default.**  A template that is a
name of ASCII letters and the integer comes to the integer itself, in every context in which the name leads to nothing or to
null, and nothing is noted.  Only -2^63 is a text afterwards, with a note that its literal is too large. -/
theorem render_integer_default (hletters : ∀ c ∈ key.toList, c.isAlpha = true) (hn : FitsSigned n)
    (ho : o.active? = some .expressions) (hmissing : ∀ v, context.get? key = some v → v = .null) (host : Host)
    (j : Journal) :
    (n ≠ -2 ^ 63 → renderInteger o host context key n j = (.ok (.ofInt n hn.fitsWord), j)) ∧
    (n = -2 ^ 63 → renderInteger o host context key n j =
      (.ok (.string (toString n)), ⟨j.calls, leastNote key :: j.notes⟩)) := by
  constructor
  · intro hleast
    obtain ⟨e, hparse, heval⟩ := Expr.parse_toString hn hleast
    refine renderInteger_eq hletters hmissing host j [] ?_ fun f hf => by cases hf
    simp only [Parameter.fallback, ho, Evaluator.expressions, hparse, heval]
    rfl
  · rintro rfl
    exact renderInteger_least hletters ho hmissing host j

/-- The greatest integer and the least but one, where the name leads to null and where it leads to nothing. -/
theorem render_integer_default_bounds :
    renderInteger ⟨true, .expressions, none⟩ (fun _ _ => .ok .null) (.object [("Id", .null)]) "Id" (2 ^ 63 - 1) {} =
      (.ok (.ofInt (2 ^ 63 - 1) (by decide)), {}) ∧
    renderInteger ⟨true, .expressions, none⟩ (fun _ _ => .ok .null) .null "Id" (-2 ^ 63 + 1) {} =
      (.ok (.ofInt (-2 ^ 63 + 1) (by decide)), {}) := by
  have hletters : ∀ c ∈ "Id".toList, c.isAlpha = true := List.all_eq_true.1 (by decide)
  have hnull : (Value.object [("Id", .null)]).get? "Id" = some .null := rfl
  have hnothing : Value.null.get? "Id" = none := by cbv
  refine ⟨(render_integer_default hletters (by decide) rfl ?_ _ _).1 (by decide),
    (render_integer_default hletters (by decide) rfl ?_ _ _).1 (by decide)⟩
  · intro v hv
    rw [hnull] at hv
    cases hv
    rfl
  · intro v hv
    rw [hnothing] at hv
    cases hv

/-- -2^63 is no integer any more when it is rendered. -/
theorem render_least_default :
    let rendered := ((compile ⟨true, .expressions, none⟩ (.string "\x7b\x7bk:-9223372036854775808\x7d\x7d")).render
      (fun _ _ => .ok .null) (.object [])).outcome {}
    rendered.1 = .ok (.string "-9223372036854775808") ∧ rendered.1 ≠ .ok (.ofInt (-2 ^ 63) (by decide)) := by
  have hsource : integerSource "k" (-2 ^ 63) = "\x7b\x7bk:-9223372036854775808\x7d\x7d" := by decide +kernel
  have hnothing : (Value.object []).get? "k" = none := by cbv
  have hrendered := @renderInteger_least "k" ⟨true, .expressions, none⟩ (.object []) (List.all_eq_true.1 (by decide)) rfl
    (fun v hv => by rw [hnothing] at hv; cases hv) (fun _ _ => .ok .null) {}
  rw [renderInteger, hsource] at hrendered
  intro rendered
  refine ⟨congrArg Prod.fst hrendered, fun h => ?_⟩
  rw [show rendered = _ from hrendered] at h
  cases h

end Template
end Stencil
