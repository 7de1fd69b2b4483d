import Mathlib
import Stencil.Proofs.Placeholder.Writing
import Stencil.Proofs.Rendering.Resolve
/-!
# Texts that are a single placeholder

A text that is a placeholder and nothing else renders to what the parameter resolves to, whatever kind of value that is
(`Pattern.render_written`).  So a parameter that is written as a placeholder is found again by a scan, and a template that
is nothing but this placeholder comes to the value of the key itself, or to the default (`Placeholder.scan_of_writes`).
-/
namespace Stencil

namespace Parameter

variable {s : Setting} {p : Parameter}

theorem found_of_get? {v : Value} (h : s.context.get? p.key = some v) (hv : v ≠ .null) : p.found s = (v, []) := by
  rw [found, h]
  cases v with
  | null => exact absurd rfl hv
  | _ => rfl

theorem found_of_missing (hs : s.evaluator? = none) (h : ∀ v, s.context.get? p.key = some v → v = .null) :
    p.found s = ((p.default?.map Value.string).getD .null, []) := by
  rw [found_eq_fallback h, fallback]
  cases p.default? with
  | none => rfl
  | some raw => simp only [hs]; rfl

theorem outcome_resolve_of_found {v : Value} (h : p.found s = (v, [])) (hv : ∀ f, v ≠ .function f) (j : Journal) :
    (p.resolve s).outcome j = (.ok v, j) := by
  rw [outcome_resolve, h]
  cases v with
  | function f => exact absurd rfl (hv f)
  | _ => rfl

end Parameter

namespace Pattern

open Placeholder (written WellFormed)

theorem scan_written {body : List Char} (hb : WellFormed body) :
    Placeholder.scan (String.ofList (written body)) = [Placeholder.ofBody 0 body] := by
  have hscan := @Placeholder.scan_append_written [] body "" hb trivial
  simp only [String.toList_empty, List.append_nil, List.nil_append] at hscan
  rw [hscan, @Placeholder.scan_of_quiet "" trivial]
  rfl

theorem render_written {body : List Char} (hb : WellFormed body) (s : Setting) :
    (ofText (String.ofList (written body))).render s = (Placeholder.parameterOf body).resolve s := by
  have hscan := scan_written hb
  have hopens : ['{', '{'] <+: written body := ⟨body ++ ['}', '}'], rfl⟩
  have hcloses : ['}', '}'] <:+ written body := ⟨'{' :: '{' :: body, by simp [written]⟩
  have hsingle : (ofText (String.ofList (written body))).isSingle = true := by
    simp [isSingle, ofText, hscan, String.toList_ofList, hopens, hcloses]
  rw [render, hsingle]
  simp only [ofText, hscan, splice, Bool.or_true, if_true, bind_pure]
  rfl

end Pattern

/-- **A parameter that is written is found.**  It is written as a body of placeholder characters without two closing braces
before the ones behind it.  In a text that has no opening braces before the placeholder, a scan finds it just there, with
its key and its default, and goes on behind it as in a text by itself.  Without an evaluator, a template that is only the
placeholder renders to what the key leads to, if that is neither null nor a function, and to the default, or null, if the key
leads to nothing or to null. -/
theorem Placeholder.scan_of_writes {p : Parameter} {body : List Char} {pre post : String} (hwrites : p.Writes body)
    (hne : body ≠ []) (hchars : ∀ c ∈ body, isBodyChar c = true) (hinside : ¬ ['}', '}'] <:+: body)
    (hlast : body.getLast? ≠ some '}') (hpre : '{' ∉ pre.toList) :
    scan (pre ++ String.ofList (written body) ++ post) =
      ⟨String.ofList (written body), Text.byteLength pre.toList,
        Text.byteLength pre.toList + Text.byteLength (written body), p⟩ ::
        (scan post).map (shift (Text.byteLength (pre.toList ++ written body))) ∧
    ∀ (o : Options) (host : Host) (context : Value) (j : Journal), o.evalDefaults = false →
      (∀ v, context.get? p.key = some v → v ≠ .null → (∀ f, v ≠ .function f) →
        ((Template.compile o (.string (String.ofList (written body)))).render host context).outcome j = (.ok v, j)) ∧
      ((∀ v, context.get? p.key = some v → v = .null) →
        ((Template.compile o (.string (String.ofList (written body)))).render host context).outcome j =
          (.ok ((p.default?.map Value.string).getD .null), j)) := by
  have hb := wellFormed_of_not_infix hne hchars hinside hlast
  have hparameter := parameterOf_of_writes hwrites
  constructor
  · have hsource : pre ++ String.ofList (written body) ++ post =
        String.ofList (pre.toList ++ (written body ++ post.toList)) := by
      simp [String.ofList_append, String.append_assoc]
    rw [hsource, scan_append_written hb ((inert_of_not_mem hpre).quiet _), ofBody, hparameter]
  · intro o host context j hoff
    let s : Setting := ⟨host, o.active?, context⟩
    have hs : s.evaluator? = none := by simp [s, Options.active?, hoff]
    have hrender : (Template.compile o (.string (String.ofList (written body)))).render host context = p.resolve s := by
      rw [← hparameter]
      exact Pattern.render_written hb s
    rw [hrender]
    refine ⟨fun v hv hnull hfunction => ?_, fun hmissing => ?_⟩
    · exact Parameter.outcome_resolve_of_found (Parameter.found_of_get? hv hnull) hfunction j
    · refine Parameter.outcome_resolve_of_found (Parameter.found_of_missing hs hmissing) (fun f hf => ?_) j
      cases hd : p.default? <;> rw [hd] at hf <;> cases hf

/-- Blanks on all sides, a default with a blank and a colon, a closing brace before the placeholder and another placeholder
behind it. -/
theorem Placeholder.scan_of_writes_blanks :
    scan "x\x7d\x7b\x7b a : b:c \x7d\x7d\x7b\x7bd\x7d\x7d" =
      [⟨"\x7b\x7b a : b:c \x7d\x7d", 2, 15, ⟨"a", some " b:c"⟩⟩, ⟨"\x7b\x7bd\x7d\x7d", 15, 20, ⟨"d", none⟩⟩] ∧
    ((Template.compile .default (.string "\x7b\x7b a : b:c \x7d\x7d")).render (fun _ _ => .ok .null)
      (.object [("a", .array [])])).outcome {} = (.ok (.array []), {}) ∧
    ((Template.compile .default (.string "\x7b\x7b a : b:c \x7d\x7d")).render (fun _ _ => .ok .null)
      (.object [("a", .null)])).outcome {} = (.ok (.string " b:c"), {}) := by
  have hwrites : Parameter.Writes ⟨"a", some " b:c"⟩ " a : b:c ".toList :=
    @Parameter.Writes.withDefault "a" " b:c" [' '] [' '] [' '] ⟨by decide, by decide, by decide⟩ (by decide) (by decide)
      (by decide) (by decide)
  obtain ⟨hscan, hrender⟩ := @scan_of_writes _ _ "x\x7d" "\x7b\x7bd\x7d\x7d" hwrites (by decide)
    (List.all_eq_true.1 (by cbv)) (by decide) (by decide) (by decide)
  have hpost : scan "\x7b\x7bd\x7d\x7d" = [⟨"\x7b\x7bd\x7d\x7d", 0, 5, ⟨"d", none⟩⟩] := by cbv
  rw [hpost] at hscan
  have hget : ∀ v, (Value.object [("a", v)]).get? "a" = some v := fun _ => rfl
  have hnull : Value.array [] ≠ .null := fun h => by cases h
  have hfunction : ∀ f, Value.array [] ≠ .function f := fun f h => by cases h
  refine ⟨hscan, (hrender .default _ _ {} rfl).1 _ (hget _) hnull hfunction, (hrender .default _ _ {} rfl).2 ?_⟩
  intro v hv
  rw [hget] at hv
  cases hv
  rfl

end Stencil
