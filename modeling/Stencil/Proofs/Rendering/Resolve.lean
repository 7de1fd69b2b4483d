import Stencil.Proofs.Placeholder.Splicing
import Stencil.Proofs.Rendering.Outcome
import Stencil.Template.Basic
/-!
# Resolving and splicing, unpacked

What a placeholder stands for is found without any call.  If it is a function, that function is called, once; what it
answers is not looked at again.  Splicing resolves the placeholders from left to right and either stops at a value that
takes the place of the whole text, or replaces all of them.
-/
namespace Stencil

def Parameter.Resolves (s : Setting) (p : Parameter) (v : Value) : Prop := ∃ j k, (p.resolve s).outcome j = (.ok v, k)

/-- **What resolving a parameter does**: it notes why a default was taken as text, and calls what it found if that is a
function. -/
theorem Parameter.outcome_resolve (s : Setting) (p : Parameter) (j : Journal) :
    (p.resolve s).outcome j = match (p.found s).1 with
      | .function f => ((s.host j.calls f).mapError (⟨p.key, ·⟩),
          ⟨f :: j.calls, (p.found s).2.reverse ++ j.notes⟩)
      | v => (.ok v, ⟨j.calls, (p.found s).2.reverse ++ j.notes⟩) := by
  rw [resolve]
  rcases p.found s with ⟨v, notes⟩
  simp only
  rw [Rendering.outcome_bind_ok (Rendering.outcome_note notes j)]
  cases v with
  | function f => exact Rendering.outcome_call s.host p.key f _
  | null | bool _ | number _ | string _ | array _ | object _ | date _ => rfl

theorem Parameter.Resolves.cases {s : Setting} {p : Parameter} {v : Value} (h : p.Resolves s v) :
    (p.found s).1 = v ∨ ∃ f calls, (p.found s).1 = .function f ∧ s.host calls f = .ok v := by
  obtain ⟨j, k, h⟩ := h
  rw [outcome_resolve] at h
  split at h
  · rename_i f hf
    refine .inr ⟨f, j.calls, hf, ?_⟩
    cases ha : s.host j.calls f with
    | ok w => rw [ha] at h; cases h; rfl
    | error m => rw [ha] at h; cases h
  · cases h; exact .inl rfl

theorem Parameter.found_eq_fallback {s : Setting} {p : Parameter} (h : ∀ v, s.context.get? p.key = some v → v = .null) :
    p.found s = p.fallback s := by
  unfold found
  cases hg : s.context.get? p.key with
  | none => rfl
  | some v => rw [h v hg]; rfl

theorem Parameter.found_cases {s : Setting} (hs : s.evaluator? = none) (p : Parameter) :
    s.context.get? p.key = some (p.found s).1 ∨ (p.found s).1 = .null ∨
      ∃ raw, p.default? = some raw ∧ (p.found s).1 = .string raw := by
  have hfallback : (p.fallback s).1 = .null ∨ ∃ raw, p.default? = some raw ∧ (p.fallback s).1 = .string raw := by
    unfold fallback
    cases hd : p.default? with
    | none => exact .inl rfl
    | some raw => rw [hs]; exact .inr ⟨raw, rfl, rfl⟩
  unfold found
  cases hg : s.context.get? p.key with
  | none => exact .inr hfallback
  | some v =>
    cases hv : v.isNull with
    | true => simp only [hv, if_true]; exact .inr hfallback
    | false => simp only [hv, Bool.false_eq_true, if_false, true_or]

namespace Pattern

/-- **Splicing goes on with the text in which the first placeholders are replaced**, if all of them resolve to values
without parts. -/
theorem exists_outcome_splice {s : Setting} {after : List Placeholder} : ∀ {before : List Placeholder}
    {values : List Value} {j k : Journal} (out : List Char),
    Rendering.outcome ((before ++ after).mapM fun p => p.parameter.resolve s) j = (.ok values, k) →
      (∀ v ∈ values, v.isComposite = false) → ∃ i, (splice s false out (before ++ after)).outcome j =
        (splice s false (Placeholder.replaceAll out before (values.map (·.text.toList))) after).outcome i ∧
      Rendering.outcome (after.mapM fun p => p.parameter.resolve s) i = (.ok (values.drop before.length), k)
  | [], values, j, k, out, h, _ => ⟨j, rfl, h⟩
  | p :: before, values, j, k, out, h, hv => by
    rw [List.cons_append, List.mapM_cons] at h
    obtain ⟨v, i, hp, h⟩ := Rendering.exists_of_outcome_bind h
    obtain ⟨vs, l, hps, h⟩ := Rendering.exists_of_outcome_bind h
    cases h
    have hcomp : v.isComposite = false := hv v List.mem_cons_self
    rw [List.cons_append, splice, Rendering.outcome_bind_ok hp]
    simp only [hcomp, Bool.or_false, Bool.false_eq_true, if_false]
    exact exists_outcome_splice _ hps fun w hw => hv w (List.mem_cons_of_mem _ hw)

/-- **Splicing is replacing.**  Placeholders that resolve to values without parts are replaced one after the other. -/
theorem outcome_splice {s : Setting} {ps : List Placeholder} {values : List Value} {j k : Journal} (out : List Char)
    (h : Rendering.outcome (ps.mapM fun p => p.parameter.resolve s) j = (.ok values, k))
    (hv : ∀ v ∈ values, v.isComposite = false) : (splice s false out ps).outcome j =
      (.ok (.string (String.ofList (Placeholder.replaceAll out ps (values.map (·.text.toList))))), k) := by
  have happ : ps = ps ++ [] := (List.append_nil ps).symm
  rw [happ] at h
  obtain ⟨i, hi, hend⟩ := exists_outcome_splice out h hv
  obtain ⟨-, rfl⟩ := Prod.mk.inj hend
  rw [← happ] at hi
  exact hi

/-- **A spliced text, unpacked**: it is what one of the placeholders resolves to, or all of them are replaced. -/
theorem splice_ok {s : Setting} {keep : Bool} : ∀ {ps : List Placeholder} {out : List Char} {j k : Journal} {r : Value},
    (splice s keep out ps).outcome j = (.ok r, k) →
      (∃ p ∈ ps, p.parameter.Resolves s r) ∨
      ∃ values : List Value, values.length = ps.length ∧ (∀ v ∈ values, ∃ p ∈ ps, p.parameter.Resolves s v) ∧
        r = .string (String.ofList (Placeholder.replaceAll out ps (values.map (·.text.toList))))
  | [], out, j, k, r, h => by
    cases h
    exact .inr ⟨[], rfl, fun _ hv => (List.not_mem_nil hv).elim, rfl⟩
  | p :: ps, out, j, k, r, h => by
    rw [splice] at h
    obtain ⟨v, i, hp, h⟩ := Rendering.exists_of_outcome_bind h
    have hv : p.parameter.Resolves s v := ⟨j, i, hp⟩
    split at h
    · cases h
      exact .inl ⟨p, List.mem_cons_self, hv⟩
    · rcases splice_ok h with ⟨q, hq, hr⟩ | ⟨vs, hlen, hvs, hr⟩
      · exact .inl ⟨q, List.mem_cons_of_mem _ hq, hr⟩
      · refine .inr ⟨v :: vs, by rw [List.length_cons, List.length_cons, hlen], ?_, hr⟩
        refine List.forall_mem_cons.2 ⟨⟨p, List.mem_cons_self, hv⟩, fun w hw => ?_⟩
        obtain ⟨q, hq, hr⟩ := hvs w hw
        exact ⟨q, List.mem_cons_of_mem _ hq, hr⟩

end Pattern
end Stencil
