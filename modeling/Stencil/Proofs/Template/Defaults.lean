import Stencil.Proofs.Rendering.Related
import Stencil.Proofs.Rendering.Resolve
import Stencil.Proofs.Template.Occurrences
/-!
# What an evaluator matters for

`Options.defaultValue` is what a default text comes to under some options.  The evaluator comes into a rendering only where
a default is used, and only through this value (`Template.render_same_of_defaults`): keys that lead to something else than
null are never evaluated, nor is what a function answers, and a failure of the evaluator leaves no more than a note.
-/
namespace Stencil

/-- What a default text comes to: its value, or the text itself if defaults are not evaluated or the evaluator fails. -/
def Options.defaultValue (o : Options) (context : Value) (raw : String) : Value :=
  (o.active?.bind fun evaluate => (evaluate raw context).toOption).getD (.string raw)

/-! ## Renderings that differ in their notes -/

namespace Rendering

variable {α β : Type}

/-- After the same calls both give the same result and make the same calls, whatever the notes are. -/
def SeenAlike (m₁ m₂ : Rendering α) : Prop := ∀ j₁ j₂ : Journal, j₁.calls = j₂.calls → m₁.seen j₁ = m₂.seen j₂

theorem SeenAlike.bind {m₁ m₂ : Rendering α} {f₁ f₂ : α → Rendering β} (hm : SeenAlike m₁ m₂)
    (hf : ∀ a, SeenAlike (f₁ a) (f₂ a)) : SeenAlike (m₁ >>= f₁) (m₂ >>= f₂) := by
  intro j₁ j₂ hj
  have hseen := hm j₁ j₂ hj
  rcases h₁ : m₁.outcome j₁ with ⟨e | a, k₁⟩
  · have he₁ := seen_of_outcome h₁
    rw [seen_bind_error he₁, seen_bind_error (hseen ▸ he₁)]
  · obtain ⟨k₂, h₂, hk⟩ := exists_of_seen (hseen.symm.trans (seen_of_outcome h₁))
    rw [seen_bind_ok h₁, seen_bind_ok h₂]
    exact hf a k₁ k₂ hk.symm

theorem congruence_seenAlike : Congruence SeenAlike where
  pure a _ _ hj := congrArg (Except.ok a, ·) hj
  bind := SeenAlike.bind

end Rendering

/-! ## What a parameter stands for -/

namespace Parameter

variable {host : Host} {context : Value} {a b : Options} {p : Parameter}

theorem fallback_fst (o : Options) (p : Parameter) :
    (p.fallback ⟨host, o.active?, context⟩).1 = (p.default?.map (o.defaultValue context)).getD .null := by
  unfold fallback Options.defaultValue
  cases p.default? with
  | none => rfl
  | some raw =>
    cases o.active? with
    | none => rfl
    | some evaluate =>
      simp only [Option.map_some, Option.getD_some, Option.bind_some]
      cases evaluate raw context <;> rfl

/-- **The evaluator matters to a parameter only where its key leads to nothing or to null.** -/
theorem found_fst_congr (h : (context.get? p.key).getD .null = .null → ∀ raw, p.default? = some raw →
    a.defaultValue context raw = b.defaultValue context raw) :
    (p.found ⟨host, a.active?, context⟩).1 = (p.found ⟨host, b.active?, context⟩).1 := by
  have hfallback : (context.get? p.key).getD .null = .null →
      (p.fallback ⟨host, a.active?, context⟩).1 = (p.fallback ⟨host, b.active?, context⟩).1 := by
    intro hmissing
    rw [fallback_fst, fallback_fst]
    cases hd : p.default? with
    | none => rfl
    | some raw => exact h hmissing raw hd
  unfold found
  cases hg : context.get? p.key with
  | none =>
    rw [hg] at hfallback
    exact hfallback rfl
  | some v =>
    rw [hg] at hfallback
    cases v with
    | null => exact hfallback rfl
    | _ => rfl

theorem resolve_seenAlike {s₁ s₂ : Setting} (hhost : s₁.host = s₂.host) (hfound : (p.found s₁).1 = (p.found s₂).1) :
    Rendering.SeenAlike (p.resolve s₁) (p.resolve s₂) := by
  intro j₁ j₂ hj
  rw [Rendering.seen, Rendering.seen, outcome_resolve, outcome_resolve, hfound, hhost, hj]
  cases (p.found s₂).1 <;> rfl

end Parameter

/-! ## Whole templates -/

namespace Template

/-- Under both options a template renders to the same result with the same calls, whatever functions answer and after
whatever calls. -/
def RendersSame (a b : Options) (t context : Value) : Prop :=
  ∀ host j, ((compile a t).render host context).seen j = ((compile b t).render host context).seen j

variable {t context : Value}

theorem rendersSame_of_defaults {a b : Options} (h : ∀ p ∈ t.occurrences, (context.get? p.key).getD .null = .null →
    ∀ raw, p.default? = some raw → a.defaultValue context raw = b.defaultValue context raw) :
    RendersSame a b t context := by
  intro host j
  have hresolve : ∀ p ∈ (Node.ofValue t).parameters,
      Rendering.SeenAlike (p.resolve ⟨host, a.active?, context⟩) (p.resolve ⟨host, b.active?, context⟩) := by
    intro p hp
    rw [Node.parameters_ofValue] at hp
    exact Parameter.resolve_seenAlike rfl (Parameter.found_fst_congr (h p hp))
  exact @Node.render_related _ _ _ Rendering.congruence_seenAlike (Node.ofValue t) hresolve j j rfl

theorem defaultValue_of_active?_eq_none {o : Options} (h : o.active? = none) (raw : String) :
    o.defaultValue context raw = .string raw := by
  rw [Options.defaultValue, h]
  rfl

theorem defaultValue_of_fails {o : Options} {evaluate : Evaluator} (h : o.active? = some evaluate)
    (hfails : ∀ raw scope, ∃ e, evaluate raw scope = .error e) (raw : String) :
    o.defaultValue context raw = .string raw := by
  obtain ⟨e, he⟩ := hfails raw context
  rw [Options.defaultValue, h, Option.bind_some, he]
  rfl

/-- **Options matter to a rendering only through the defaults that it uses.**  If all defaults of keys that lead to nothing
or to null come to the same under both, the template renders to the same with the same calls.  So the evaluator does not
matter if every key leads to something else than null, and one that always fails is as good as none. -/
theorem render_same_of_defaults (t context : Value) (a b : Options) :
    ((∀ p ∈ t.occurrences, (context.get? p.key).getD .null = .null → ∀ raw, p.default? = some raw →
      a.defaultValue context raw = b.defaultValue context raw) → RendersSame a b t context) ∧
    ((∀ p ∈ (compile a t).parameters, ∃ v, context.get? p.key = some v ∧ v ≠ .null) → RendersSame a b t context) ∧
    (∀ evaluate, a.active? = some evaluate → (∀ raw scope, ∃ e, evaluate raw scope = .error e) → b.active? = none →
      RendersSame a b t context) := by
  refine ⟨rendersSame_of_defaults, fun hpresent => rendersSame_of_defaults fun p hp hmissing => ?_,
    fun evaluate ha hfails hb => rendersSame_of_defaults fun p _ _ raw _ => ?_⟩
  · -- the parameter may not be listed, but another one with its key is
    rw [← Node.parameters_ofValue] at hp
    obtain ⟨listed, hlisted, hkey⟩ := @exists_mem_parameters (compile a t) p hp
    obtain ⟨v, hv, hne⟩ := hpresent listed hlisted
    rw [hkey] at hv
    rw [hv] at hmissing
    exact absurd hmissing hne
  · rw [defaultValue_of_fails ha hfails, defaultValue_of_active?_eq_none hb]

/-- A default that no evaluator can read, beside a key that leads to something; then every key does. -/
theorem render_same_of_defaults_unreadable :
    RendersSame ⟨true, .expressions, none⟩ .default (.string "\x7b\x7ba:1+\x7d\x7d-\x7b\x7bb:c\x7d\x7d")
      (.object [("b", .bool true)]) ∧
    RendersSame ⟨true, .expressions, none⟩ .default (.string "\x7b\x7ba:1+\x7d\x7d-\x7b\x7bb:c\x7d\x7d")
      (.object [("a", .string ""), ("b", .bool true)]) ∧
    RendersSame ⟨true, .expressions, some fun _ _ => .error (.failed .divisionByZero)⟩ .default
      (.string "\x7b\x7ba:1+\x7d\x7d-\x7b\x7bb:c\x7d\x7d") (.object [("b", .bool true)]) := by
  have hoccurrences : (Value.string "\x7b\x7ba:1+\x7d\x7d-\x7b\x7bb:c\x7d\x7d").occurrences =
      [⟨"a", some "1+"⟩, ⟨"b", some "c"⟩] := by decide +kernel
  have hparameters : (compile ⟨true, .expressions, none⟩
      (.string "\x7b\x7ba:1+\x7d\x7d-\x7b\x7bb:c\x7d\x7d")).parameters = [⟨"a", some "1+"⟩, ⟨"b", some "c"⟩] := by decide +kernel
  have hpresent : (Value.object [("b", .bool true)]).get? "b" = some (.bool true) := rfl
  have hunread : (Expr.parse "1+").toOption.isNone = true := by decide +kernel
  refine ⟨(render_same_of_defaults _ _ _ _).1 ?_, (render_same_of_defaults _ _ _ _).2.1 ?_,
    (render_same_of_defaults _ _ _ _).2.2 _ rfl (fun _ _ => ⟨_, rfl⟩) rfl⟩
  · rw [hoccurrences]
    simp only [List.forall_mem_cons]
    refine ⟨fun _ raw hraw => ?_, fun hmissing => ?_, fun _ h => nomatch h⟩
    · cases hraw
      show ((Evaluator.expressions "1+" _).toOption).getD _ = _
      unfold Evaluator.expressions
      cases hparse : Expr.parse "1+" with
      | error e => rfl
      | ok e => rw [hparse] at hunread; cases hunread
    · rw [hpresent] at hmissing
      cases hmissing
  · rw [hparameters]
    simp only [List.forall_mem_cons]
    exact ⟨⟨.string "", rfl, nofun⟩, ⟨.bool true, rfl, nofun⟩, fun _ h => nomatch h⟩

end Template
end Stencil
