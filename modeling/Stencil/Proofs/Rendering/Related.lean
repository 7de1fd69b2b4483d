import Stencil.Template.Basic
/-!
# Rendering in two settings

A relation between renderings is a *congruence* if what needs no setting is related to itself, and steps that are related
one by one are related when they are taken one after the other.  A setting comes into a rendering only where a parameter
is resolved.  So it is enough to relate those resolutions: then the renderings of the whole are related
(`Node.render_related`), and a property of renderings is the case of one setting.
-/
namespace Stencil

/-- A relation between renderings that lasts from step to step. -/
structure Rendering.Congruence (R : ∀ {α : Type}, Rendering α → Rendering α → Prop) : Prop where
  pure : ∀ {α : Type} (a : α), R (Pure.pure a : Rendering α) (Pure.pure a)
  bind : ∀ {α β : Type} {m₁ m₂ : Rendering α} {f₁ f₂ : α → Rendering β}, R m₁ m₂ → (∀ a, R (f₁ a) (f₂ a)) →
    R (m₁ >>= f₁) (m₂ >>= f₂)

theorem Rendering.congruence_eq : Rendering.Congruence fun m₁ m₂ => m₁ = m₂ where
  pure _ := rfl
  bind hm hf := by rw [hm, funext hf]

variable {R : ∀ {α : Type}, Rendering α → Rendering α → Prop} {s₁ s₂ : Setting}

theorem Pattern.splice_related (hR : Rendering.Congruence R) {keep : Bool} : ∀ {ps : List Placeholder} (out : List Char),
    (∀ p ∈ ps, R (p.parameter.resolve s₁) (p.parameter.resolve s₂)) → R (splice s₁ keep out ps) (splice s₂ keep out ps)
  | [], out, _ => hR.pure _
  | p :: ps, out, h => by
    obtain ⟨hp, hps⟩ := List.forall_mem_cons.1 h
    rw [splice, splice]
    refine hR.bind hp fun v => ?_
    split
    · exact hR.pure v
    · exact splice_related hR _ hps

theorem Pattern.render_related (hR : Rendering.Congruence R) {pattern : Pattern}
    (h : ∀ p ∈ pattern.parameters, R (p.resolve s₁) (p.resolve s₂)) : R (pattern.render s₁) (pattern.render s₂) :=
  splice_related hR _ fun _ hp => h _ (List.mem_map_of_mem hp)

namespace Node

mutual

/-- **Where all parameters resolve alike, all renders alike.** -/
theorem render_related (hR : Rendering.Congruence R) : ∀ n : Node,
    (∀ p ∈ n.parameters, R (p.resolve s₁) (p.resolve s₂)) → R (n.render s₁) (n.render s₂)
  | .constant v, _ => hR.pure v
  | .text _, h => Pattern.render_related hR h
  | .object es, h => by
    rw [render, render]
    exact hR.bind (renderEntries_related hR es h) fun pairs => hR.pure _
  | .array items, h => by
    rw [render, render]
    exact hR.bind (renderItems_related hR items h) fun vs => hR.pure _

theorem renderItems_related (hR : Rendering.Congruence R) : ∀ items : List Node,
    (∀ p ∈ itemParameters items, R (p.resolve s₁) (p.resolve s₂)) → R (renderItems s₁ items) (renderItems s₂ items)
  | [], _ => hR.pure []
  | n :: rest, h => by
    rw [itemParameters, List.forall_mem_append] at h
    rw [renderItems, renderItems]
    exact hR.bind (render_related hR n h.1) fun v => hR.bind (renderItems_related hR rest h.2) fun vs => hR.pure _

theorem renderEntries_related (hR : Rendering.Congruence R) : ∀ es : List (Pattern × Node),
    (∀ p ∈ entryParameters es, R (p.resolve s₁) (p.resolve s₂)) → R (renderEntries s₁ es) (renderEntries s₂ es)
  | [], _ => hR.pure []
  | (k, n) :: rest, h => by
    rw [entryParameters, List.forall_mem_append, List.forall_mem_append] at h
    rw [renderEntries, renderEntries]
    exact hR.bind (Pattern.render_related hR h.1.2) fun key => hR.bind (render_related hR n h.1.1) fun v =>
      hR.bind (renderEntries_related hR rest h.2) fun pairs => hR.pure _

end

end Node
end Stencil
