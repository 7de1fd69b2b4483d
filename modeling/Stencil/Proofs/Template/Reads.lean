import Mathlib
import Stencil.Proofs.Expr.Nodes
import Stencil.Proofs.Rendering.Outcome
import Stencil.Proofs.Rendering.Related
import Stencil.Proofs.Template.Occurrences
/-!
# What a rendering reads

A rendering looks up the keys of the template's parameters, and the first segments of the paths in the defaults that it
computes (`Template.ReadsRoot`).  Contexts that agree on these render alike (`Template.Agree.rendersAlike`): the same result
or error, the same calls and the same notes.  A lookup that leads to null counts as one that leads nowhere.

The keys of a template's parameters are all the keys that it looks up, though of the parameters with one key only the
first is listed.
-/
namespace Stencil

/-! ## Resolving a parameter -/

theorem Evaluator.expressions_congr {source : String} {c d : Value}
    (h : ∀ e, Expr.parse source = .ok e → ∀ root ∈ e.roots, c.entry? root = d.entry? root) :
    Evaluator.expressions source c = Evaluator.expressions source d := by
  unfold expressions
  split
  · rfl
  · rename_i e hparse
    rw [Expr.eval_congr_of_roots (h e hparse)]

namespace Parameter

theorem fallback_congr {s₁ s₂ : Setting} {p : Parameter} (he : s₁.evaluator? = s₂.evaluator?)
    (h : ∀ raw evaluate, p.default? = some raw → s₁.evaluator? = some evaluate →
      evaluate raw s₁.context = evaluate raw s₂.context) : p.fallback s₁ = p.fallback s₂ := by
  unfold fallback
  split
  · rfl
  · rename_i raw hraw
    rw [← he]
    split
    · rfl
    · rename_i evaluate hevaluate
      rw [h raw evaluate hraw hevaluate]

theorem found_eq (s : Setting) (p : Parameter) : p.found s =
    if ((s.context.get? p.key).getD .null).isNull then p.fallback s else ((s.context.get? p.key).getD .null, []) := by
  unfold found
  cases s.context.get? p.key <;> rfl

/-- **What a parameter resolves to depends on its lookup and its default only**; a missing value is as good as null. -/
theorem resolve_congr {s₁ s₂ : Setting} {p : Parameter} (hhost : s₁.host = s₂.host)
    (hlookup : (s₁.context.get? p.key).getD .null = (s₂.context.get? p.key).getD .null)
    (hfallback : p.fallback s₁ = p.fallback s₂) : p.resolve s₁ = p.resolve s₂ := by
  rw [resolve, resolve, found_eq, found_eq, hlookup, hfallback, hhost]

end Parameter

/-! ## Contexts that agree -/

namespace Template

/-- A default of the template is computed from a path with this first segment. -/
def ReadsRoot (o : Options) (t : Value) (root : String) : Prop :=
  o.evalDefaults = true ∧ ∃ text ∈ t.texts, ∃ p ∈ Placeholder.scan text, ∃ raw e,
    p.parameter.default? = some raw ∧ Expr.parse raw = .ok e ∧ root ∈ e.roots

/-- Two contexts have the same for all that a template reads. -/
structure Agree (o : Options) (t : Value) (c d : Value) : Prop where
  lookups : ∀ p ∈ (compile o t).parameters, (c.get? p.key).getD .null = (d.get? p.key).getD .null
  roots : ∀ root, ReadsRoot o t root → c.entry? root = d.entry? root

def RendersAlike (o : Options) (t : Value) (c d : Value) : Prop :=
  ∀ host j, ((compile o t).render host c).outcome j = ((compile o t).render host d).outcome j

/-- The template reads the entry of this key in a context: it looks up the key, or a path that begins with it. -/
def Names (o : Options) (t : Value) (key : String) : Prop :=
  (∃ p ∈ (compile o t).parameters, p.key = key ∨ (Path.segments p.key).head? = some key) ∨ ReadsRoot o t key

variable {o : Options} {t : Value}

theorem evalDefaults_of_active? {evaluate : Evaluator} (h : o.active? = some evaluate) : o.evalDefaults = true := by
  unfold Options.active? at h
  split at h
  · rename_i hon
    exact hon
  · cases h

/-- **Contexts that agree on what a template reads render alike.** -/
theorem Agree.rendersAlike {c d : Value} (h : Agree o t c d)
    (ho : o.active? = none ∨ o.active? = some .expressions) : RendersAlike o t c d := by
  intro host j
  let s₁ : Setting := ⟨host, o.active?, c⟩
  let s₂ : Setting := ⟨host, o.active?, d⟩
  have hresolve : ∀ p ∈ (compile o t).root.parameters, p.resolve s₁ = p.resolve s₂ := by
    intro p hp
    -- the parameter may not be listed, but another one with its key is
    obtain ⟨listed, hlisted, hkey⟩ := exists_mem_parameters hp
    obtain ⟨text, htext, q, hq, rfl⟩ := Node.exists_of_mem_parameters hp
    have hlookup := h.lookups listed hlisted
    rw [hkey] at hlookup
    refine Parameter.resolve_congr rfl hlookup (Parameter.fallback_congr rfl fun raw evaluate hraw hevaluate => ?_)
    have hactive : o.active? = some evaluate := hevaluate
    rcases ho with hnone | hsome
    · rw [hnone] at hactive; cases hactive
    · rw [hsome] at hactive
      cases hactive
      exact Evaluator.expressions_congr fun e hparse root hroot =>
        h.roots root ⟨evalDefaults_of_active? hsome, text, htext, q, hq, raw, e, hraw, hparse, hroot⟩
  have hrender := @Node.render_related _ s₁ s₂ Rendering.congruence_eq (compile o t).root hresolve
  exact congrArg (Rendering.outcome · j) hrender

/-! ## Objects that agree -/

/-- **Objects that have the same under all named keys agree.** -/
theorem agree_of_names {es₁ es₂ : Entries Value} (h : ∀ key, Names o t key → es₁.get? key = es₂.get? key) :
    Agree o t (.object es₁) (.object es₂) where
  lookups p hp := by
    have hkey := h p.key (.inl ⟨p, hp, .inl rfl⟩)
    have hdescend : (Value.object es₁).descend? (Path.segments p.key) = (Value.object es₂).descend? (Path.segments p.key) := by
      cases hs : Path.segments p.key with
      | nil => rfl
      | cons root rest =>
        have hroot := h root (.inl ⟨p, hp, .inr (by rw [hs]; rfl)⟩)
        show (es₁.get? root).bind _ = (es₂.get? root).bind _
        rw [hroot]
    rw [Value.get?_object, Value.get?_object, hkey, hdescend]
  roots root hr := h root (.inr hr)

theorem getD_follow?_null (segments : List String) : (Value.null.follow? segments).getD .null = .null := by
  cases segments <;> rfl

/-- **A key that stores null agrees with one that is missing**, and whose path leads nowhere. -/
theorem agree_of_null {es₁ es₂ : Entries Value} {key : String} (hnull : es₁.get? key = some .null)
    (hmissing : es₂.get? key = none) (hnowhere : (Value.object es₂).get? key = none)
    (hsame : ∀ k, k ≠ key → es₁.get? k = es₂.get? k) (hroot : ¬ ReadsRoot o t key) :
    Agree o t (.object es₁) (.object es₂) where
  lookups p hp := by
    by_cases hk : p.key = key
    · rw [hk, hnowhere, Value.get?_object, hnull]
      split <;> rfl
    · have hdescend : ((Value.object es₁).descend? (Path.segments p.key)).getD .null =
          ((Value.object es₂).descend? (Path.segments p.key)).getD .null := by
        cases Path.segments p.key with
        | nil => rfl
        | cons root rest =>
          show ((es₁.get? root).bind (·.follow? rest)).getD .null = ((es₂.get? root).bind (·.follow? rest)).getD .null
          by_cases hr : root = key
          · rw [hr, hnull, hmissing]
            exact getD_follow?_null rest
          · rw [hsame root hr]
      rw [Value.get?_object, Value.get?_object, hsame p.key hk]
      split
      · rfl
      · rw [Option.getD_or, Option.getD_or, hdescend]
  roots root hr := hsame root fun e => hroot (e ▸ hr)

/-- **A rendering reads only what its parameters name.**  Contexts render alike if they have the same, or both nothing but
perhaps null, under every key that the template asks for, and the same entries for the first segments of the paths in
defaults that are computed.  So a key that stores null is as good as one that is missing, and entries that the template
does not name do not matter. -/
theorem render_reads_only_named (o : Options) (t : Value) (ho : o.active? = none ∨ o.active? = some .expressions) :
    (∀ c d, Agree o t c d → RendersAlike o t c d) ∧
    (∀ (es₁ es₂ : Entries Value) (key : String), es₁.get? key = some .null → es₂.get? key = none →
      (Value.object es₂).get? key = none → (∀ k, k ≠ key → es₁.get? k = es₂.get? k) → ¬ ReadsRoot o t key →
        RendersAlike o t (.object es₁) (.object es₂)) ∧
    (∀ es₁ es₂ : Entries Value, (∀ key, Names o t key → es₁.get? key = es₂.get? key) →
      RendersAlike o t (.object es₁) (.object es₂)) := by
  refine ⟨fun c d h => h.rendersAlike ho, ?_, fun es₁ es₂ h => (agree_of_names h).rendersAlike ho⟩
  intro es₁ es₂ key hnull hmissing hnowhere hsame hroot
  exact (agree_of_null hnull hmissing hnowhere hsame hroot).rendersAlike ho

/-- A null beside entries that are not named, before a default that is computed from another entry. -/
theorem render_reads_only_named_computed :
    RendersAlike ⟨true, .expressions, none⟩ (.string "\x7b\x7ba:x\x7d\x7d")
      (.object [("a", .null), ("x", .bool true), ("y", .null)]) (.object [("x", .bool true)]) ∧
    RendersAlike ⟨true, .expressions, none⟩ (.string "\x7b\x7ba:x\x7d\x7d")
      (.object [("a", .null), ("x", .bool true)]) (.object [("x", .bool true)]) ∧
    RendersAlike ⟨true, .expressions, none⟩ (.string "\x7b\x7ba:x\x7d\x7d")
      (.object [("x", .bool true), ("y", .null)]) (.object [("x", .bool true)]) := by
  have hparameters : (compile ⟨true, .expressions, none⟩ (.string "\x7b\x7ba:x\x7d\x7d")).parameters = [⟨"a", some "x"⟩] := by
    cbv
  have hsegments : Path.segments "a" = ["a"] := by cbv
  have hscan : (Placeholder.scan "\x7b\x7ba:x\x7d\x7d").map (·.parameter) = [⟨"a", some "x"⟩] := by cbv
  have hroots : (Expr.parse "x").toOption.map Expr.roots = some ["x"] := by decide +kernel
  have hroot : ∀ root, ReadsRoot ⟨true, .expressions, none⟩ (.string "\x7b\x7ba:x\x7d\x7d") root → root = "x" := by
    rintro root ⟨-, text, htext, p, hp, raw, e, hraw, hparse, hmem⟩
    cases List.mem_singleton.1 htext
    have hparameter := List.mem_map_of_mem (f := (·.parameter)) hp
    rw [hscan, List.mem_singleton] at hparameter
    rw [hparameter] at hraw
    cases hraw
    rw [hparse] at hroots
    rw [Option.some.inj hroots] at hmem
    exact List.mem_singleton.1 hmem
  have hnames : ∀ key, Names ⟨true, .expressions, none⟩ (.string "\x7b\x7ba:x\x7d\x7d") key → key = "a" ∨ key = "x" := by
    rintro key (⟨p, hp, hkey⟩ | hkey)
    · rw [hparameters, List.mem_singleton] at hp
      rw [hp, hsegments] at hkey
      exact .inl (hkey.elim Eq.symm fun h => (Option.some.inj h).symm)
    · exact .inr (hroot key hkey)
  obtain ⟨hagree, hnull, hnamed⟩ :=
    render_reads_only_named ⟨true, .expressions, none⟩ (.string "\x7b\x7ba:x\x7d\x7d") (.inr rfl)
  refine ⟨hagree _ _ ⟨?_, ?_⟩, hnull _ _ "a" rfl rfl ?_ ?_ ?_, hnamed _ _ ?_⟩
  · intro p hp
    rw [hparameters, List.mem_singleton] at hp
    rw [hp, Value.get?_object, Value.get?_object, hsegments]
    rfl
  · intro root hr
    rw [hroot root hr]
    rfl
  · rw [Value.get?_object, hsegments]
    rfl
  · intro k hk
    simp [Entries.get?, hk.symm]
  · exact fun h => absurd (hroot "a" h) (by decide)
  · intro key hkey
    rcases hnames key hkey with rfl | rfl <;> rfl

end Template
end Stencil
