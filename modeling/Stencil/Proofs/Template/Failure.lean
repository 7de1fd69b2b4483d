import Mathlib
import Stencil.Proofs.Expr.Provenance
import Stencil.Proofs.Rendering.Related
import Stencil.Proofs.Rendering.Resolve
import Stencil.Proofs.Template.Occurrences
import Stencil.Proofs.Value.Plain
/-!
# Why a rendering fails

A rendering accounts for its calls if it calls nothing but certain functions, and fails only when one of these does: the
failed call is then the last one made, and the error is what the function answered, under a certain key.  Rendering a
template accounts for its calls by the functions of the context and the keys that the template asks for.  Nothing that an
expression comes to is a function but what it takes out of its scope, and the functions of a template are never called.
-/
namespace Stencil

/-! ## Accounting for calls -/

namespace Rendering

variable {α β : Type} {host : Host} {fs : FunctionId → Prop} {keys : String → Prop}

/-- The rendering calls only certain functions, and fails only when the host fails at one of them, under a certain key. -/
structure Accounts (host : Host) (fs : FunctionId → Prop) (keys : String → Prop) (m : Rendering α) : Prop where
  calls : ∀ j, ∃ made, (∀ f ∈ made, fs f) ∧ (m.outcome j).2.calls = made ++ j.calls
  fails : ∀ {j k e}, m.outcome j = (.error e, k) → keys e.key ∧
    ∃ f made, fs f ∧ k.calls = f :: (made ++ j.calls) ∧ host (made ++ j.calls) f = .error e.message

theorem accounts_pure (a : α) : Accounts host fs keys (pure a : Rendering α) where
  calls j := ⟨[], fun f hf => (List.not_mem_nil hf).elim, rfl⟩
  fails h := by cases h

theorem Accounts.bind {m : Rendering α} {g : α → Rendering β} (hm : m.Accounts host fs keys)
    (hg : ∀ a, (g a).Accounts host fs keys) : (m >>= g).Accounts host fs keys where
  calls j := by
    obtain ⟨made, hmade, hcalls⟩ := hm.calls j
    rw [outcome_bind]
    split
    · rename_i a k hk
      obtain ⟨more, hmore, hcalls'⟩ := (hg a).calls k
      rw [hk] at hcalls
      exact ⟨more ++ made, fun f hf => (List.mem_append.1 hf).elim (hmore f) (hmade f),
        by rw [hcalls', hcalls, List.append_assoc]⟩
    · rename_i e k hk
      rw [hk] at hcalls
      exact ⟨made, hmade, hcalls⟩
  fails {j l e} h := by
    rw [outcome_bind] at h
    split at h
    · rename_i a k hk
      obtain ⟨made, hmade, hcalls⟩ := hm.calls j
      rw [hk] at hcalls
      obtain ⟨hkey, f, more, hf, hlast, hanswer⟩ := (hg a).fails h
      -- the host answered after the calls of both steps
      rw [hcalls, ← List.append_assoc] at hlast hanswer
      exact ⟨hkey, f, more ++ made, hf, hlast, hanswer⟩
    · rename_i e' k hk
      cases h
      exact hm.fails hk

theorem Accounts.mono_keys {m : Rendering α} {more : String → Prop} (hm : m.Accounts host fs keys)
    (h : ∀ key, keys key → more key) : m.Accounts host fs more where
  calls := hm.calls
  fails he := ⟨h _ (hm.fails he).1, (hm.fails he).2⟩

theorem congruence_accounts : Congruence fun m _ => Accounts host fs keys m where
  pure a := accounts_pure a
  bind hm hg := hm.bind hg

end Rendering

/-! ## What is called -/

theorem Expr.mem_parts_of_resolve {segments : List String} {scope v : Value} (h : resolve segments scope = .ok v) :
    v = .null ∨ v ∈ scope.parts := by
  unfold resolve at h
  split at h
  · cases h
  · split at h
    · cases h
      cases hd : scope.descend? _ with
      | none => exact .inl rfl
      | some w => exact .inr (Value.mem_parts_of_descend? hd)
    · cases h

/-- **A function that a text comes to is a function of the scope.** -/
theorem Evaluator.mem_functions_of_expressions {source : String} {scope : Value} {f : FunctionId}
    (h : Evaluator.expressions source scope = .ok (.function f)) : f ∈ scope.functions := by
  unfold expressions at h
  split at h
  · cases h
  · rename_i e hparse
    have heval : e.eval scope = .ok (.function f) := by
      cases hv : e.eval scope with
      | error failure => rw [hv] at h; cases h
      | ok v => rw [hv] at h; cases h; rfl
    obtain ⟨segments, -, hr⟩ := Expr.path_of_eval_parse hparse heval nofun
    rcases Expr.mem_parts_of_resolve hr with hnull | hpart
    · cases hnull
    · exact Value.mem_functions_of_mem_parts hpart

/-- **A function that a parameter stands for is a function of the context.** -/
theorem Parameter.mem_functions_of_found {s : Setting} (hs : s.evaluator? = none ∨ s.evaluator? = some .expressions)
    {p : Parameter} {f : FunctionId} (h : (p.found s).1 = .function f) : f ∈ s.context.functions := by
  have hfallback : (p.fallback s).1 = .function f → f ∈ s.context.functions := by
    intro h
    unfold fallback at h
    split at h
    · cases h
    · rcases hs with hs | hs
      · rw [hs] at h; cases h
      · rw [hs] at h
        simp only at h
        split at h
        · rename_i v hv
          cases h
          exact Evaluator.mem_functions_of_expressions hv
        · cases h
  unfold found at h
  split at h
  · rename_i v hget
    split at h
    · exact hfallback h
    · cases h
      exact Value.mem_functions_of_mem_parts (Value.mem_parts_of_get? hget)
  · exact hfallback h

theorem Parameter.accounts_resolve {s : Setting} (hs : s.evaluator? = none ∨ s.evaluator? = some .expressions)
    (p : Parameter) : (p.resolve s).Accounts s.host (· ∈ s.context.functions) (· = p.key) where
  calls j := by
    rw [outcome_resolve]
    split
    · rename_i f hf
      exact ⟨[f], fun g hg => List.mem_singleton.1 hg ▸ mem_functions_of_found hs hf, rfl⟩
    · exact ⟨[], fun f hf => (List.not_mem_nil hf).elim, rfl⟩
  fails {j k e} h := by
    rw [outcome_resolve] at h
    split at h
    · rename_i f hf
      cases ha : s.host j.calls f with
      | ok v => rw [ha] at h; cases h
      | error message =>
        rw [ha] at h
        cases h
        exact ⟨rfl, f, [], mem_functions_of_found hs hf, rfl, ha⟩
    · cases h

namespace Value

theorem functions_ofJson (json : Json) : (ofJson json).functions = [] := by
  refine List.filterMap_eq_nil_iff.2 fun v hv => ?_
  have hplain := plain_ofJson json v hv
  cases v with
  | function f => cases hplain
  | _ => rfl

end Value

namespace Template

/-- **Rendering a template accounts for its calls** by the functions of the context and the keys of the parameters. -/
theorem accounts_render (t : Value) {o : Options} (ho : o.active? = none ∨ o.active? = some .expressions) (host : Host)
    (context : Value) : ((compile o t).render host context).Accounts host (· ∈ context.functions)
      (fun key => ∃ p ∈ (compile o t).parameters, p.key = key) := by
  let s : Setting := ⟨host, o.active?, context⟩
  have hresolve : ∀ p ∈ (compile o t).root.parameters, (p.resolve s).Accounts host (· ∈ context.functions)
      (fun key => ∃ q ∈ (compile o t).parameters, q.key = key) := fun p hp => by
    refine (@Parameter.accounts_resolve s ho p).mono_keys ?_
    rintro _ rfl
    exact exists_mem_parameters hp
  exact @Node.render_related _ s s Rendering.congruence_accounts (compile o t).root hresolve

theorem exists_outcome_render (t : Value) {o : Options} (ho : o.active? = none ∨ o.active? = some .expressions)
    (host : Host) {context : Value} (hnone : context.functions = []) (j : Journal) :
    ∃ r k, ((compile o t).render host context).outcome j = (.ok r, k) ∧ k.calls = j.calls := by
  have haccounts := accounts_render t ho host context
  rcases h : ((compile o t).render host context).outcome j with ⟨e | r, k⟩
  · obtain ⟨-, f, made, hf, -⟩ := haccounts.fails h
    rw [hnone] at hf
    exact (List.not_mem_nil hf).elim
  · obtain ⟨made, hmade, hcalls⟩ := haccounts.calls j
    rw [hnone] at hmade
    rw [h, List.eq_nil_iff_forall_not_mem.2 fun f hf => List.not_mem_nil (hmade f hf)] at hcalls
    exact ⟨r, k, rfl, hcalls⟩

/-- **A rendering fails only because a function of the context failed.**  The error has a key that the template asks for,
and what the last function called answered.  So without functions in the context, as with JSON data, nothing is called
and nothing fails, whatever the defaults are. -/
theorem render_fails_by_call (t : Value) (o : Options) (ho : o.active? = none ∨ o.active? = some .expressions)
    (host : Host) (j : Journal) :
    (∀ context e k, ((compile o t).render host context).outcome j = (.error e, k) →
      (∃ p ∈ (compile o t).parameters, p.key = e.key) ∧
        ∃ f made, f ∈ context.functions ∧ k.calls = f :: (made ++ j.calls) ∧
          host (made ++ j.calls) f = .error e.message) ∧
    (∀ context, context.functions = [] →
      ∃ r k, ((compile o t).render host context).outcome j = (.ok r, k) ∧ k.calls = j.calls) ∧
    (∀ json, ∃ r k, ((compile o t).renderJson host json).outcome j = (.ok r, k) ∧ k.calls = j.calls) := by
  refine ⟨fun context e k h => (accounts_render t ho host context).fails h,
    fun context hnone => exists_outcome_render t ho host hnone j, fun json => ?_⟩
  obtain ⟨r, k, hr, hcalls⟩ := exists_outcome_render t ho host (Value.functions_ofJson json) j
  exact ⟨r.toJson, k, by rw [renderJson, Rendering.outcome_bind_ok hr]; rfl, hcalls⟩

/-- A function that fails at its first call, and a default that has no value. -/
theorem render_fails_by_call_first :
    (∃ p ∈ (compile ⟨true, .expressions, none⟩ (.string "\x7b\x7ba\x7d\x7d-\x7b\x7bb\x7d\x7d")).parameters,
      p.key = "b") ∧
    ∃ r k, ((compile ⟨true, .expressions, none⟩ (.string "\x7b\x7ba:1/0\x7d\x7d")).render
      (fun _ _ => .error "no data") (.object [])).outcome {} = (.ok r, k) ∧ k.calls = [] := by
  have hfails := (render_fails_by_call (.string "\x7b\x7ba\x7d\x7d-\x7b\x7bb\x7d\x7d") ⟨true, .expressions, none⟩
    (.inr rfl) (fun _ _ => .error "no data") {}).1 (.object [("a", .bool true), ("b", .function ⟨0⟩)])
      ⟨"b", "no data"⟩ ⟨[⟨0⟩], []⟩ (by cbv)
  have hrenders := (render_fails_by_call (.string "\x7b\x7ba:1/0\x7d\x7d") ⟨true, .expressions, none⟩ (.inr rfl)
    (fun _ _ => .error "no data") {}).2.1 (.object []) rfl
  exact ⟨hfails.1, hrenders⟩

end Template
end Stencil
