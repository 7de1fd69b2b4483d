import Stencil.Proofs.Rendering.Resolve
import Stencil.Proofs.Template.Interpretation
import Stencil.Proofs.Value.Parts
/-!
# Rendering a compiled value is interpreting it

The rules of `Direct.Interprets` lead to just what rendering the compiled value gives (`Direct.agrees`).  The proof is by
induction on the value; for a part that is rendered in steps both sides are taken apart at the first step that fails.
-/
namespace Stencil.Direct

variable {s : Setting}

/-! ## Placeholders -/

theorem isNull_iff {v : Value} : v.isNull = true ↔ v = .null := by
  cases v <;> simp [Value.isNull]

theorem Stands.found_eq {p : Parameter} {v : Value} (h : Stands s p v) : (p.found s).1 = v := by
  cases h with
  | found h hv =>
    have hnull : ¬ v.isNull = true := fun hn => hv (isNull_iff.1 hn)
    rw [Parameter.found, h]
    simp only [if_neg hnull]
  | computed h hd he hv => rw [Parameter.found_eq_fallback h, Parameter.fallback, hd]; simp only [he, hv]
  | uncomputed h hd he hv => rw [Parameter.found_eq_fallback h, Parameter.fallback, hd]; simp only [he, hv]
  | raw h hd he => rw [Parameter.found_eq_fallback h, Parameter.fallback, hd]; simp only [he]
  | nothing h hd => rw [Parameter.found_eq_fallback h, Parameter.fallback, hd]

theorem stands_of_missing {p : Parameter} (h : Missing s p) : Stands s p (p.fallback s).1 := by
  unfold Parameter.fallback
  cases hd : p.default? with
  | none => exact .nothing h hd
  | some raw =>
    simp only
    cases he : s.evaluator? with
    | none => exact .raw h hd he
    | some evaluate =>
      simp only
      cases hv : evaluate raw s.context with
      | ok v => exact .computed h hd he hv
      | error e => exact .uncomputed h hd he hv

theorem stands_found (s : Setting) (p : Parameter) : Stands s p (p.found s).1 := by
  by_cases h : Missing s p
  · rw [Parameter.found_eq_fallback h]
    exact stands_of_missing h
  · unfold Missing at h
    rw [Classical.not_forall] at h
    obtain ⟨v, h⟩ := h
    obtain ⟨hg, hv⟩ := Classical.not_imp.1 h
    have hnull : ¬ v.isNull = true := fun hn => hv (isNull_iff.1 hn)
    rw [Parameter.found, hg]
    simp only [if_neg hnull]
    exact .found hg hv

theorem resolves_iff {p : Parameter} {j : Journal} {r : Except CallError Value} {k : List FunctionId} :
    Resolves s p j.calls r k ↔ (p.resolve s).seen j = (r, k) := by
  rw [Rendering.seen, Parameter.outcome_resolve]
  constructor
  · intro h
    cases h with
    | plain h hv =>
      rw [h.found_eq]
      split
      · rename_i f; exact absurd rfl (hv f)
      · rfl
    | answered h ha => rw [h.found_eq]; simp only [ha]; rfl
    | failed h ha => rw [h.found_eq]; simp only [ha]; rfl
  · have hfound := stands_found s p
    split
    · rename_i f hf
      rw [hf] at hfound
      intro h
      cases ha : s.host j.calls f with
      | ok v => rw [ha] at h; cases h; exact .answered hfound ha
      | error m => rw [ha] at h; cases h; exact .failed hfound ha
    · rename_i hf
      intro h
      cases h
      exact .plain hfound hf

/-! ## Texts -/

theorem composite_iff {v : Value} : Composite v ↔ v.isComposite = true := by
  constructor
  · rintro (_ | _ | _) <;> rfl
  · intro h
    cases v with
    | object es => exact .object es
    | array items => exact .array items
    | date t => exact .date t
    | _ => cases h

theorem isSingle_iff {text : String} : IsSingle text ↔ (Pattern.ofText text).isSingle = true := by
  rw [Pattern.isSingle, Pattern.ofText, Bool.and_eq_true, Bool.and_eq_true, beq_iff_eq, List.isPrefixOf_iff_prefix,
    List.isSuffixOf_iff_suffix, List.length_eq_one_iff]
  constructor
  · rintro ⟨one, opens, closes⟩; exact ⟨⟨one, opens⟩, closes⟩
  · rintro ⟨⟨one, opens⟩, closes⟩; exact ⟨one, opens, closes⟩

theorem fills_iff {whole : Prop} {keep : Bool} (hkeep : whole ↔ keep = true) : ∀ {ps : List Placeholder}
    {out : List Char} {j : Journal} {r : Except CallError Value} {k : List FunctionId},
      Fills s whole out ps j.calls r k ↔ (Pattern.splice s keep out ps).seen j = (r, k)
  | [], out, j, r, k => by
    constructor
    · intro h; cases h; rfl
    · intro h; cases h; exact .done
  | p :: ps, out, j, r, k => by
    have hstops : ∀ v, (Composite v ∨ whole) ↔ (v.isComposite || keep) = true := fun v => by
      rw [Bool.or_eq_true, composite_iff, hkeep]
    rw [Pattern.splice, Rendering.seen_bind_iff]
    constructor
    · intro h
      cases h with
      | stop h hv =>
        obtain ⟨i, hi, rfl⟩ := Rendering.exists_of_seen (resolves_iff.1 h)
        refine .inr ⟨_, i, hi, ?_⟩
        rw [if_pos ((hstops _).1 hv)]
        rfl
      | put h hv hput hrest =>
        obtain ⟨i, hi, rfl⟩ := Rendering.exists_of_seen (resolves_iff.1 h)
        refine .inr ⟨_, i, hi, ?_⟩
        rw [if_neg (mt (hstops _).2 hv), Text.puts_iff.1 hput]
        exact (fills_iff hkeep).1 hrest
      | failed h => exact .inl ⟨_, rfl, resolves_iff.1 h⟩
    · rintro (⟨e, rfl, he⟩ | ⟨v, i, hi, h⟩)
      · exact .failed (resolves_iff.2 he)
      · have hv := resolves_iff.2 (Rendering.seen_of_outcome hi)
        split at h
        · rename_i hstop
          cases h
          exact .stop hv ((hstops v).2 hstop)
        · rename_i hgo
          exact .put hv (mt (hstops v).1 hgo) (Text.puts_replaceFirst _ _ _) ((fills_iff hkeep).2 h)

/-! ## Values -/

structure Agrees (s : Setting) (v : Value) : Prop where
  iff : ∀ {j : Journal} {r : Except CallError Value} {k : List FunctionId},
    Interprets s v j.calls r k ↔ ((Node.ofValue v).render s).seen j = (r, k)

theorem agrees_constant {v : Value} (h : Constant v) : Agrees s v := by
  refine ⟨fun {j r k} => ?_⟩
  have hrender : (Node.ofValue v).render s = pure v := by cases h <;> rfl
  rw [hrender]
  constructor
  · intro hi
    cases hi with
    | constant => rfl
    | text | array | object => cases h
  · intro hi
    cases hi
    exact .constant h

theorem agrees_string (text : String) : Agrees s (.string text) := by
  refine ⟨fun {j r k} => ?_⟩
  rw [Node.ofValue, Node.render, Pattern.render, ← @fills_iff s (IsSingle text) _ isSingle_iff]
  constructor
  · intro h
    cases h with
    | constant h => cases h
    | text h => exact h
  · exact .text

theorem interpretsItems_iff : ∀ {items : List Value}, (∀ v ∈ items, Agrees s v) → ∀ {j : Journal}
    {r : Except CallError (List Value)} {k : List FunctionId},
      InterpretsItems s items j.calls r k ↔ (Node.renderItems s (Node.ofItems items)).seen j = (r, k)
  | [], _, j, r, k => by
    constructor
    · intro h; cases h; rfl
    · intro h; cases h; exact .nil
  | v :: rest, hagree, j, r, k => by
    have hv := hagree v List.mem_cons_self
    have hrest := @interpretsItems_iff rest fun w hw => hagree w (List.mem_cons_of_mem _ hw)
    rw [Node.ofItems, Node.renderItems, Rendering.seen_bind_iff]
    constructor
    · intro h
      cases h with
      | failed h => exact .inl ⟨_, rfl, hv.iff.1 h⟩
      | cons h hmore =>
        obtain ⟨i, hi, rfl⟩ := Rendering.exists_of_seen (hv.iff.1 h)
        exact .inr ⟨_, i, hi, Rendering.seen_bind_pure_iff.2 ⟨_, hrest.1 hmore, rfl⟩⟩
    · rintro (⟨e, rfl, he⟩ | ⟨w, i, hi, h⟩)
      · exact .failed (hv.iff.2 he)
      · obtain ⟨r, hr, rfl⟩ := Rendering.seen_bind_pure_iff.1 h
        exact .cons (hv.iff.2 (Rendering.seen_of_outcome hi)) (hrest.2 hr)

/-- **Rendering entries and then inserting them is inserting them as they come.** -/
theorem inserts_iff : ∀ {es : List (String × Value)}, (∀ e ∈ es, Agrees s e.2) → ∀ {acc : Entries Value} {j : Journal}
    {r : Except CallError (Entries Value)} {k : List FunctionId}, Inserts s acc es j.calls r k ↔
      ∃ pairs, (Node.renderEntries s (Node.ofEntries es)).seen j = (pairs, k) ∧ pairs.map acc.insertAll = r
  | [], _, acc, j, r, k => by
    constructor
    · intro h; cases h; exact ⟨.ok [], rfl, rfl⟩
    · rintro ⟨pairs, h, rfl⟩; cases h; exact .nil
  | (key, v) :: rest, hagree, acc, j, r, k => by
    have hk : ∀ {j r k}, Interprets s (.string key) j.calls r k ↔ ((Pattern.ofText key).render s).seen j = (r, k) :=
      (agrees_string key).iff
    have hv := hagree (key, v) List.mem_cons_self
    have hrest := @inserts_iff rest fun e he => hagree e (List.mem_cons_of_mem _ he)
    rw [Node.ofEntries, Node.renderEntries]
    constructor
    · intro h
      cases h with
      | keyFailed h => exact ⟨_, Rendering.seen_bind_error (hk.1 h), rfl⟩
      | valueFailed h h' =>
        obtain ⟨i, hi, rfl⟩ := Rendering.exists_of_seen (hk.1 h)
        exact ⟨_, (Rendering.seen_bind_ok hi).trans (Rendering.seen_bind_error (hv.iff.1 h')), rfl⟩
      | cons h h' hmore =>
        obtain ⟨i, hi, rfl⟩ := Rendering.exists_of_seen (hk.1 h)
        obtain ⟨l, hl, rfl⟩ := Rendering.exists_of_seen (hv.iff.1 h')
        obtain ⟨pairs, hpairs, rfl⟩ := hrest.1 hmore
        refine ⟨_, (Rendering.seen_bind_ok hi).trans ((Rendering.seen_bind_ok hl).trans
          (Rendering.seen_bind_pure_iff.2 ⟨pairs, hpairs, rfl⟩)), ?_⟩
        cases pairs <;> rfl
    · rintro ⟨pairs, h, rfl⟩
      rcases Rendering.seen_bind_iff.1 h with ⟨e, rfl, he⟩ | ⟨kv, i, hi, h⟩
      · exact .keyFailed (hk.2 he)
      have hkey := hk.2 (Rendering.seen_of_outcome hi)
      rcases Rendering.seen_bind_iff.1 h with ⟨e, rfl, he⟩ | ⟨w, l, hl, h⟩
      · exact .valueFailed hkey (hv.iff.2 he)
      obtain ⟨more, hmore, rfl⟩ := Rendering.seen_bind_pure_iff.1 h
      refine .cons hkey (hv.iff.2 (Rendering.seen_of_outcome hl)) (hrest.2 ⟨more, hmore, ?_⟩)
      cases more <;> rfl

/-- **Rendering the compiled form of a value is interpreting the value**, by induction on the value. -/
theorem agrees (s : Setting) (v : Value) : Agrees s v := by
  induction v using Value.inductionOn with
  | null => exact agrees_constant .null
  | bool b => exact agrees_constant (.bool b)
  | number n => exact agrees_constant (.number n)
  | string text => exact agrees_string text
  | date t => exact agrees_constant (.date t)
  | function f => exact agrees_constant (.function f)
  | array items ih =>
    refine ⟨fun {j r k} => ?_⟩
    rw [Node.ofValue, Node.render, Rendering.seen_bind_pure_iff]
    constructor
    · intro h
      cases h with
      | constant h => cases h
      | array h => exact ⟨_, (interpretsItems_iff ih).1 h, rfl⟩
    · rintro ⟨vs, h, rfl⟩
      exact .array ((interpretsItems_iff ih).2 h)
  | object es ih =>
    refine ⟨fun {j r k} => ?_⟩
    rw [Node.ofValue, Node.render, Rendering.seen_bind_pure_iff]
    constructor
    · intro h
      cases h with
      | constant h => cases h
      | object h =>
        obtain ⟨pairs, hpairs, rfl⟩ := (inserts_iff ih).1 h
        refine ⟨pairs, hpairs, ?_⟩
        cases pairs <;> rfl
    · rintro ⟨pairs, h, rfl⟩
      have hmap : pairs.map (fun a => Value.object (Entries.ofList a)) = (pairs.map (Entries.insertAll [])).map .object := by
        cases pairs <;> rfl
      rw [hmap]
      exact .object ((inserts_iff ih).2 ⟨pairs, h, rfl⟩)

end Stencil.Direct

namespace Stencil.Template

/-- **Compiling a value and rendering it is interpreting it directly**: the same value or error, and the same calls in
the same order. -/
theorem render_seen_iff (options : Options) (t : Value) (host : Host) (context : Value) (j : Journal)
    (r : Except CallError Value) (calls : List FunctionId) :
    ((compile options t).render host context).seen j = (r, calls) ↔
      Direct.Interprets ⟨host, options.active?, context⟩ t j.calls r calls :=
  (Direct.agrees ⟨host, options.active?, context⟩ t).iff.symm

end Stencil.Template
