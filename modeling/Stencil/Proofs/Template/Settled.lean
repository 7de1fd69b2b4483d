import Mathlib
import Stencil.Proofs.Entries
import Stencil.Proofs.Rendering.Resolve
import Stencil.Proofs.Template.Objects
import Stencil.Proofs.Template.Summary
import Stencil.Proofs.Value.Braces
/-!
# Values that rendering leaves alone

A value is *settled* if no text in it has a placeholder and no object in it has a key twice.  Compiled, it renders to
itself against every context (`outcome_render_of_settled`); and only a value whose texts have no placeholder asks for
nothing (`Template.renders_self_iff`).

Rendering without an evaluator gives settled values, if there is no opening brace in the context, in what its functions
answer, and in the defaults of the template (`settled_of_render`).  For a text this is `Placeholder.scan_replaceAll`; what
takes the place of a text, and the text of a rendered key, has no brace but those of JSON.
-/
namespace Stencil

/-- No text in the value has a placeholder, and no object in it has a key twice. -/
structure Value.Settled (v : Value) : Prop where
  scan_eq_nil : ∀ text ∈ v.texts, Placeholder.scan text = []
  keysDistinct : v.KeysDistinct

namespace Value.Settled

theorem of_mem {v w : Value} (hv : v.Settled) (h : w ∈ v.parts) : w.Settled :=
  ⟨fun t ht => hv.1 t (texts_subset h ht), hv.2.of_mem h⟩

theorem string {text : String} (h : Placeholder.scan text = []) : (string text).Settled :=
  ⟨fun t ht => by simp [texts, parts, ownTexts] at ht; rwa [ht], keysDistinct_of_parts rfl rfl⟩

theorem array {items : List Value} (h : ∀ v ∈ items, v.Settled) : (array items).Settled := by
  refine ⟨fun t ht => ?_, forall_mem_parts_array.2 ⟨List.nodup_nil, fun v hv => (h v hv).keysDistinct⟩⟩
  rw [texts_array] at ht
  obtain ⟨v, hv, ht⟩ := List.mem_flatMap.1 ht
  exact (h v hv).scan_eq_nil t ht

theorem object {es : List (String × Value)} (hkeys : (Entries.keys es).Nodup)
    (h : ∀ e ∈ es, Placeholder.scan e.1 = [] ∧ e.2.Settled) : (object es).Settled := by
  refine ⟨fun t ht => ?_, forall_mem_parts_object.2 ⟨hkeys, fun e he => (h e he).2.keysDistinct⟩⟩
  rw [texts_object, List.mem_append] at ht
  rcases ht with ht | ht
  · obtain ⟨e, he, rfl⟩ := List.mem_map.1 ht
    exact (h e he).1
  · obtain ⟨e, he, ht⟩ := List.mem_flatMap.1 ht
    exact (h e he).2.scan_eq_nil t ht

theorem of_braceFree {v : Value} (hb : v.BraceFree) (hk : v.KeysDistinct) : v.Settled :=
  ⟨fun t ht => Placeholder.scan_of_quiet ((Placeholder.inert_of_not_mem (hb t ht)).quiet []), hk⟩

theorem mem_items {items : List Value} (h : (Value.array items).Settled) : ∀ v ∈ items, v.Settled :=
  fun v hv => h.of_mem (mem_parts_array hv v.mem_parts_self)

theorem mem_entries {es : List (String × Value)} (h : (Value.object es).Settled) :
    ∀ e ∈ es, Placeholder.scan e.1 = [] ∧ e.2.Settled := fun e he => by
  exact ⟨h.scan_eq_nil e.1 (mem_texts_key he), h.of_mem (mem_parts_object he e.2.mem_parts_self)⟩

end Value.Settled

/-! ## Rendering leaves settled values alone -/

namespace Node

theorem parameters_ofValue_of_settled {v : Value} (h : v.Settled) : (ofValue v).parameters = [] := by
  rw [parameters_ofValue, Value.occurrences_eq_nil.2 h.scan_eq_nil]

theorem outcome_render_of_scan (s : Setting) {text : String} (h : Placeholder.scan text = []) (j : Journal) :
    ((Pattern.ofText text).render s).outcome j = (.ok (.string text), j) := by
  have hsplice : (Pattern.ofText text).render s = Pattern.splice s (Pattern.ofText text).isSingle text.toList [] := by
    rw [Pattern.render]
    simp only [Pattern.ofText, h]
  rw [hsplice, Pattern.splice, String.ofList_toList]
  rfl

theorem outcome_renderItems_self (s : Setting) {items : List Value}
    (h : ∀ v ∈ items, ∀ j, ((ofValue v).render s).outcome j = (.ok v, j)) (j : Journal) :
    (renderItems s (ofItems items)).outcome j = (.ok items, j) := by
  induction items with
  | nil => rfl
  | cons v rest ih =>
    rw [ofItems, renderItems, Rendering.outcome_bind_ok (h v List.mem_cons_self j),
      Rendering.outcome_bind_ok (ih fun w hw => h w (List.mem_cons_of_mem _ hw))]
    rfl

theorem outcome_renderEntries_self (s : Setting) {es : List (String × Value)}
    (h : ∀ e ∈ es, Placeholder.scan e.1 = [] ∧ ∀ j, ((ofValue e.2).render s).outcome j = (.ok e.2, j)) (j : Journal) :
    (renderEntries s (ofEntries es)).outcome j = (.ok es, j) := by
  induction es with
  | nil => rfl
  | cons e rest ih =>
    obtain ⟨hk, hv⟩ := h e List.mem_cons_self
    rw [ofEntries, renderEntries, Rendering.outcome_bind_ok (outcome_render_of_scan s hk j),
      Rendering.outcome_bind_ok (hv j), Rendering.outcome_bind_ok (ih fun f hf => h f (List.mem_cons_of_mem _ hf))]
    rfl

/-- **A settled value renders to itself**: nothing is called and nothing noted. -/
theorem outcome_render_of_settled (s : Setting) {v : Value} :
    v.Settled → ∀ j, ((ofValue v).render s).outcome j = (.ok v, j) := by
  induction v using Value.inductionOn with
  | null | bool _ | number _ | date _ | function _ => exact fun _ _ => rfl
  | string text => exact fun h => outcome_render_of_scan s (h.scan_eq_nil text (Value.mem_texts_string text))
  | array items ih =>
    intro h j
    have hitems := outcome_renderItems_self s (fun v hv => ih v hv (h.mem_items v hv)) j
    rw [ofValue, render, Rendering.outcome_bind_ok hitems]
    rfl
  | object es ih =>
    intro h j
    have hes := outcome_renderEntries_self s
      (fun e he => ⟨(h.mem_entries e he).1, ih e he (h.mem_entries e he).2⟩) j
    have hkeys : (Entries.keys es).Nodup := h.keysDistinct _ (Value.mem_parts_self _)
    rw [ofValue, render, Rendering.outcome_bind_ok hes, Entries.ofList_of_nodup hkeys]
    rfl

end Node

namespace Template

/-- **Just what has no placeholder asks for nothing, and renders to itself**: no function is called and nothing is noted,
whatever the context is and whatever evaluates defaults, an evaluator that fails on all of them included. -/
theorem renders_self_iff (v : Value) (hv : v.KeysDistinct) (o : Options) :
    ((compile o v).parameters = [] ↔ ∀ text ∈ v.texts, Placeholder.scan text = []) ∧
      ((∀ text ∈ v.texts, Placeholder.scan text = []) →
        ∀ host context j, ((compile o v).render host context).outcome j = (.ok v, j)) := by
  refine ⟨?_, fun hscan host context j => ?_⟩
  · rw [parameters_eq_firstWins, firstWins_eq_nil, Value.occurrences_eq_nil]
  · have hsettled : v.Settled := ⟨hscan, hv⟩
    exact Node.outcome_render_of_settled _ hsettled j

/-- Braces that open nothing in a key and in a text, a function that a context has too, and an evaluator that fails. -/
theorem renders_self_open :
    (compile .default (.object [("\x7b\x7ba\x7d", .array [.function ⟨0⟩, .string "\x7b\x7b#-"])])).parameters = [] ∧
      ((compile ⟨true, .expressions, some fun _ _ => .error (.failed .emptyPath)⟩
        (.object [("\x7b\x7ba\x7d", .array [.function ⟨0⟩, .string "\x7b\x7b#-"])])).render (fun _ _ => .error "")
        (.object [("a", .function ⟨0⟩)])).outcome {} =
      (.ok (.object [("\x7b\x7ba\x7d", .array [.function ⟨0⟩, .string "\x7b\x7b#-"])]), {}) := by
  have h := renders_self_iff (.object [("\x7b\x7ba\x7d", .array [.function ⟨0⟩, .string "\x7b\x7b#-"])]) (by decide)
  exact ⟨(h _).1.2 (by decide +kernel), (h _).2 (by decide +kernel) _ _ _⟩

end Template

/-! ## Rendering without an evaluator settles -/

/-- Defaults are texts, and neither the context nor what its functions answer has opening braces or a key twice. -/
structure Setting.BraceFree (s : Setting) : Prop where
  evaluator_eq_none : s.evaluator? = none
  context : s.context.BraceFree ∧ s.context.KeysDistinct
  answers : ∀ f ∈ s.context.functions, ∀ calls v, s.host calls f = .ok v → v.BraceFree ∧ v.KeysDistinct

def Pattern.DefaultsBraceFree (text : String) : Prop :=
  ∀ p ∈ Placeholder.scan text, ∀ raw, p.parameter.default? = some raw → '{' ∉ raw.toList

/-- **What a parameter resolves to has no opening braces.** -/
theorem Parameter.Resolves.braceFree {s : Setting} (hs : s.BraceFree) {p : Parameter}
    (hp : ∀ raw, p.default? = some raw → '{' ∉ raw.toList) {v : Value} (h : p.Resolves s v) :
    v.BraceFree ∧ v.KeysDistinct := by
  rcases found_cases hs.evaluator_eq_none p with hget | hnull | ⟨raw, hraw, hstring⟩
  · have hpart := Value.mem_parts_of_get? hget
    rcases h.cases with hv | ⟨f, calls, hf, hv⟩
    · rw [hv] at hpart
      exact ⟨hs.context.1.of_mem hpart, hs.context.2.of_mem hpart⟩
    · rw [hf] at hpart
      exact hs.answers f (Value.mem_functions_of_mem_parts hpart) calls v hv
  · rcases h.cases with hv | ⟨f, calls, hf, -⟩
    · rw [← hv, hnull]
      exact ⟨by decide, by decide⟩
    · rw [hnull] at hf; cases hf
  · rcases h.cases with hv | ⟨f, calls, hf, -⟩
    · rw [← hv, hstring]
      exact ⟨Value.braceFree_string (hp raw hraw), Value.keysDistinct_of_parts rfl rfl⟩
    · rw [hstring] at hf; cases hf

/-- **A rendered text is settled**, and so is the text of what it renders to. -/
theorem Pattern.settled_of_render {s : Setting} (hs : s.BraceFree) {text : String} (htext : DefaultsBraceFree text)
    {j k : Journal} {r : Value} (h : ((ofText text).render s).outcome j = (.ok r, k)) :
    r.Settled ∧ Placeholder.scan r.text = [] := by
  rcases splice_ok h with ⟨p, hp, hr⟩ | ⟨values, hlen, hvalues, rfl⟩
  · obtain ⟨hb, hk⟩ := hr.braceFree hs (htext p hp)
    exact ⟨.of_braceFree hb hk, Placeholder.scan_of_quiet ((Value.inert_text hb).quiet [])⟩
  · have hinert : ∀ t ∈ values.map (·.text.toList), Placeholder.Inert t := by
      intro t ht
      obtain ⟨v, hv, rfl⟩ := List.mem_map.1 ht
      obtain ⟨p, hp, hr⟩ := hvalues v hv
      exact Value.inert_text (hr.braceFree hs (htext p hp)).1
    have hscan := Placeholder.scan_replaceAll text _ hinert (by rw [List.length_map]; exact hlen)
    exact ⟨.string hscan, hscan⟩

namespace Node

theorem renderItems_ok {s : Setting} : ∀ {items : List Value} {j k : Journal} {vs : List Value},
    (renderItems s (ofItems items)).outcome j = (.ok vs, k) →
      ∀ v ∈ vs, ∃ w ∈ items, ∃ i l, ((ofValue w).render s).outcome i = (.ok v, l)
  | [], j, k, vs, h => by cases h; exact fun v hv => (List.not_mem_nil hv).elim
  | w :: rest, j, k, vs, h => by
    rw [ofItems, renderItems] at h
    obtain ⟨v, i, hv, h⟩ := Rendering.exists_of_outcome_bind h
    obtain ⟨us, l, hus, h⟩ := Rendering.exists_of_outcome_bind h
    cases h
    refine List.forall_mem_cons.2 ⟨⟨w, List.mem_cons_self, j, i, hv⟩, fun u hu => ?_⟩
    obtain ⟨x, hx, hr⟩ := renderItems_ok hus u hu
    exact ⟨x, List.mem_cons_of_mem _ hx, hr⟩

theorem settled_of_render {s : Setting} (hs : s.BraceFree) {t : Value} :
    (∀ text ∈ t.texts, Pattern.DefaultsBraceFree text) → ∀ {j k : Journal} {r : Value},
      ((ofValue t).render s).outcome j = (.ok r, k) → r.Settled := by
  induction t using Value.inductionOn with
  | null | bool _ | number _ | date _ | function _ =>
    intro _ j k r h
    cases h
    exact ⟨fun t ht => (List.not_mem_nil ht).elim, Value.keysDistinct_of_parts rfl rfl⟩
  | string text =>
    intro htexts j k r h
    exact (Pattern.settled_of_render hs (htexts text (Value.mem_texts_string text)) h).1
  | array items ih =>
    intro htexts j k r h
    obtain ⟨vs, i, hvs, h⟩ := Rendering.exists_of_outcome_bind h
    cases h
    refine .array fun v hv => ?_
    obtain ⟨w, hw, i, l, hr⟩ := renderItems_ok hvs v hv
    exact ih w hw (fun t ht => htexts t (Value.texts_subset (Value.mem_parts_array hw w.mem_parts_self) ht)) hr
  | object es ih =>
    intro htexts j k r h
    obtain ⟨pairs, i, hpairs, h⟩ := Rendering.exists_of_outcome_bind h
    cases h
    refine .object (Entries.nodup_keys_ofList pairs) fun e he => ?_
    have hrenders := outcome_renderEntries_iff.1 hpairs
    obtain ⟨f, hf, ⟨key, i, l, hkey, hek⟩, i', l', hr⟩ := hrenders.exists_of_mem e (Entries.mem_ofList he)
    refine ⟨?_, ih f hf (fun t ht => htexts t (Value.texts_subset (Value.mem_parts_object hf f.2.mem_parts_self) ht)) hr⟩
    rw [hek]
    exact (Pattern.settled_of_render hs (htexts f.1 (Value.mem_texts_key hf)) hkey).2

end Node

/-- **No placeholder survives a rendering without opening braces**: if defaults are texts, and neither the context, nor
what its functions answer, nor a default of the template has an opening brace, then no text of the result has a
placeholder.  Compiled with any options, the result asks for nothing and renders to itself against every context. -/
theorem Template.render_settles (template : Value) (o : Options) (host : Host) (context : Value) {r : Value}
    {j k : Journal} (hoff : o.evalDefaults = false) (hcontext : context.BraceFree ∧ context.KeysDistinct)
    (hanswers : ∀ f ∈ context.functions, ∀ calls v, host calls f = .ok v → v.BraceFree ∧ v.KeysDistinct)
    (hdefaults : ∀ text ∈ template.texts, ∀ p ∈ Placeholder.scan text, ∀ raw,
      p.parameter.default? = some raw → '{' ∉ raw.toList)
    (hrender : ((compile o template).render host context).outcome j = (.ok r, k)) :
    (∀ text ∈ r.texts, Placeholder.scan text = []) ∧
      ∀ o' : Options, (compile o' r).parameters = [] ∧
        ∀ host' context' i, ((compile o' r).render host' context').outcome i = (.ok r, i) := by
  have hs : Setting.BraceFree ⟨host, o.active?, context⟩ :=
    ⟨by simp [Options.active?, hoff], hcontext, hanswers⟩
  have hr : r.Settled := Node.settled_of_render hs hdefaults hrender
  refine ⟨hr.scan_eq_nil, fun o' => ⟨?_, fun host' context' i => ?_⟩⟩
  · rw [parameters, compile, Node.parameters_ofValue_of_settled hr]
    rfl
  · exact Node.outcome_render_of_settled _ hr i

/-- A start that fails before a placeholder, a function that answers nothing, and a key that is written as JSON. -/
theorem Template.render_settles_braces : Placeholder.scan "\x7b\x7b#-" = [] ∧
    (compile .default (.object [("\x7b\"x\":null\x7d", .string "\x7b\x7b#-")])).parameters = [] := by
  have h := @render_settles (.object [("\x7b\x7bk\x7d\x7d", .string "\x7b\x7b#\x7b\x7ba\x7d\x7d-")]) .default
    (fun _ _ => .ok (.string "")) (.object [("k", .object [("x", .null)]), ("a", .function ⟨0⟩)])
    (.object [("\x7b\"x\":null\x7d", .string "\x7b\x7b#-")]) {} ⟨[⟨0⟩], []⟩ rfl (by decide)
    (fun _ _ _ v hv => by cases hv; decide) (by decide +kernel) (by cbv)
  exact ⟨h.1 "\x7b\x7b#-" (by decide), (h.2 .default).1⟩

end Stencil
