import Mathlib
import Stencil.Proofs.Placeholder.Intact
import Stencil.Proofs.Rendering.Resolve
/-!
# Where values are spliced in

Rendering a text replaces the first place that reads like a placeholder, without regard to where the placeholder stood.
`render_eq_filled` says that it is always the placeholder's own place: the text comes out with the values in the spans of
their placeholders, if only the last value may bring opening braces with it.

Other values may bring a placeholder with them that is replaced in the place of the one behind it.  Even so every placeholder
is replaced once, and what stands to the right of it is kept (`render_keeps_right`).
-/
namespace Stencil.Pattern

/-- **Values go where their placeholders stand.**  If the placeholders of a text resolve to values without parts, and no
value but the last has an opening brace in its text, the text renders to itself with the values' texts in place of the
spans of the placeholders. -/
theorem render_eq_filled (source : String) (s : Setting) {values : List Value} {j k : Journal}
    (hsingle : (Pattern.ofText source).isSingle = false)
    (hresolved :
      Rendering.outcome ((Placeholder.scan source).mapM fun p => p.parameter.resolve s) j = (.ok values, k))
    (hplain : ∀ v ∈ values, v.isComposite = false)
    (hbraces : ∀ v ∈ values.dropLast, '{' ∉ v.text.toList) :
    ((Pattern.ofText source).render s).outcome j =
      (.ok (.string (String.ofList (Text.filled source.toList ((Placeholder.scan source).map Placeholder.span)
        (values.map (·.text.toList))))), k) := by
  have hinert : ∀ t ∈ (values.map (·.text.toList)).dropLast, Placeholder.Inert t := by
    intro t ht
    rw [← List.map_dropLast] at ht
    obtain ⟨v, hv, rfl⟩ := List.mem_map.1 ht
    exact Placeholder.inert_of_not_mem (hbraces v hv)
  rw [render, hsingle, ← Placeholder.replaceAll_eq_filled source _ hinert]
  exact outcome_splice _ hresolved hplain

/-- A start that fails, a placeholder that comes twice and is empty, and a last value of opening braces. -/
theorem render_eq_filled_braces :
    ((Pattern.ofText "\x7b\x7b#\x7d\x7b\x7ba\x7d\x7d\x7b\x7ba\x7d\x7d-\x7b\x7bb\x7d\x7d").render
      ⟨fun _ _ => .ok .null, none, .object [("a", .string ""), ("b", .string "\x7b\x7b")]⟩).outcome {} =
        (.ok (.string "\x7b\x7b#\x7d-\x7b\x7b"), {}) :=
  (@render_eq_filled _ _ [.string "", .string "", .string "\x7b\x7b"] {} {} (by cbv) (by cbv)
    (by simp [Value.isComposite]) (by simp [Value.text])).trans (by cbv)

def made (source : String) (values : List Value) (before : List Placeholder) : List Char :=
  Placeholder.replaceAll source.toList before (values.map (·.text.toList))

/-- **Values do no harm to the right.**  The placeholders of a text resolve to values without parts, whatever their texts
are.  When rendering comes to a placeholder, the text made so far still ends as the source does from the placeholder on; so
it has the text of the placeholder, and the first place that has it is given the text of the value, once.  What comes out
begins as the source does up to the first placeholder, ends as it does behind the last, and has the length of the source
with the placeholders taken out and the values put in. -/
theorem render_keeps_right (source : String) (s : Setting) {values : List Value} {j k : Journal}
    (hsingle : (Pattern.ofText source).isSingle = false)
    (hresolved :
      Rendering.outcome ((Placeholder.scan source).mapM fun p => p.parameter.resolve s) j = (.ok values, k))
    (hplain : ∀ v ∈ values, v.isComposite = false) :
    (∀ before p after, Placeholder.scan source = before ++ p :: after →
      (∃ i, ((Pattern.ofText source).render s).outcome j =
        (splice s false (made source values before) (p :: after)).outcome i) ∧
      Text.dropBytes p.start source.toList <:+ made source values before ∧
      p.text.toList <:+: made source values before ∧
      ∃ v, values[before.length]? = some v ∧
        Text.Puts p.text.toList v.text.toList (made source values before) (made source values (before ++ [p]))) ∧
    ∃ out, ((Pattern.ofText source).render s).outcome j = (.ok (.string (String.ofList out)), k) ∧
      (∀ p, (Placeholder.scan source).head? = some p → Text.takeBytes p.start source.toList <+: out) ∧
      (∀ p, (Placeholder.scan source).getLast? = some p → Text.dropBytes p.stop source.toList <:+ out) ∧
      Text.byteLength out + ((Placeholder.scan source).map fun p => Text.byteLength p.text.toList).sum =
        Text.byteLength source.toList + (values.map fun v => Text.byteLength v.text.toList).sum := by
  have hlen : values.length = (Placeholder.scan source).length := Rendering.length_of_outcome_mapM hresolved
  have htexts : (values.map (·.text.toList)).length = (Placeholder.scan source).length := by rw [List.length_map, hlen]
  have hrender : ((Pattern.ofText source).render s).outcome j =
      (splice s false source.toList (Placeholder.scan source)).outcome j := by rw [render, hsingle]; rfl
  constructor
  · intro before p after hscan
    have hshort : before.length < (values.map (·.text.toList)).length := by
      rw [htexts, hscan, List.length_append, List.length_cons]
      omega
    obtain ⟨htext, y, hy⟩ :=
      Placeholder.replaceAll_eq_append [] [] source.toList (values.map (·.text.toList)) hscan (Nat.le_of_lt hshort)
    obtain ⟨t, l, r, ht, hfound, -, hputs, -⟩ := Placeholder.exists_replaced hscan hshort
    obtain ⟨v, hv, rfl⟩ : ∃ v, values[before.length]? = some v ∧ v.text.toList = t := by
      rw [List.getElem?_map] at ht
      exact Option.map_eq_some_iff.1 ht
    refine ⟨?_, ⟨y, hy.symm⟩, ⟨l, r, by rw [made, hfound, List.append_assoc]⟩, v, hv, hputs⟩
    rw [hscan] at hresolved
    obtain ⟨i, hi, -⟩ := exists_outcome_splice source.toList hresolved hplain
    exact ⟨i, by rw [hrender, hscan, hi, made]⟩
  · refine ⟨made source values (Placeholder.scan source), ?_, ?_, ?_, ?_⟩
    · rw [hrender]
      exact outcome_splice source.toList hresolved hplain
    · exact fun p hp => Placeholder.takeBytes_prefix_replaceAll hp (List.append_nil _).symm _
    · exact fun p hp => Placeholder.dropBytes_suffix_replaceAll htexts hp
    · have hbytes := Placeholder.byteLength_replaceAll htexts (List.append_nil (Placeholder.scan source)).symm
      rw [← htexts, List.take_length, List.map_map] at hbytes
      exact hbytes

/-- A value that brings the text of the placeholder behind it, and is replaced in its place. -/
theorem render_keeps_right_injected : ∃ out,
    ((Pattern.ofText "x\x7b\x7ba\x7d\x7d-\x7b\x7bb\x7d\x7dy").render
      ⟨fun _ _ => .ok .null, none, .object [("a", .string "\x7b\x7bb\x7d\x7d"), ("b", .string "")]⟩).outcome {} =
        (.ok (.string (String.ofList out)), {}) ∧
    ['x'] <+: out ∧ ['y'] <:+ out ∧ Text.byteLength out + 10 = 13 + 5 := by
  obtain ⟨-, out, hout, hleft, hright, hbytes⟩ :=
    @render_keeps_right "x\x7b\x7ba\x7d\x7d-\x7b\x7bb\x7d\x7dy"
      ⟨fun _ _ => .ok .null, none, .object [("a", .string "\x7b\x7bb\x7d\x7d"), ("b", .string "")]⟩
      [.string "\x7b\x7bb\x7d\x7d", .string ""] {} {} (by cbv) (by cbv) (by simp [Value.isComposite])
  have hscan : Placeholder.scan "x\x7b\x7ba\x7d\x7d-\x7b\x7bb\x7d\x7dy" =
      [⟨"\x7b\x7ba\x7d\x7d", 1, 6, ⟨"a", none⟩⟩, ⟨"\x7b\x7bb\x7d\x7d", 7, 12, ⟨"b", none⟩⟩] := by cbv
  rw [hscan] at hleft hright hbytes
  exact ⟨out, hout, hleft _ rfl, hright _ rfl, hbytes⟩

end Stencil.Pattern
