import Stencil.Proofs.FirstWins
import Stencil.Proofs.Value.Parts
import Stencil.Template.Basic
/-!
# Occurrences of parameters

What the placeholders of a compiled value ask for is what the placeholders in the texts and keys of the value ask for; and
of all that have one key a template asks for one.  `Value.occurrences` lists what they ask for without compiling the value.
-/
namespace Stencil

namespace Value

mutual

/-- What all placeholders in a value ask for: text by text from left to right, element by element in an array, and entry by
entry in an object, where those in the stored value come before those in the key. -/
def occurrences : Value → List Parameter
  | .string s => (Placeholder.scan s).map (·.parameter)
  | .array items => itemOccurrences items
  | .object es => entryOccurrences es
  | .null | .bool _ | .number _ | .date _ | .function _ => []

def itemOccurrences : List Value → List Parameter
  | [] => []
  | v :: rest => v.occurrences ++ itemOccurrences rest

def entryOccurrences : List (String × Value) → List Parameter
  | [] => []
  | (key, v) :: rest => v.occurrences ++ (Placeholder.scan key).map (·.parameter) ++ entryOccurrences rest

end

theorem occurrences_array (items : List Value) : (array items).occurrences = items.flatMap occurrences := by
  have h : ∀ items, itemOccurrences items = items.flatMap occurrences := fun items => by
    induction items with
    | nil => rfl
    | cons v rest ih => rw [itemOccurrences, ih, List.flatMap_cons]
  rw [occurrences, h]

theorem occurrences_object (es : List (String × Value)) :
    (object es).occurrences = es.flatMap fun e => e.2.occurrences ++ (string e.1).occurrences := by
  have h : ∀ es, entryOccurrences es = es.flatMap fun e => e.2.occurrences ++ (string e.1).occurrences := fun es => by
    induction es with
    | nil => rfl
    | cons e rest ih => rw [entryOccurrences, ih, List.flatMap_cons, occurrences]
  rw [occurrences, h]

theorem mem_occurrences_string {p : Parameter} {text : String} :
    p ∈ (string text).occurrences ↔ ∃ q ∈ Placeholder.scan text, q.parameter = p := List.mem_map

theorem mem_occurrences {p : Parameter} {v : Value} :
    p ∈ v.occurrences ↔ ∃ text ∈ v.texts, ∃ q ∈ Placeholder.scan text, q.parameter = p := by
  induction v using inductionOn with
  | null | bool _ | number _ | date _ | function _ => simp [occurrences, texts, parts, ownTexts, ownKeys]
  | string text => simp [mem_occurrences_string, texts, parts, ownTexts]
  | array items ih =>
    simp only [occurrences_array, texts_array, List.mem_flatMap]
    constructor
    · rintro ⟨v, hv, hp⟩
      obtain ⟨text, ht, hq⟩ := (ih v hv).1 hp
      exact ⟨text, ⟨v, hv, ht⟩, hq⟩
    · rintro ⟨text, ⟨v, hv, ht⟩, hq⟩
      exact ⟨v, hv, (ih v hv).2 ⟨text, ht, hq⟩⟩
  | object es ih =>
    simp only [occurrences_object, texts_object, List.mem_flatMap, List.mem_append, mem_occurrences_string]
    constructor
    · rintro ⟨e, he, hp | hq⟩
      · obtain ⟨text, ht, hq⟩ := (ih e he).1 hp
        exact ⟨text, .inr ⟨e, he, ht⟩, hq⟩
      · exact ⟨e.1, .inl (List.mem_map_of_mem he), hq⟩
    · rintro ⟨text, hk | ⟨e, he, ht⟩, hq⟩
      · obtain ⟨e, he, rfl⟩ := List.mem_map.1 hk
        exact ⟨e, he, .inr hq⟩
      · exact ⟨e, he, .inl ((ih e he).2 ⟨text, ht, hq⟩)⟩

theorem occurrences_eq_nil {v : Value} : v.occurrences = [] ↔ ∀ text ∈ v.texts, Placeholder.scan text = [] := by
  simp only [List.eq_nil_iff_forall_not_mem, mem_occurrences]
  constructor
  · exact fun h text ht q hq => h q.parameter ⟨text, ht, q, hq, rfl⟩
  · rintro h p ⟨text, ht, q, hq, -⟩
    exact h text ht q hq

end Value

namespace Node

theorem itemParameters_ofItems (items : List Value) :
    itemParameters (ofItems items) = items.flatMap fun v => (ofValue v).parameters := by
  induction items with
  | nil => rfl
  | cons v rest ih => rw [ofItems, itemParameters, ih, List.flatMap_cons]

theorem entryParameters_ofEntries (es : List (String × Value)) :
    entryParameters (ofEntries es) =
      es.flatMap fun e => (ofValue e.2).parameters ++ (Pattern.ofText e.1).parameters := by
  induction es with
  | nil => rfl
  | cons e rest ih => rw [ofEntries, entryParameters, ih, List.flatMap_cons]

/-- **A compiled value asks for what the placeholders in the value ask for**, in the same order. -/
theorem parameters_ofValue (v : Value) : (ofValue v).parameters = v.occurrences := by
  induction v using Value.inductionOn with
  | null | bool _ | number _ | string _ | date _ | function _ => rfl
  | array items ih =>
    rw [ofValue, parameters, itemParameters_ofItems, Value.occurrences_array, List.flatMap_def, List.flatMap_def,
      List.map_congr_left ih]
  | object es ih =>
    rw [ofValue, parameters, entryParameters_ofEntries, Value.occurrences_object, List.flatMap_def, List.flatMap_def]
    exact congrArg List.flatten (List.map_congr_left fun e he => congrArg (· ++ _) (ih e he))

theorem exists_of_mem_parameters {p : Parameter} {v : Value} (h : p ∈ (ofValue v).parameters) :
    ∃ text ∈ v.texts, ∃ q ∈ Placeholder.scan text, q.parameter = p := by
  rw [parameters_ofValue] at h
  exact Value.mem_occurrences.1 h

end Node

/-- **No key is lost** when the first parameter of each key is taken. -/
theorem Template.exists_mem_parameters {t : Template} {p : Parameter} (h : p ∈ t.root.parameters) :
    ∃ q ∈ t.parameters, q.key = p.key :=
  exists_mem_firstWins h

end Stencil
