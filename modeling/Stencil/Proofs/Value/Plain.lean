import Stencil.Json.Basic
import Stencil.Proofs.Value.Parts
/-!
# Plain values

JSON data turned into a value and back are what they were (`toJson_ofJson`).  The other way round a value keeps everything
but the instants and functions in it: it is what it was just if it is *plain*, having none at any depth
(`ofJson_toJson_iff`).  A value that has been through JSON is plain, so that going through it again changes nothing.

Objects keep the order of their entries.  Collecting the converted entries one after the other gives the same as converting
them where they stand, as long as no key comes twice (`toJson_object`, `ofJson_object`).
-/
namespace Stencil.Value

def isForeign : Value → Bool
  | .date _ | .function _ => true
  | _ => false

/-- **No instant and no function is in the value**, at any depth. -/
def Plain (v : Value) : Prop := ∀ w ∈ v.parts, w.isForeign = false

instance (v : Value) : Decidable v.Plain := inferInstanceAs (Decidable (∀ w ∈ v.parts, w.isForeign = false))

theorem plain_of_parts {v : Value} (hp : v.parts = [v]) (hv : v.isForeign = false) : v.Plain := fun w hw => by
  rw [hp, List.mem_singleton] at hw
  rwa [hw]

theorem not_plain {v : Value} (h : v.isForeign = true) : ¬ v.Plain := fun hv => by
  have hself : v.isForeign = false := hv v v.mem_parts_self
  rw [h] at hself
  cases hself

theorem plain_array {items : List Value} : (array items).Plain ↔ ∀ v ∈ items, v.Plain :=
  forall_mem_parts_array.trans (and_iff_right rfl)

theorem plain_object {es : List (String × Value)} : (object es).Plain ↔ ∀ e ∈ es, e.2.Plain :=
  forall_mem_parts_object.trans (and_iff_right rfl)

/-! ## Elements and entries -/

theorem itemsToJson_eq_map : ∀ items, itemsToJson items = items.map toJson
  | [] => rfl
  | v :: rest => by rw [itemsToJson, itemsToJson_eq_map rest, List.map_cons]

theorem itemsOfJson_eq_map : ∀ items, itemsOfJson items = items.map ofJson
  | [] => rfl
  | j :: rest => by rw [itemsOfJson, itemsOfJson_eq_map rest, List.map_cons]

theorem entriesToJson_eq_map : ∀ es, entriesToJson es = es.map fun e => (e.1, e.2.toJson)
  | [] => rfl
  | (k, v) :: rest => by rw [entriesToJson, entriesToJson_eq_map rest, List.map_cons]

theorem entriesOfJson_eq_map : ∀ es, entriesOfJson es = es.map fun e => (e.1, ofJson e.2)
  | [] => rfl
  | (k, j) :: rest => by rw [entriesOfJson, entriesOfJson_eq_map rest, List.map_cons]

theorem keys_map {α β : Type} (es : Entries α) (f : α → β) : Entries.keys (es.map fun e => (e.1, f e.2)) = es.keys :=
  List.map_map

theorem toJson_object {es : Entries Value} (h : es.keys.Nodup) :
    (object es).toJson = .object (Entries.ofList (es.map fun e => (e.1, e.2.toJson))) := by
  rw [toJson, entriesToJson_eq_map, Entries.ofList_of_nodup (by rwa [keys_map])]

theorem ofJson_object {es : Entries Json} (h : es.keys.Nodup) :
    ofJson (.object es) = .object (Entries.ofList (es.map fun e => (e.1, ofJson e.2))) := by
  rw [ofJson, entriesOfJson_eq_map, Entries.ofList_of_nodup (by rwa [keys_map])]

/-! ## There and back -/

mutual

theorem toJson_ofJson : ∀ j : Json, (ofJson j).toJson = j
  | .null | .bool _ | .number _ | .string _ => rfl
  | .array items => congrArg Json.array (itemsToJson_itemsOfJson items)
  | .object es => congrArg Json.object (entriesToJson_entriesOfJson es)

theorem itemsToJson_itemsOfJson : ∀ items : List Json, itemsToJson (itemsOfJson items) = items
  | [] => rfl
  | j :: rest => by rw [itemsOfJson, itemsToJson, toJson_ofJson j, itemsToJson_itemsOfJson rest]

theorem entriesToJson_entriesOfJson : ∀ es : List (String × Json), entriesToJson (entriesOfJson es) = es
  | [] => rfl
  | (k, j) :: rest => by rw [entriesOfJson, entriesToJson, toJson_ofJson j, entriesToJson_entriesOfJson rest]

end

theorem map_eq_self_iff {α : Type} {f : α → α} {l : List α} : l.map f = l ↔ ∀ x ∈ l, f x = x := by
  have h : l.map f = l.map id ↔ ∀ x ∈ l, f x = id x := List.map_inj_left
  rwa [List.map_id] at h

theorem ofJson_toJson_iff (v : Value) : ofJson v.toJson = v ↔ v.Plain := by
  induction v using inductionOn with
  | null | bool _ | number _ | string _ => exact ⟨fun _ => plain_of_parts rfl rfl, fun _ => rfl⟩
  | date _ | function _ => exact ⟨fun h => (nomatch h), fun h => (not_plain rfl h).elim⟩
  | array items ih =>
    rw [toJson, ofJson, itemsToJson_eq_map, itemsOfJson_eq_map, List.map_map, array.injEq, map_eq_self_iff, plain_array]
    exact forall₂_congr ih
  | object es ih =>
    rw [toJson, ofJson, entriesToJson_eq_map, entriesOfJson_eq_map, List.map_map, object.injEq, map_eq_self_iff,
      plain_object]
    refine forall₂_congr fun e he => ?_
    -- the key stays, so that only the value of an entry can be another
    rw [← ih e he]
    exact ⟨congrArg Prod.snd, fun h => Prod.ext rfl h⟩

theorem plain_ofJson (j : Json) : (ofJson j).Plain := by
  rw [← ofJson_toJson_iff, toJson_ofJson]

/-- **Turning values into JSON and back loses exactly their instants and functions**, and turning JSON data into values and
back loses nothing, the order of entries included: objects are what collecting their converted entries gives. -/
theorem json_conversions :
    (∀ j : Json, (ofJson j).toJson = j) ∧
    (∀ v : Value, ofJson v.toJson = v ↔ v.Plain) ∧
    (∀ v : Value, ofJson (ofJson v.toJson).toJson = ofJson v.toJson) ∧
    (∀ es : Entries Value, es.keys.Nodup →
      (object es).toJson = .object (Entries.ofList (es.map fun e => (e.1, e.2.toJson)))) ∧
    (∀ es : Entries Json, es.keys.Nodup →
      ofJson (.object es) = .object (Entries.ofList (es.map fun e => (e.1, ofJson e.2)))) := by
  refine ⟨toJson_ofJson, ofJson_toJson_iff, fun v => ?_, fun _ => toJson_object, fun _ => ofJson_object⟩
  rw [toJson_ofJson]

/-- An instant and a function inside an object whose keys are in no order, and JSON data with its keys the other way. -/
theorem json_conversions_unordered :
    let es : Entries Value := [("z", .ofInt 1 (by decide)), ("a", .array [.date ⟨1704164645, 0⟩, .object [("m", .function ⟨7⟩)]])]
    let js : Entries Json := [("a", .array [.null, .object [("m", .bool true)]]), ("z", .string "1")]
    es.keys.Nodup ∧ js.keys.Nodup ∧ ¬ (object es).Plain ∧ ofJson (object es).toJson ≠ object es ∧
      (object es).toJson = .object (Entries.ofList (es.map fun e => (e.1, e.2.toJson))) ∧
      ofJson (.object js) = .object (Entries.ofList (js.map fun e => (e.1, ofJson e.2))) ∧
      (ofJson (.object js)).toJson = .object js := by
  intro es js
  have hes : es.keys.Nodup := by decide
  have hjs : js.keys.Nodup := by decide
  have hplain : ¬ (object es).Plain := by decide +kernel
  obtain ⟨hback, hiff, -, hobject, hjson⟩ := json_conversions
  exact ⟨hes, hjs, hplain, fun h => hplain ((hiff _).1 h), hobject es hes, hjson js hjs, hback _⟩

end Stencil.Value
