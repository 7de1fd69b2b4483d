import Stencil.Path.Lookup
import Stencil.Proofs.Entries
/-!
# The parts of a value

The parts of a value are the value itself and all values in it, at any depth.  What is said of every text, every key or
every function in a value is said of its parts; and whatever a path leads to is a part (`mem_parts_of_get?`).
-/
namespace Stencil

namespace Value

@[elab_as_elim] theorem inductionOn {motive : Value → Prop} (v : Value)
    (null : motive .null) (bool : ∀ b, motive (.bool b)) (number : ∀ n, motive (.number n))
    (string : ∀ s, motive (.string s)) (date : ∀ t, motive (.date t)) (function : ∀ f, motive (.function f))
    (array : ∀ items, (∀ w ∈ items, motive w) → motive (.array items))
    (object : ∀ es, (∀ e ∈ es, motive e.2) → motive (.object es)) : motive v := by
  refine Value.rec (motive_1 := motive) (motive_2 := fun items => ∀ w ∈ items, motive w)
    (motive_3 := fun es => ∀ e ∈ es, motive e.2) (motive_4 := fun e => motive e.2)
    null bool number string array object date function ?_ ?_ ?_ ?_ ?_ v
  · exact fun _ h => nomatch h
  · exact fun _ _ hw hrest => List.forall_mem_cons.2 ⟨hw, hrest⟩
  · exact fun _ h => nomatch h
  · exact fun _ _ he hrest => List.forall_mem_cons.2 ⟨he, hrest⟩
  · exact fun _ _ hw => hw

mutual

def parts : Value → List Value
  | v@(.array items) => v :: itemParts items
  | v@(.object es) => v :: entryParts es
  | v => [v]

def itemParts : List Value → List Value
  | [] => []
  | v :: rest => v.parts ++ itemParts rest

def entryParts : List (String × Value) → List Value
  | [] => []
  | (_, v) :: rest => v.parts ++ entryParts rest

end

theorem parts_array (items : List Value) : (array items).parts = array items :: items.flatMap parts := by
  have h : ∀ items, itemParts items = items.flatMap parts := fun items => by
    induction items with
    | nil => rfl
    | cons v rest ih => rw [itemParts, ih, List.flatMap_cons]
  rw [parts, h]

theorem parts_object (es : List (String × Value)) : (object es).parts = object es :: es.flatMap (·.2.parts) := by
  have h : ∀ es, entryParts es = es.flatMap (·.2.parts) := fun es => by
    induction es with
    | nil => rfl
    | cons e rest ih => rw [entryParts, ih, List.flatMap_cons]
  rw [parts, h]

theorem forall_mem_parts_array {P : Value → Prop} {items : List Value} :
    (∀ w ∈ (array items).parts, P w) ↔ P (array items) ∧ ∀ v ∈ items, ∀ w ∈ v.parts, P w := by
  rw [parts_array, List.forall_mem_cons, List.forall_mem_flatMap]

theorem forall_mem_parts_object {P : Value → Prop} {es : List (String × Value)} :
    (∀ w ∈ (object es).parts, P w) ↔ P (object es) ∧ ∀ e ∈ es, ∀ w ∈ e.2.parts, P w := by
  rw [parts_object, List.forall_mem_cons, List.forall_mem_flatMap]

theorem mem_parts_self (v : Value) : v ∈ v.parts := by
  cases v <;> exact List.mem_cons_self

theorem mem_parts_array {w v : Value} {items : List Value} (hv : v ∈ items) (hw : w ∈ v.parts) :
    w ∈ (array items).parts := by
  rw [parts_array]
  exact List.mem_cons_of_mem _ (List.mem_flatMap.2 ⟨v, hv, hw⟩)

theorem mem_parts_object {w : Value} {e : String × Value} {es : List (String × Value)} (he : e ∈ es)
    (hw : w ∈ e.2.parts) : w ∈ (object es).parts := by
  rw [parts_object]
  exact List.mem_cons_of_mem _ (List.mem_flatMap.2 ⟨e, he, hw⟩)

theorem parts_subset {v w : Value} : w ∈ v.parts → w.parts ⊆ v.parts := by
  induction v using inductionOn with
  | array items ih =>
    intro hw
    rw [parts_array] at hw
    rcases List.mem_cons.1 hw with rfl | hw
    · exact List.Subset.refl _
    · obtain ⟨v, hv, hw⟩ := List.mem_flatMap.1 hw
      exact fun x hx => mem_parts_array hv (ih v hv hw hx)
  | object es ih =>
    intro hw
    rw [parts_object] at hw
    rcases List.mem_cons.1 hw with rfl | hw
    · exact List.Subset.refl _
    · obtain ⟨e, he, hw⟩ := List.mem_flatMap.1 hw
      exact fun x hx => mem_parts_object he (ih e he hw hx)
  | null | bool _ | number _ | string _ | date _ | function _ =>
    intro hw
    rw [List.mem_singleton.1 hw]
    exact List.Subset.refl _

/-! ## Lookups lead to parts -/

theorem mem_parts_of_child? {v w : Value} {segment : String} (h : v.child? segment = some w) : w ∈ v.parts := by
  unfold child? at h
  split at h
  · exact mem_parts_object (Entries.mem_of_get? h) (mem_parts_self w)
  · obtain ⟨i, -, hi⟩ := Option.bind_eq_some_iff.1 h
    exact mem_parts_array (List.mem_of_getElem? hi) (mem_parts_self w)
  · cases h

theorem mem_parts_of_follow? : ∀ {segments : List String} {v w : Value}, v.follow? segments = some w → w ∈ v.parts
  | [], v, w, h => by cases h; exact mem_parts_self v
  | s :: rest, v, w, h => by
    obtain ⟨u, hu, hw⟩ := Option.bind_eq_some_iff.1 h
    exact parts_subset (mem_parts_of_child? hu) (mem_parts_of_follow? hw)

theorem mem_parts_of_descend? {segments : List String} {v w : Value} (h : v.descend? segments = some w) :
    w ∈ v.parts := by
  unfold descend? at h
  split at h
  · cases h
  · exact mem_parts_of_follow? h

theorem mem_parts_of_get? {v w : Value} {path : String} (h : v.get? path = some w) : w ∈ v.parts := by
  unfold get? at h
  split at h
  · cases h
  · rcases Option.or_eq_some_iff.1 h with h | ⟨-, h⟩
    · obtain ⟨es, hes, h⟩ := Option.bind_eq_some_iff.1 h
      cases v <;> cases hes
      exact mem_parts_object (Entries.mem_of_get? h) (mem_parts_self w)
    · exact mem_parts_of_descend? h

/-! ## Texts, functions and keys in a value -/

def ownKeys : Value → List String
  | .object es => Entries.keys es
  | _ => []

/-- The texts of a value that are not in its parts: a string itself, or the keys of an object. -/
def ownTexts : Value → List String
  | .string s => [s]
  | v => v.ownKeys

def function? : Value → Option FunctionId
  | .function f => some f
  | _ => none

def texts (v : Value) : List String := v.parts.flatMap ownTexts

def functions (v : Value) : List FunctionId := v.parts.filterMap function?

/-- No object in a value, at any depth, has two entries of one key.  Objects are maps, so that all of a program are like
this; only a list of pairs could have a key twice. -/
def KeysDistinct (v : Value) : Prop := ∀ w ∈ v.parts, w.ownKeys.Nodup

instance (v : Value) : Decidable v.KeysDistinct := inferInstanceAs (Decidable (∀ w ∈ v.parts, w.ownKeys.Nodup))

theorem texts_array (items : List Value) : (array items).texts = items.flatMap texts := by
  rw [texts, parts_array, List.flatMap_cons, List.flatMap_assoc]
  rfl

theorem texts_object (es : List (String × Value)) :
    (object es).texts = Entries.keys es ++ es.flatMap (·.2.texts) := by
  rw [texts, parts_object, List.flatMap_cons, List.flatMap_assoc]
  rfl

theorem mem_texts_string (s : String) : s ∈ (string s).texts := List.mem_flatMap.2 ⟨_, mem_parts_self _, List.mem_cons_self⟩

theorem mem_texts_key {e : String × Value} {es : List (String × Value)} (he : e ∈ es) : e.1 ∈ (object es).texts :=
  List.mem_flatMap.2 ⟨_, mem_parts_self _, List.mem_map.2 ⟨e, he, rfl⟩⟩

theorem keysDistinct_of_parts {v : Value} (hp : v.parts = [v]) (hk : v.ownKeys = []) : v.KeysDistinct := fun w hw => by
  rw [hp, List.mem_singleton] at hw
  rw [hw, hk]
  exact List.nodup_nil

theorem texts_subset {v w : Value} (h : w ∈ v.parts) : w.texts ⊆ v.texts := fun t ht => by
  obtain ⟨u, hu, ht⟩ := List.mem_flatMap.1 ht
  exact List.mem_flatMap.2 ⟨u, parts_subset h hu, ht⟩

theorem KeysDistinct.of_mem {v w : Value} (hv : v.KeysDistinct) (h : w ∈ v.parts) : w.KeysDistinct :=
  fun u hu => hv u (parts_subset h hu)

theorem mem_functions_of_mem_parts {v : Value} {f : FunctionId} (h : function f ∈ v.parts) : f ∈ v.functions :=
  List.mem_filterMap.2 ⟨_, h, rfl⟩

end Value
end Stencil
