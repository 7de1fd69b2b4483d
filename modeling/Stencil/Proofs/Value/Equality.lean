import Mathlib.Data.List.Forall2
import Mathlib.Data.List.Perm.Subperm
import Stencil.Proofs.Value.Parts
import Stencil.Value.Equality
/-!
# Equality of values is an equivalence

Two objects of distinct keys are the same just if they have the same under every key (`same_object_iff`).  This is the
form in which equality of objects does not prefer either side, and from which it follows that values are the same as
themselves, both ways round, and across a third.  That the test of one side is enough needs counting: equally many keys
that are all among the others are all of the others.

Lookups respect equality: what they lead to in values that are the same is the same, or they lead nowhere in both.
-/
namespace Stencil

namespace Number

theorem same_refl (n : Number) : n.same n = true := by
  cases n with
  | int n fits => exact beq_self_eq_true n
  | float x finite => simp [same]

theorem same_symm {m n : Number} (h : m.same n = true) : n.same m = true := by
  cases m <;> cases n <;> simp only [same, beq_iff_eq, Bool.or_eq_true, Bool.and_eq_true, decide_eq_true_eq] at h ⊢
  · exact h.symm
  · cases h
  · cases h
  · exact h.imp Eq.symm And.symm

theorem same_trans {l m n : Number} (h : l.same m = true) (h' : m.same n = true) : l.same n = true := by
  cases l <;> cases m <;> cases n <;>
    simp only [same, beq_iff_eq, Bool.or_eq_true, Bool.and_eq_true, decide_eq_true_eq, Bool.false_eq_true] at h h' ⊢
  · exact h.trans h'
  · rcases h with rfl | h
    · exact h'
    · rcases h' with rfl | h'
      · exact .inr h
      · exact .inr ⟨h.1, h'.2⟩

end Number

namespace Value

abbrev Alike : Option Value → Option Value → Prop := Option.Rel fun v w => v.same w = true

namespace Alike

variable {o p q : Option Value}

theorem refl_of (h : ∀ v, o = some v → v.same v = true) : Alike o o := by
  cases o with
  | none => exact .none
  | some v => exact .some (h v rfl)

theorem symm_of (h : ∀ v w, o = some v → p = some w → v.same w = true → w.same v = true) (hop : Alike o p) :
    Alike p o := by
  cases hop with
  | none => exact .none
  | some hvw => exact .some (h _ _ rfl rfl hvw)

theorem trans_of (h : ∀ u v w, o = some u → p = some v → q = some w → u.same v = true → v.same w = true →
    u.same w = true) (hop : Alike o p) (hpq : Alike p q) : Alike o q := by
  cases hop with
  | none => exact hpq
  | some huv =>
    cases hpq with
    | some hvw => exact .some (h _ _ _ rfl rfl rfl huv hvw)

theorem isSome_eq (h : Alike o p) : o.isSome = p.isSome := by
  cases h <;> rfl

theorem exists_of_some {v : Value} (h : Alike (some v) p) : ∃ w, p = some w ∧ v.same w = true := by
  cases h with
  | some hvw => exact ⟨_, rfl, hvw⟩

theorem bind {f g : Value → Option Value} (h : Alike o p)
    (hfg : ∀ v w, o = some v → p = some w → v.same w = true → Alike (f v) (g w)) : Alike (o.bind f) (p.bind g) := by
  cases h with
  | none => exact .none
  | some hvw => exact hfg _ _ rfl rfl hvw

theorem or {o' p' : Option Value} (h : Alike o p) (h' : Alike o' p') : Alike (o.or o') (p.or p') := by
  cases h with
  | none => exact h'
  | some hvw => exact .some hvw

end Alike

/-! ## Arrays and objects -/

theorem sameItems_iff : ∀ {as bs : List Value}, sameItems as bs = true ↔ ∀ i : Nat, Alike as[i]? bs[i]?
  | [], [] => ⟨fun _ _ => .none, fun _ => rfl⟩
  | [], b :: bs => ⟨fun h => (nomatch h), fun h => (nomatch h 0)⟩
  | a :: as, [] => ⟨fun h => (nomatch h), fun h => (nomatch h 0)⟩
  | a :: as, b :: bs => by
    rw [sameItems, Bool.and_eq_true, sameItems_iff]
    constructor
    · rintro ⟨hab, h⟩ i
      cases i with
      | zero => exact .some hab
      | succ i => exact h i
    · intro h
      refine ⟨?_, fun i => h (i + 1)⟩
      cases h 0 with
      | some hab => exact hab

theorem sameEntries_iff {es fs : Entries Value} :
    sameEntries es fs = true ↔ ∀ e ∈ es, ∃ w, fs.get? e.1 = some w ∧ e.2.same w = true := by
  induction es with
  | nil => exact ⟨fun _ _ h => (nomatch h), fun _ => rfl⟩
  | cons e es ih =>
    rw [sameEntries, Bool.and_eq_true, List.forall_mem_cons, ih]
    refine and_congr_left fun _ => ?_
    cases Entries.get? fs e.1 <;> simp

theorem same_array_iff {as bs : List Value} : (array as).same (array bs) = true ↔ ∀ i : Nat, Alike as[i]? bs[i]? := by
  rw [same, sameItems_iff]

theorem mem_keys_of_length_eq {α : Type} {es fs : Entries α} (hes : es.keys.Nodup) (hlength : es.length = fs.length)
    (hsub : es.keys ⊆ fs.keys) {k : String} (hk : k ∈ fs.keys) : k ∈ es.keys := by
  have hkeys : fs.keys.length ≤ es.keys.length := by simp [Entries.keys, hlength]
  exact ((List.subperm_of_subset hes hsub).perm_of_length_le hkeys).mem_iff.2 hk

/-- **Objects of distinct keys are the same just if they have the same under every key.** -/
theorem same_object_iff {es fs : Entries Value} (hes : es.keys.Nodup) (hfs : fs.keys.Nodup) :
    (object es).same (object fs) = true ↔ ∀ k, Alike (es.get? k) (fs.get? k) := by
  rw [same, Bool.and_eq_true, beq_iff_eq, sameEntries_iff]
  constructor
  · rintro ⟨hlength, h⟩ k
    have hsub : es.keys ⊆ fs.keys := fun j hj => by
      obtain ⟨e, he, rfl⟩ := List.mem_map.1 hj
      obtain ⟨w, hw, -⟩ := h e he
      exact List.mem_map.2 ⟨_, Entries.mem_of_get? hw, rfl⟩
    by_cases hk : k ∈ es.keys
    · obtain ⟨v, hv⟩ := Entries.exists_get?_of_mem hk
      obtain ⟨w, hw, hvw⟩ := h _ (Entries.mem_of_get? hv)
      rw [hv, hw]
      exact .some hvw
    · have hnot : k ∉ fs.keys := fun hmem => hk (mem_keys_of_length_eq hes hlength hsub hmem)
      rw [Entries.get?_eq_none hk, Entries.get?_eq_none hnot]
      exact .none
  · intro h
    have hmem : ∀ k, k ∈ es.keys ↔ k ∈ fs.keys := fun k => by
      rw [← Entries.isSome_get?_iff, ← Entries.isSome_get?_iff, (h k).isSome_eq]
    have hlength := ((List.perm_ext_iff_of_nodup hes hfs).2 hmem).length_eq
    refine ⟨by simpa [Entries.keys] using hlength, fun e he => ?_⟩
    have hk := h e.1
    rw [Entries.get?_of_mem hes he] at hk
    exact hk.exists_of_some

/-! ## What is the same as a value -/

theorem exists_of_same_number {m : Number} {b : Value} (h : (number m).same b = true) :
    ∃ n, b = number n ∧ m.same n = true := by
  cases b with
  | number n => exact ⟨n, rfl, h⟩
  | _ => cases h

theorem exists_of_same_array {as : List Value} {b : Value} (h : (array as).same b = true) : ∃ bs, b = array bs := by
  cases b with
  | array bs => exact ⟨bs, rfl⟩
  | _ => cases h

theorem exists_of_same_object {es : Entries Value} {b : Value} (h : (object es).same b = true) : ∃ fs, b = object fs := by
  cases b with
  | object fs => exact ⟨fs, rfl⟩
  | _ => cases h

theorem eq_of_same {a b : Value} (h : a.same b = true) :
    a = b ∨ (∃ n, a = number n) ∨ (∃ items, a = array items) ∨ ∃ es, a = object es := by
  cases a with
  | number n => exact .inr (.inl ⟨n, rfl⟩)
  | array items => exact .inr (.inr (.inl ⟨items, rfl⟩))
  | object es => exact .inr (.inr (.inr ⟨es, rfl⟩))
  | _ =>
    refine .inl ?_
    cases b <;> simp_all [same]

/-! ## The laws of an equivalence -/

theorem KeysDistinct.keys {es : Entries Value} (h : (object es).KeysDistinct) : es.keys.Nodup := h _ (mem_parts_self _)

theorem KeysDistinct.item {items : List Value} (h : (array items).KeysDistinct) {i : Nat} {v : Value}
    (hv : items[i]? = some v) : v.KeysDistinct :=
  h.of_mem (mem_parts_array (List.mem_of_getElem? hv) (mem_parts_self v))

theorem KeysDistinct.entry {es : Entries Value} (h : (object es).KeysDistinct) {k : String} {v : Value}
    (hv : es.get? k = some v) : v.KeysDistinct :=
  h.of_mem (mem_parts_object (Entries.mem_of_get? hv) (mem_parts_self v))

theorem same_refl (a : Value) : a.KeysDistinct → a.same a = true := by
  induction a using inductionOn with
  | null => exact fun _ => rfl
  | bool b => exact fun _ => beq_self_eq_true b
  | number n => exact fun _ => n.same_refl
  | string s => exact fun _ => beq_self_eq_true s
  | date t => exact fun _ => decide_eq_true rfl
  | function f => exact fun _ => decide_eq_true rfl
  | array items ih =>
    intro ha
    refine same_array_iff.2 fun i => .refl_of fun v hv => ?_
    exact ih v (List.mem_of_getElem? hv) (ha.item hv)
  | object es ih =>
    intro ha
    refine (same_object_iff ha.keys ha.keys).2 fun k => .refl_of fun v hv => ?_
    exact ih _ (Entries.mem_of_get? hv) (ha.entry hv)

theorem same_symm {a b : Value} (ha : a.KeysDistinct) (hb : b.KeysDistinct) (h : a.same b = true) : b.same a = true := by
  induction a using inductionOn generalizing b with
  | number m =>
    obtain ⟨n, rfl, hmn⟩ := exists_of_same_number h
    exact Number.same_symm hmn
  | array as ih =>
    obtain ⟨bs, rfl⟩ := exists_of_same_array h
    refine same_array_iff.2 fun i => (same_array_iff.1 h i).symm_of fun v w hv hw => ?_
    exact ih v (List.mem_of_getElem? hv) (ha.item hv) (hb.item hw)
  | object es ih =>
    obtain ⟨fs, rfl⟩ := exists_of_same_object h
    have hkeys := (same_object_iff ha.keys hb.keys).1 h
    refine (same_object_iff hb.keys ha.keys).2 fun k => (hkeys k).symm_of fun v w hv hw => ?_
    exact ih _ (Entries.mem_of_get? hv) (ha.entry hv) (hb.entry hw)
  | _ =>
    cases (eq_of_same h).resolve_right (by simp)
    exact h

theorem same_trans {a b c : Value} (ha : a.KeysDistinct) (hb : b.KeysDistinct) (hc : c.KeysDistinct)
    (h : a.same b = true) (h' : b.same c = true) : a.same c = true := by
  induction a using inductionOn generalizing b c with
  | number m =>
    obtain ⟨n, rfl, hmn⟩ := exists_of_same_number h
    obtain ⟨o, rfl, hno⟩ := exists_of_same_number h'
    exact Number.same_trans hmn hno
  | array as ih =>
    obtain ⟨bs, rfl⟩ := exists_of_same_array h
    obtain ⟨cs, rfl⟩ := exists_of_same_array h'
    refine same_array_iff.2 fun i => .trans_of ?_ (same_array_iff.1 h i) (same_array_iff.1 h' i)
    exact fun u v w hu hv hw => ih u (List.mem_of_getElem? hu) (ha.item hu) (hb.item hv) (hc.item hw)
  | object es ih =>
    obtain ⟨fs, rfl⟩ := exists_of_same_object h
    obtain ⟨gs, rfl⟩ := exists_of_same_object h'
    have hkeys := (same_object_iff ha.keys hb.keys).1 h
    have hkeys' := (same_object_iff hb.keys hc.keys).1 h'
    refine (same_object_iff ha.keys hc.keys).2 fun k => .trans_of ?_ (hkeys k) (hkeys' k)
    exact fun u v w hu hv hw => ih _ (Entries.mem_of_get? hu) (ha.entry hu) (hb.entry hv) (hc.entry hw)
  | _ =>
    cases (eq_of_same h).resolve_right (by simp)
    exact h'

/-! ## Rearranging objects -/

/-- **One object is a reordering of another**, up to values that are the same under one key. -/
def Rearranged (es fs : Entries Value) : Prop :=
  ∃ gs : Entries Value, gs.Perm fs ∧ List.Forall₂ (fun e g => e.1 = g.1 ∧ e.2.same g.2 = true) es gs

theorem exists_mem_of_forall₂ {α β : Type} {R : α → β → Prop} {l : List α} {l' : List β} (h : List.Forall₂ R l l') :
    ∀ x ∈ l, ∃ y ∈ l', R x y := by
  induction h with
  | nil => exact fun _ hx => nomatch hx
  | cons hxy _ ih =>
    refine List.forall_mem_cons.2 ⟨⟨_, List.mem_cons_self, hxy⟩, fun x hx => ?_⟩
    obtain ⟨y, hy, hxy⟩ := ih x hx
    exact ⟨y, List.mem_cons_of_mem _ hy, hxy⟩

/-- **Objects are the same just if one is a reordering of the other.** -/
theorem same_object_iff_rearranged {es fs : Entries Value} (hes : es.keys.Nodup) (hfs : fs.keys.Nodup) :
    (object es).same (object fs) = true ↔ Rearranged es fs := by
  rw [same, Bool.and_eq_true, beq_iff_eq, sameEntries_iff]
  constructor
  · rintro ⟨hlength, h⟩
    -- the entries of the second object in the order of the first
    let gs : Entries Value := es.map fun e => (e.1, (fs.get? e.1).getD .null)
    have hkeys : gs.keys = es.keys := by simp [gs, Entries.keys]
    have hsub : gs ⊆ fs := fun g hg => by
      obtain ⟨e, he, rfl⟩ := List.mem_map.1 hg
      obtain ⟨w, hw, -⟩ := h e he
      rw [hw]
      exact Entries.mem_of_get? hw
    have hgs : gs.Nodup := Entries.nodup_of_keys (hkeys ▸ hes)
    refine ⟨gs, (List.subperm_of_subset hgs hsub).perm_of_length_le (by simp [gs, hlength]), ?_⟩
    refine List.forall₂_map_right_iff.2 (List.forall₂_same.2 fun e he => ⟨rfl, ?_⟩)
    obtain ⟨w, hw, hsame⟩ := h e he
    rw [hw]
    exact hsame
  · rintro ⟨gs, hperm, h⟩
    refine ⟨h.length_eq.trans hperm.length_eq, fun e he => ?_⟩
    obtain ⟨g, hg, hkey, hsame⟩ := exists_mem_of_forall₂ h e he
    exact ⟨g.2, hkey ▸ Entries.get?_of_mem hfs (hperm.mem_iff.1 hg), hsame⟩

/-! ## Lookups -/

theorem alike_child? {a b : Value} (ha : a.KeysDistinct) (hb : b.KeysDistinct) (h : a.same b = true) (segment : String) :
    Alike (a.child? segment) (b.child? segment) := by
  cases a with
  | array as =>
    obtain ⟨bs, rfl⟩ := exists_of_same_array h
    rw [child?, child?]
    cases Path.index? segment with
    | none => exact .none
    | some i => exact same_array_iff.1 h i
  | object es =>
    obtain ⟨fs, rfl⟩ := exists_of_same_object h
    exact (same_object_iff ha.keys hb.keys).1 h segment
  | number m =>
    obtain ⟨n, rfl, -⟩ := exists_of_same_number h
    exact .none
  | _ =>
    cases (eq_of_same h).resolve_right (by simp)
    exact .none

theorem alike_follow? {a b : Value} (ha : a.KeysDistinct) (hb : b.KeysDistinct) (h : a.same b = true)
    (segments : List String) : Alike (a.follow? segments) (b.follow? segments) := by
  induction segments generalizing a b with
  | nil => exact .some h
  | cons s rest ih =>
    refine (alike_child? ha hb h s).bind fun v w hv hw hvw => ?_
    exact ih (ha.of_mem (mem_parts_of_child? hv)) (hb.of_mem (mem_parts_of_child? hw)) hvw

theorem alike_descend? {a b : Value} (ha : a.KeysDistinct) (hb : b.KeysDistinct) (h : a.same b = true)
    (segments : List String) : Alike (a.descend? segments) (b.descend? segments) := by
  rw [descend?, descend?]
  split
  · exact .none
  · exact alike_follow? ha hb h segments

theorem alike_entry {a b : Value} (ha : a.KeysDistinct) (hb : b.KeysDistinct) (h : a.same b = true) (key : String) :
    Alike (a.entry? key) (b.entry? key) := by
  cases a with
  | object es =>
    obtain ⟨fs, rfl⟩ := exists_of_same_object h
    exact (same_object_iff ha.keys hb.keys).1 h key
  | array as =>
    obtain ⟨bs, rfl⟩ := exists_of_same_array h
    exact .none
  | number m =>
    obtain ⟨n, rfl, -⟩ := exists_of_same_number h
    exact .none
  | _ =>
    cases (eq_of_same h).resolve_right (by simp)
    exact .none

/-- **A path leads to the same in values that are the same**, or nowhere in both. -/
theorem alike_get? {a b : Value} (ha : a.KeysDistinct) (hb : b.KeysDistinct) (h : a.same b = true) (path : String) :
    Alike (a.get? path) (b.get? path) := by
  rw [get?, get?]
  split
  · exact .none
  · exact (alike_entry ha hb h path).or (alike_descend? ha hb h (Path.segments path))

/-- **Equality of values is an equivalence that lookups respect**, and for objects it is equality up to order, as long as
no object has two entries of one key. -/
theorem same_equivalence {a b c : Value} (ha : a.KeysDistinct) (hb : b.KeysDistinct) (hc : c.KeysDistinct) :
    a.same a = true ∧ (a.same b = true → b.same a = true) ∧
    (a.same b = true → b.same c = true → a.same c = true) ∧
    (∀ es fs, a = .object es → b = .object fs → (a.same b = true ↔ Rearranged es fs)) ∧
    (a.same b = true → ∀ path, Option.Rel (fun v w => v.same w = true) (a.get? path) (b.get? path)) := by
  refine ⟨same_refl a ha, same_symm ha hb, same_trans ha hb hc, ?_, alike_get? ha hb⟩
  rintro es fs rfl rfl
  exact same_object_iff_rearranged ha.keys hb.keys

/-- Objects in three orders, with the two zeros under one key. -/
theorem same_equivalence_zeros :
    let zero : Value := .ofFloat (Float.ofBits 0)
    let minusZero : Value := .ofFloat (Float.ofBits 0x8000000000000000)
    let a : Value := .object [("k", .array [.object [("x", zero), ("f", .function ⟨1⟩)]]), ("k[0].x", .null), ("d", .null)]
    let b : Value := .object [("d", .null), ("k", .array [.object [("f", .function ⟨1⟩), ("x", minusZero)]]), ("k[0].x", .null)]
    let c : Value := .object [("k[0].x", .null), ("d", .null), ("k", .array [.object [("f", .function ⟨1⟩), ("x", zero)]])]
    a.KeysDistinct ∧ b.KeysDistinct ∧ c.KeysDistinct ∧ a.same b = true ∧ b.same c = true ∧ a ≠ b ∧
      b.same a = true ∧ a.same c = true ∧
      Option.Rel (fun v w => v.same w = true) (a.get? "k.0.x") (b.get? "k.0.x") ∧ (a.get? "k.0.x").isSome = true := by
  intro zero minusZero a b c
  have ha : a.KeysDistinct := by decide +kernel
  have hb : b.KeysDistinct := by decide +kernel
  have hc : c.KeysDistinct := by decide +kernel
  have hab : a.same b = true := by decide +kernel
  have hbc : b.same c = true := by decide +kernel
  obtain ⟨-, hsymm, htrans, -, hget⟩ := same_equivalence ha hb hc
  exact ⟨ha, hb, hc, hab, hbc, by simp [a, b], hsymm hab, htrans hab hbc, hget hab _, by decide +kernel⟩

end Value
end Stencil
