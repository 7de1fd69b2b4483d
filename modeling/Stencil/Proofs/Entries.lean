import Stencil.Entries
import Stencil.Proofs.FirstWins
/-!
# Entries made from pairs

Inserting pairs one after the other gives back the pairs if their keys are distinct.  In general it gives each key once,
in the place of its first pair and with the value of its last (`Collects`), and no other entries are like that
(`collects_iff`).
-/
namespace Stencil.Entries

variable {α : Type}

/-! ## Looking up -/

theorem mem_of_get? : ∀ {es : Entries α} {key : String} {v : α}, es.get? key = some v → (key, v) ∈ es
  | (k, w) :: rest, key, v, h => by
    rw [get?] at h
    split at h
    · rename_i hk
      cases h; rw [hk]; exact List.mem_cons_self
    · exact List.mem_cons_of_mem _ (mem_of_get? h)

theorem exists_get?_of_mem : ∀ {es : Entries α} {k : String}, k ∈ es.keys → ∃ v, es.get? k = some v
  | (j, w) :: rest, k, h => by
    rw [get?]
    by_cases hj : j = k
    · exact ⟨w, if_pos hj⟩
    · rw [if_neg hj]
      exact exists_get?_of_mem ((List.mem_cons.1 h).resolve_left fun e => hj e.symm)

theorem get?_eq_none : ∀ {es : Entries α} {k : String}, k ∉ es.keys → es.get? k = none
  | [], _, _ => rfl
  | (j, w) :: rest, k, h => by
    have hj : ¬ j = k := fun e => h (e ▸ List.mem_cons_self)
    have hrest : k ∉ keys rest := fun m => h (List.mem_cons_of_mem _ m)
    rw [get?, if_neg hj, get?_eq_none hrest]

theorem isSome_get?_iff {es : Entries α} {k : String} : (es.get? k).isSome = true ↔ k ∈ es.keys := by
  constructor
  · intro h
    obtain ⟨v, hv⟩ := Option.isSome_iff_exists.1 h
    exact List.mem_map.2 ⟨_, mem_of_get? hv, rfl⟩
  · intro h
    obtain ⟨v, hv⟩ := exists_get?_of_mem h
    rw [hv]
    rfl

theorem get?_append : ∀ {es more : Entries α} {k : String}, get? (es ++ more) k = (es.get? k).or (more.get? k)
  | [], _, _ => rfl
  | (j, w) :: rest, more, k => by
    rw [List.cons_append, get?, get?]
    by_cases hj : j = k
    · rw [if_pos hj, if_pos hj, Option.some_or]
    · rw [if_neg hj, if_neg hj, get?_append]

theorem get?_eq_some_iff {es : Entries α} {k : String} {v : α} :
    es.get? k = some v ↔ ∃ before after, es = before ++ (k, v) :: after ∧ k ∉ keys before := by
  constructor
  · intro h
    induction es with
    | nil => cases h
    | cons e rest ih =>
      rw [get?] at h
      split at h
      · rename_i hj
        cases h
        exact ⟨[], rest, by rw [← hj]; rfl, List.not_mem_nil⟩
      · rename_i hj
        obtain ⟨before, after, rfl, hk⟩ := ih h
        exact ⟨e :: before, after, rfl, fun m => (List.mem_cons.1 m).elim (fun e => hj e.symm) hk⟩
  · rintro ⟨before, after, rfl, hk⟩
    rw [get?_append, get?_eq_none hk, Option.none_or, get?, if_pos rfl]

theorem nodup_of_keys {es : Entries α} (h : es.keys.Nodup) : es.Nodup :=
  (List.pairwise_map.1 h).imp fun hne e => hne (congrArg Prod.fst e)

theorem get?_of_mem {es : Entries α} (h : es.keys.Nodup) {k : String} {v : α} (hmem : (k, v) ∈ es) :
    es.get? k = some v := by
  obtain ⟨before, after, rfl⟩ := List.append_of_mem hmem
  refine get?_eq_some_iff.2 ⟨before, after, rfl, fun hk => ?_⟩
  rw [keys, List.map_append, List.nodup_append] at h
  exact h.2.2 k hk k List.mem_cons_self rfl

/-! ## Inserting -/

theorem get?_insert (es : Entries α) (k : String) (v : α) (j : String) :
    (es.insert k v).get? j = (get? [(k, v)] j).or (es.get? j) := by
  by_cases h : k = j
  · subst h
    rw [get?_insert_self, get?, if_pos rfl, Option.some_or]
  · rw [get?_insert_ne es v h, get?, if_neg h, get?, Option.none_or]

theorem insert_of_not_mem : ∀ {es : Entries α} {k : String} (v : α), k ∉ es.keys → es.insert k v = es ++ [(k, v)]
  | [], _, _, _ => rfl
  | (j, w) :: rest, k, v, h => by
    have hj : ¬ j = k := fun e => h (e ▸ List.mem_cons_self)
    have hrest : k ∉ keys rest := fun m => h (List.mem_cons_of_mem _ m)
    rw [insert, if_neg hj, insert_of_not_mem v hrest, List.cons_append]

theorem insertAll_of_nodup : ∀ {es : Entries α} {pairs : List (String × α)}, (keys (es ++ pairs)).Nodup →
    es.insertAll pairs = es ++ pairs
  | es, [], _ => (List.append_nil es).symm
  | es, (k, v) :: rest, h => by
    have hk : k ∉ es.keys := fun m => by
      rw [keys, List.map_append, List.nodup_append] at h
      exact h.2.2 k m k List.mem_cons_self rfl
    have hmore : (keys (es ++ [(k, v)] ++ rest)).Nodup := by rwa [List.append_assoc, List.singleton_append]
    rw [insertAll, insert_of_not_mem v hk, insertAll_of_nodup hmore, List.append_assoc, List.singleton_append]

theorem ofList_of_nodup {pairs : List (String × α)} (h : (keys pairs).Nodup) : ofList pairs = pairs :=
  @insertAll_of_nodup α [] pairs h

/-! ## First places and last values -/

/-- **The entries have each key of the pairs once**, in the order in which the keys first come, with what the last pair of
the key stores. -/
structure Collects (pairs : List (String × α)) (es : Entries α) : Prop where
  distinct : es.keys.Nodup
  keys : ∀ k, k ∈ es.keys ↔ k ∈ Entries.keys pairs
  ascending : es.keys.Pairwise fun j k => (Entries.keys pairs).idxOf j < (Entries.keys pairs).idxOf k
  last : ∀ k v, (k, v) ∈ es ↔ ∃ before after, pairs = before ++ (k, v) :: after ∧ k ∉ Entries.keys after

/-- **Each insertion adds a key behind those there just if it is new**, so that first places stay. -/
theorem keys_insertAll : ∀ {es : Entries α} {pairs : List (String × α)},
    (es.insertAll pairs).keys = es.keys ++ firstWinsFrom id es.keys (keys pairs)
  | es, [] => (List.append_nil _).symm
  | es, (k, v) :: rest => by
    have hkeys : keys ((k, v) :: rest) = k :: keys rest := rfl
    rw [insertAll, keys_insertAll, keys_insert, hkeys, firstWinsFrom, id]
    split
    · rfl
    · rw [List.append_assoc, List.singleton_append]
      refine congrArg (es.keys ++ k :: ·) (firstWinsFrom_congr fun j => ?_)
      rw [List.mem_append, List.mem_singleton, List.mem_cons, or_comm]

/-- **Each insertion writes over what was there**, so that last values stand. -/
theorem get?_insertAll : ∀ {es : Entries α} {pairs : List (String × α)} {j : String},
    (es.insertAll pairs).get? j = (get? pairs.reverse j).or (es.get? j)
  | es, [], j => rfl
  | es, (k, v) :: rest, j => by
    rw [insertAll, get?_insertAll, get?_insert, List.reverse_cons, get?_append, Option.or_assoc]

theorem get?_reverse_eq_some_iff {pairs : List (String × α)} {k : String} {v : α} :
    get? pairs.reverse k = some v ↔ ∃ before after, pairs = before ++ (k, v) :: after ∧ k ∉ keys after := by
  rw [get?_eq_some_iff]
  constructor
  · rintro ⟨before, after, h, hk⟩
    refine ⟨after.reverse, before.reverse, ?_, by rwa [keys, List.map_reverse, List.mem_reverse]⟩
    rw [← List.reverse_reverse pairs, h]
    simp
  · rintro ⟨before, after, rfl, hk⟩
    exact ⟨after.reverse, before.reverse, by simp, by rwa [keys, List.map_reverse, List.mem_reverse]⟩

theorem summarizes_keys_ofList (pairs : List (String × α)) : Summarizes id (keys pairs) (ofList pairs).keys := by
  have hkeys : (ofList pairs).keys = firstWins id (keys pairs) := keys_insertAll
  rw [hkeys]
  exact summarizes_firstWins id (keys pairs)

theorem nodup_keys_ofList (pairs : List (String × α)) : (ofList pairs).keys.Nodup := by
  simpa using (summarizes_keys_ofList pairs).distinct

theorem mem_ofList_iff {pairs : List (String × α)} {k : String} {v : α} :
    (k, v) ∈ ofList pairs ↔ ∃ before after, pairs = before ++ (k, v) :: after ∧ k ∉ keys after := by
  have hget : (ofList pairs).get? k = get? pairs.reverse k := by
    rw [ofList, get?_insertAll, get?, Option.or_none]
  rw [← get?_reverse_eq_some_iff, ← hget]
  exact ⟨get?_of_mem (nodup_keys_ofList pairs), mem_of_get?⟩

theorem mem_ofList {pairs : List (String × α)} {e : String × α} (h : e ∈ ofList pairs) : e ∈ pairs := by
  obtain ⟨before, after, rfl, -⟩ := mem_ofList_iff.1 h
  simp

theorem collects_ofList (pairs : List (String × α)) : Collects pairs (ofList pairs) where
  distinct := nodup_keys_ofList pairs
  keys := by simpa using (summarizes_keys_ofList pairs).keys
  ascending := by simpa using (summarizes_keys_ofList pairs).ascending
  last _ _ := mem_ofList_iff

/-- **Places and values leave no choice**: entries that collect the pairs are made from them. -/
theorem collects_iff {pairs : List (String × α)} {es : Entries α} : Collects pairs es ↔ es = ofList pairs := by
  constructor
  · intro h
    have h' := collects_ofList pairs
    have hperm : es.Perm (ofList pairs) := (List.perm_ext_iff_of_nodup (nodup_of_keys h.distinct)
      (nodup_of_keys h'.distinct)).2 fun e => (h.last e.1 e.2).trans (h'.last e.1 e.2).symm
    have hes := List.pairwise_map.1 h.ascending
    have hpairs := List.pairwise_map.1 h'.ascending
    exact hperm.eq_of_pairwise (fun e f _ _ hef hfe => (Nat.lt_asymm hef hfe).elim) hes hpairs
  · rintro rfl
    exact collects_ofList pairs

end Stencil.Entries
