import Stencil.FirstWins
/-!
# What the first wins over

`Summarizes` says, without going through the items, which of them are kept: of each key the first item, in the order in
which the keys first come.  `firstWins` summarizes (`summarizes_firstWins`).

Lists that give the same after whatever keys have been seen may stand for each other within longer ones
(`firstWinsFrom_append_congr`).  So it makes no difference whether parts of a list have been gone through before the whole
is (`firstWinsFrom_firstWins`).
-/
namespace Stencil

variable {α β κ : Type} [DecidableEq κ] {key : α → κ}

/-- **The second list has of the first the first item of each key**, in the order in which the keys first come. -/
structure Summarizes (key : α → κ) (xs ys : List α) : Prop where
  distinct : (ys.map key).Nodup
  keys : ∀ k, k ∈ ys.map key ↔ k ∈ xs.map key
  ascending : ys.Pairwise fun y z => (xs.map key).idxOf (key y) < (xs.map key).idxOf (key z)
  first : ∀ y ∈ ys, xs.find? (key · = key y) = some y

/-! ## The keys that are kept -/

/-- **Just the keys that have not been seen are kept.** -/
theorem mem_keys_firstWinsFrom {k : κ} : ∀ {seen : List κ} {xs : List α},
    k ∈ (firstWinsFrom key seen xs).map key ↔ k ∈ xs.map key ∧ k ∉ seen
  | seen, [] => by simp [firstWinsFrom]
  | seen, x :: xs => by
    rw [firstWinsFrom, List.map_cons, List.mem_cons]
    split
    · rename_i hx
      rw [mem_keys_firstWinsFrom]
      refine ⟨fun h => ⟨.inr h.1, h.2⟩, fun h => ⟨h.1.resolve_left fun e => h.2 (e ▸ hx), h.2⟩⟩
    · rename_i hx
      rw [List.map_cons, List.mem_cons, mem_keys_firstWinsFrom, List.mem_cons, not_or]
      by_cases hk : k = key x
      · subst hk
        exact ⟨fun _ => ⟨.inl rfl, hx⟩, fun _ => .inl rfl⟩
      · simp only [hk, false_or, not_false_eq_true, true_and]

theorem exists_mem_firstWins {x : α} {xs : List α} (h : x ∈ xs) : ∃ y ∈ firstWins key xs, key y = key x :=
  List.mem_map.1 (mem_keys_firstWinsFrom.2 ⟨List.mem_map_of_mem h, List.not_mem_nil⟩)

theorem firstWins_eq_nil {xs : List α} : firstWins key xs = [] ↔ xs = [] := by
  constructor
  · intro h
    refine List.eq_nil_iff_forall_not_mem.2 fun x hx => ?_
    have hkept : ∃ y ∈ firstWins key xs, key y = key x := exists_mem_firstWins hx
    simp [h] at hkept
  · rintro rfl
    rfl

theorem key_not_mem_seen {seen : List κ} {xs : List α} {y : α} (hy : y ∈ firstWinsFrom key seen xs) : key y ∉ seen :=
  (mem_keys_firstWinsFrom.1 (List.mem_map_of_mem hy)).2

/-! ## First items, in order -/

theorem idxOf_cons_of_ne {k j : κ} {ks : List κ} (h : k ≠ j) : (j :: ks).idxOf k = ks.idxOf k + 1 := by
  rw [List.idxOf_cons, beq_false_of_ne h.symm, cond_false]

/-- **What is kept comes in the order in which the keys first come.** -/
theorem ascending_firstWinsFrom : ∀ {seen : List κ} {xs : List α}, (firstWinsFrom key seen xs).Pairwise
    fun y z => (xs.map key).idxOf (key y) < (xs.map key).idxOf (key z)
  | seen, [] => .nil
  | seen, x :: xs => by
    -- behind an item with another key all first places are one later
    have hlater : ∀ {more : List κ}, key x ∈ more → (firstWinsFrom key more xs).Pairwise
        fun y z => ((x :: xs).map key).idxOf (key y) < ((x :: xs).map key).idxOf (key z) := by
      intro more hmore
      refine ascending_firstWinsFrom.imp_of_mem fun {y z} hy hz h => ?_
      have hother : ∀ {w : α}, w ∈ firstWinsFrom key more xs → key w ≠ key x := fun hw e =>
        key_not_mem_seen hw (e ▸ hmore)
      rw [List.map_cons, idxOf_cons_of_ne (hother hy), idxOf_cons_of_ne (hother hz)]
      exact Nat.succ_lt_succ h
    rw [firstWinsFrom]
    split
    · rename_i hx
      exact hlater hx
    · refine .cons (fun z hz => ?_) (hlater List.mem_cons_self)
      have hz : key z ≠ key x := fun e => key_not_mem_seen hz (e ▸ List.mem_cons_self)
      rw [List.map_cons, List.idxOf_cons_self, idxOf_cons_of_ne hz]
      exact Nat.succ_pos _

theorem find?_of_mem_firstWinsFrom {y : α} : ∀ {seen : List κ} {xs : List α}, y ∈ firstWinsFrom key seen xs →
    xs.find? (key · = key y) = some y
  | seen, x :: xs, h => by
    have hlater : ∀ {more : List κ}, key x ∈ more → y ∈ firstWinsFrom key more xs →
        (x :: xs).find? (key · = key y) = some y := by
      intro more hmore hy
      have hx : key x ≠ key y := fun e => key_not_mem_seen hy (e ▸ hmore)
      rw [List.find?_cons_of_neg (by simpa using hx)]
      exact find?_of_mem_firstWinsFrom hy
    rw [firstWinsFrom] at h
    split at h
    · rename_i hx
      exact hlater hx h
    · rcases List.mem_cons.1 h with rfl | hy
      · exact List.find?_cons_of_pos (by simp)
      · exact hlater List.mem_cons_self hy

/-- **The first item of each key is what is kept.** -/
theorem summarizes_firstWins (key : α → κ) (xs : List α) : Summarizes key xs (firstWins key xs) where
  distinct := by
    refine List.pairwise_map.2 (ascending_firstWinsFrom.imp fun h e => ?_)
    rw [e] at h
    exact Nat.lt_irrefl _ h
  keys k := by
    rw [firstWins, mem_keys_firstWinsFrom]
    exact and_iff_left List.not_mem_nil
  ascending := ascending_firstWinsFrom
  first _ hy := find?_of_mem_firstWinsFrom hy

/-! ## Parts of a list -/

theorem firstWinsFrom_congr : ∀ {seen seen' : List κ} {xs : List α}, (∀ k, k ∈ seen ↔ k ∈ seen') →
    firstWinsFrom key seen xs = firstWinsFrom key seen' xs
  | seen, seen', [], _ => rfl
  | seen, seen', x :: xs, h => by
    have hmore : ∀ k, k ∈ key x :: seen ↔ k ∈ key x :: seen' := fun k => by rw [List.mem_cons, List.mem_cons, h k]
    rw [firstWinsFrom, firstWinsFrom, firstWinsFrom_congr h, firstWinsFrom_congr hmore]
    simp only [h (key x)]

/-- **The keys of the first part have been seen when the second begins.** -/
theorem firstWinsFrom_append : ∀ {seen : List κ} {xs ys : List α}, firstWinsFrom key seen (xs ++ ys) =
    firstWinsFrom key seen xs ++ firstWinsFrom key (xs.map key ++ seen) ys
  | seen, [], ys => rfl
  | seen, x :: xs, ys => by
    rw [List.cons_append, firstWinsFrom, firstWinsFrom]
    split
    · rename_i hx
      rw [firstWinsFrom_append]
      refine congrArg _ (firstWinsFrom_congr fun k => ?_)
      rw [List.map_cons, List.cons_append, List.mem_cons, List.mem_append]
      exact ⟨.inr, fun h => h.elim (fun e => .inr (e ▸ hx)) id⟩
    · rw [firstWinsFrom_append, List.cons_append]
      refine congrArg (x :: firstWinsFrom key (key x :: seen) xs ++ ·) (firstWinsFrom_congr fun k => ?_)
      simp only [List.map_cons, List.cons_append, List.mem_cons, List.mem_append]
      exact or_left_comm

theorem firstWinsFrom_firstWinsFrom : ∀ {seen more : List κ} {xs : List α},
    firstWinsFrom key seen (firstWinsFrom key more xs) = firstWinsFrom key (more ++ seen) xs
  | seen, more, [] => rfl
  | seen, more, x :: xs => by
    have hin : key x ∈ more ++ seen ↔ key x ∈ more ∨ key x ∈ seen := List.mem_append
    by_cases hmore : key x ∈ more
    · rw [firstWinsFrom, firstWinsFrom, if_pos hmore, if_pos (hin.2 (.inl hmore)), firstWinsFrom_firstWinsFrom]
    · rw [firstWinsFrom, firstWinsFrom, if_neg hmore, firstWinsFrom, firstWinsFrom_firstWinsFrom,
        firstWinsFrom_firstWinsFrom]
      by_cases hseen : key x ∈ seen
      · rw [if_pos hseen, if_pos (hin.2 (.inr hseen))]
        exact firstWinsFrom_congr fun k => by grind
      · rw [if_neg hseen, if_neg fun h => (hin.1 h).elim hmore hseen]
        exact congrArg (x :: ·) (firstWinsFrom_congr fun k => by grind)

/-- **A list that has been gone through is as good as it was before.** -/
theorem firstWinsFrom_firstWins (seen : List κ) (xs : List α) :
    firstWinsFrom key seen (firstWins key xs) = firstWinsFrom key seen xs := firstWinsFrom_firstWinsFrom

theorem firstWinsFrom_append_congr {xs xs' ys ys' : List α}
    (hx : ∀ seen, firstWinsFrom key seen xs = firstWinsFrom key seen xs')
    (hy : ∀ seen, firstWinsFrom key seen ys = firstWinsFrom key seen ys') (seen : List κ) :
    firstWinsFrom key seen (xs ++ ys) = firstWinsFrom key seen (xs' ++ ys') := by
  have hkeys : ∀ k, k ∈ xs.map key ↔ k ∈ xs'.map key := by
    intro k
    have hk := @mem_keys_firstWinsFrom _ _ _ key k [] xs
    rw [hx, mem_keys_firstWinsFrom] at hk
    simpa using hk.symm
  rw [firstWinsFrom_append, firstWinsFrom_append, hx, hy]
  refine congrArg _ (firstWinsFrom_congr fun k => ?_)
  rw [List.mem_append, List.mem_append, hkeys]

theorem firstWinsFrom_flatMap_congr {f g : β → List α} {xs : List β}
    (h : ∀ x ∈ xs, ∀ seen, firstWinsFrom key seen (f x) = firstWinsFrom key seen (g x)) (seen : List κ) :
    firstWinsFrom key seen (xs.flatMap f) = firstWinsFrom key seen (xs.flatMap g) := by
  induction xs generalizing seen with
  | nil => rfl
  | cons x xs ih =>
    obtain ⟨hx, hxs⟩ := List.forall_mem_cons.1 h
    rw [List.flatMap_cons, List.flatMap_cons]
    exact firstWinsFrom_append_congr hx (ih hxs) seen

end Stencil
