import Mathlib.Data.List.NodupEquivFin
import Stencil.Proofs.FirstWins
/-!
# The places that the first wins

What `firstWins` keeps is a subsequence of the items, embedded at the places where no item before has the same key
(`Thins`).  That leaves no choice (`thins_iff`): items that are equal may stand at several places, but only the first of
them may be kept.

Of a list in two parts the first part is kept as if it stood alone, and of what is kept of the second the items go whose
key occurs in the first (`firstWins_append`).  A part may be gone through before the whole is.
-/
namespace Stencil

variable {α κ : Type} {key : α → κ}

/-- **The second list is a subsequence of the first that has each key once, at its first place.** -/
structure Thins (key : α → κ) (xs ys : List α) : Prop where
  embedded : ∃ place : Fin ys.length ↪o Fin xs.length,
    ∀ i, xs.get (place i) = ys.get i ∧ ∀ j < place i, key (xs.get j) ≠ key (ys.get i)
  distinct : (ys.map key).Nodup
  keys : ∀ x ∈ xs, key x ∈ ys.map key

theorem Thins.sublist {xs ys : List α} (h : Thins key xs ys) : ys.Sublist xs := by
  obtain ⟨place, hplace⟩ := h.embedded
  exact List.sublist_iff_exists_fin_orderEmbedding_get_eq.2 ⟨place, fun i => (hplace i).1.symm⟩

variable [DecidableEq κ]

/-! ## First places -/

theorem idxOf_map_eq {xs : List α} {k : κ} {i : Fin xs.length} (hi : key (xs.get i) = k)
    (hbefore : ∀ j < i, key (xs.get j) ≠ k) : (xs.map key).idxOf k = i := by
  have hlength : i.val < (xs.map key).length := by rw [List.length_map]; exact i.isLt
  rw [List.idxOf, List.findIdx_eq hlength]
  refine ⟨by simpa using hi, fun j hj => ?_⟩
  have hne := hbefore ⟨j, hj.trans i.isLt⟩ hj
  simpa using hne

theorem Summarizes.mem_iff {xs ys : List α} (h : Summarizes key xs ys) {y : α} :
    y ∈ ys ↔ xs.find? (key · = key y) = some y := by
  refine ⟨h.first y, fun hy => ?_⟩
  have hkey : key y ∈ ys.map key := (h.keys _).2 (List.mem_map_of_mem (List.mem_of_find?_eq_some hy))
  obtain ⟨z, hz, hzy⟩ := List.mem_map.1 hkey
  have hfound := h.first z hz
  rw [hzy, hy] at hfound
  rwa [Option.some.inj hfound]

/-- **First items in the order of their places leave no choice.** -/
theorem Summarizes.unique {xs ys zs : List α} (hys : Summarizes key xs ys) (hzs : Summarizes key xs zs) : ys = zs := by
  have hperm : ys.Perm zs := (List.perm_ext_iff_of_nodup (List.Nodup.of_map key hys.distinct)
    (List.Nodup.of_map key hzs.distinct)).2 fun y => hys.mem_iff.trans hzs.mem_iff.symm
  exact hperm.eq_of_pairwise (fun y z _ _ hyz hzy => (Nat.lt_asymm hyz hzy).elim) hys.ascending hzs.ascending

theorem Summarizes.thins {xs ys : List α} (h : Summarizes key xs ys) : Thins key xs ys where
  embedded := by
    have hfirst : ∀ i : Fin ys.length, ∃ p : Fin xs.length, xs.get p = ys.get i ∧
        ∀ j < p, key (xs.get j) ≠ key (ys.get i) := fun i => by
      obtain ⟨-, p, hp, heq, hbefore⟩ := List.find?_eq_some_iff_getElem.1 (h.first _ (ys.get_mem i))
      exact ⟨⟨p, hp⟩, heq, fun j hj => by simpa using hbefore j hj⟩
    choose place hplace using hfirst
    have hidx : ∀ i, (xs.map key).idxOf (key (ys.get i)) = place i := fun i =>
      idxOf_map_eq (congrArg key (hplace i).1) (hplace i).2
    refine ⟨OrderEmbedding.ofStrictMono place fun i j hij => ?_, hplace⟩
    have hascending := List.pairwise_iff_getElem.1 h.ascending i j i.isLt j.isLt hij
    rw [Fin.lt_def, ← hidx, ← hidx]
    exact hascending
  distinct := h.distinct
  keys _ hx := (h.keys _).2 (List.mem_map_of_mem hx)

theorem Thins.summarizes {xs ys : List α} (h : Thins key xs ys) : Summarizes key xs ys := by
  obtain ⟨place, hplace⟩ := h.embedded
  have hidx : ∀ i, (xs.map key).idxOf (key (ys.get i)) = place i := fun i =>
    idxOf_map_eq (congrArg key (hplace i).1) (hplace i).2
  refine ⟨h.distinct, fun k => ⟨fun hk => ?_, fun hk => ?_⟩, ?_, fun y hy => ?_⟩
  · exact (h.sublist.map key).mem hk
  · obtain ⟨x, hx, rfl⟩ := List.mem_map.1 hk
    exact h.keys x hx
  · refine List.pairwise_iff_getElem.2 fun i j hi hj hij => ?_
    have hlt : place ⟨i, hi⟩ < place ⟨j, hj⟩ := place.strictMono hij
    have hi := hidx ⟨i, hi⟩
    have hj := hidx ⟨j, hj⟩
    rw [List.get_eq_getElem] at hi hj
    rw [hi, hj]
    exact hlt
  · obtain ⟨i, rfl⟩ := List.get_of_mem hy
    obtain ⟨hi, hbefore⟩ := hplace i
    refine List.find?_eq_some_iff_getElem.2 ⟨by simp, place i, (place i).isLt, hi, fun j hj => ?_⟩
    simpa using hbefore ⟨j, hj.trans (place i).isLt⟩ hj

/-- **Only what the first wins is embedded at the first places.** -/
theorem thins_iff {xs ys : List α} : Thins key xs ys ↔ ys = firstWins key xs := by
  constructor
  · intro h
    exact h.summarizes.unique (summarizes_firstWins key xs)
  · rintro rfl
    exact (summarizes_firstWins key xs).thins

/-! ## Lists in two parts -/

theorem firstWinsFrom_of_nodup {seen : List κ} : ∀ {xs : List α}, (xs.map key).Nodup →
    firstWinsFrom key seen xs = xs.filter (key · ∉ seen)
  | [], _ => rfl
  | x :: xs, h => by
    obtain ⟨hx, hxs⟩ := List.nodup_cons.1 h
    -- the key of the head is none of the others, so it may be among the seen
    have hmore : firstWinsFrom key (key x :: seen) xs = firstWinsFrom key seen xs := by
      rw [firstWinsFrom_of_nodup hxs, firstWinsFrom_of_nodup hxs]
      refine List.filter_congr fun y hy => ?_
      have hne : key y ≠ key x := fun e => hx (e ▸ List.mem_map_of_mem hy)
      simp [hne]
    rw [firstWinsFrom, hmore, firstWinsFrom_of_nodup hxs, List.filter_cons]
    by_cases hseen : key x ∈ seen <;> simp [hseen]

theorem firstWins_of_nodup {xs : List α} (h : (xs.map key).Nodup) : firstWins key xs = xs := by
  rw [firstWins, firstWinsFrom_of_nodup h]
  exact List.filter_eq_self.2 fun x _ => by simp

/-- **Going through a list with keys seen is going through it and dropping their items.** -/
theorem firstWinsFrom_eq_filter (seen : List κ) (xs : List α) :
    firstWinsFrom key seen xs = (firstWins key xs).filter (key · ∉ seen) := by
  rw [← firstWinsFrom_firstWins, firstWinsFrom_of_nodup (summarizes_firstWins key xs).distinct]

theorem firstWins_append (xs ys : List α) :
    firstWins key (xs ++ ys) = firstWins key xs ++ (firstWins key ys).filter (key · ∉ xs.map key) := by
  rw [firstWins, firstWinsFrom_append, List.append_nil, firstWinsFrom_eq_filter (xs.map key) ys, ← firstWins]

theorem firstWins_append_firstWins (xs ys : List α) :
    firstWins key (firstWins key xs ++ firstWins key ys) = firstWins key (xs ++ ys) :=
  firstWinsFrom_append_congr (fun seen => firstWinsFrom_firstWins seen xs) (fun seen => firstWinsFrom_firstWins seen ys) []

/-- **The first wins**: what is kept of a list is its only subsequence that has each key once, at its first place.  Of what
is kept everything is kept; of two lists together the first is kept as alone, and of what is kept of the second what has
no key of the first; and nothing changes if each has been gone through before. -/
theorem firstWins_laws (key : α → κ) (xs : List α) :
    (∀ zs, Thins key xs zs ↔ zs = firstWins key xs) ∧
    (firstWins key xs).Sublist xs ∧
    firstWins key (firstWins key xs) = firstWins key xs ∧
    (∀ ys, firstWins key (xs ++ ys) = firstWins key xs ++ (firstWins key ys).filter (key · ∉ xs.map key)) ∧
    (∀ ys, firstWins key (firstWins key xs ++ firstWins key ys) = firstWins key (xs ++ ys)) := by
  have hthins : Thins key xs (firstWins key xs) := thins_iff.2 rfl
  refine ⟨fun _ => thins_iff, hthins.sublist, ?_, firstWins_append xs, firstWins_append_firstWins xs⟩
  exact firstWins_of_nodup hthins.distinct

example : firstWins Prod.fst [("a", 1), ("b", 2), ("a", 3), ("c", 4), ("b", 5)] = [("a", 1), ("b", 2), ("c", 4)] := by
  decide

end Stencil
