import Mathlib.Data.List.DropRight
import Stencil.Text.Blank
/-!
# Trimming

A text is its trimmed form between blanks (`Text.exists_append_trim`), and trimming takes off what blanks are put around a
text that neither begins nor ends with one (`Text.trim_append`).
-/
namespace Stencil.Text

def AllBlank (s : List Char) : Prop := ∀ c ∈ s, isBlank c = true

def Flush (s : List Char) : Prop := ∀ c ∈ s.head?, isBlank c = false

instance (s : List Char) : Decidable (AllBlank s) := decidable_of_iff (s.all isBlank = true) List.all_eq_true

theorem all_head?_iff {s : List Char} : s.head?.all (!isBlank ·) = true ↔ Flush s := by
  cases s <;> simp [Flush]

instance (s : List Char) : Decidable (Flush s) := decidable_of_iff (s.head?.all (!isBlank ·) = true) all_head?_iff

theorem trimLeft_append {w s : List Char} (hw : AllBlank w) (hs : Flush s) : trimLeft (w ++ s) = s := by
  rw [trimLeft, List.dropWhile_append_of_pos hw]
  cases s with
  | nil => rfl
  | cons c s => simp [hs c rfl]

theorem trimLeft_append_cons {c : Char} (hc : isBlank c = false) (s u : List Char) :
    trimLeft (s ++ c :: u) = trimLeft s ++ c :: u := by
  unfold trimLeft
  rw [List.dropWhile_append]
  split
  · rename_i h
    rw [List.isEmpty_iff.1 h]
    simp [hc]
  · rfl

theorem trimRight_append {s w : List Char} (hw : AllBlank w) (hs : Flush s.reverse) : trimRight (s ++ w) = s := by
  have hw' : AllBlank w.reverse := fun c hc => hw c (List.mem_reverse.1 hc)
  have hleft := trimLeft_append hw' hs
  rw [trimLeft, ← List.reverse_append] at hleft
  rw [trimRight, hleft, List.reverse_reverse]

theorem trim_append {w s u : List Char} (hw : AllBlank w) (hu : AllBlank u) (hs : Flush s) (hs' : Flush s.reverse) :
    trim (w ++ (s ++ u)) = s := by
  have hleft : trimLeft (w ++ (s ++ u)) = trimLeft (s ++ u) := by
    rw [trimLeft, List.dropWhile_append_of_pos hw]
    rfl
  rw [trim, hleft]
  cases s with
  | nil =>
    have hnil : trimLeft (u ++ []) = [] := trimLeft_append hu fun c hc => nomatch hc
    rw [List.append_nil] at hnil
    rw [List.nil_append, hnil]
    rfl
  | cons c s =>
    have hflush : Flush (c :: s ++ u) := fun d hd => hs d hd
    have hsame : trimLeft (c :: s ++ u) = c :: s ++ u := trimLeft_append (w := []) (fun _ h => nomatch h) hflush
    rw [hsame, trimRight_append hu hs']

theorem trim_trimLeft (s : List Char) : trim (trimLeft s) = trim s := by
  rw [trim, trim, trimLeft, trimLeft, List.dropWhile_idempotent]

theorem exists_append_trim (s : List Char) : ∃ w u, AllBlank w ∧ AllBlank u ∧ s = w ++ (trim s ++ u) := by
  let w := s.takeWhile isBlank
  let u := (trimLeft s).reverse.takeWhile isBlank
  have hw : AllBlank w := List.all_eq_true.1 List.all_takeWhile
  have hu : AllBlank u := List.all_eq_true.1 List.all_takeWhile
  have hleft : w ++ trimLeft s = s := List.takeWhile_append_dropWhile
  have hright : trim s ++ u.reverse = trimLeft s := by
    rw [trim, trimRight, ← List.reverse_append, List.takeWhile_append_dropWhile, List.reverse_reverse]
  exact ⟨w, u.reverse, hw, fun c hc => hu c (List.mem_reverse.1 hc), by rw [hright, hleft]⟩

theorem mem_of_mem_trim {c : Char} {s : List Char} (h : c ∈ trim s) : c ∈ s := by
  obtain ⟨w, u, -, -, hs⟩ := exists_append_trim s
  rw [hs]
  exact List.mem_append_right w (List.mem_append_left u h)

end Stencil.Text
