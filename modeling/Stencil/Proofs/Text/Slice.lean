import Stencil.Text.Bytes
/-!
# Spans of bytes

A span of a text is given by the bytes at which it starts and stops.  `slice` reads it, and `filled` puts other texts in
place of ascending spans: what lies between the spans stays as it is.
-/
namespace Stencil.Text

def dropBytes : Nat → List Char → List Char
  | 0, s => s
  | _ + 1, [] => []
  | n + 1, c :: rest => dropBytes (n + 1 - c.utf8Size) rest

def takeBytes : Nat → List Char → List Char
  | 0, _ => []
  | _ + 1, [] => []
  | n + 1, c :: rest => c :: takeBytes (n + 1 - c.utf8Size) rest

def slice (start stop : Nat) (s : List Char) : List Char := takeBytes (stop - start) (dropBytes start s)

/-- A text from a byte on, with texts put in place of ascending spans. -/
def filledFrom (s : List Char) : Nat → List (Nat × Nat) → List (List Char) → List Char
  | origin, [], _ => slice origin (byteLength s) s
  | origin, _ :: _, [] => slice origin (byteLength s) s
  | origin, (start, stop) :: spans, t :: ts => slice origin start s ++ (t ++ filledFrom s stop spans ts)

def filled (s : List Char) (spans : List (Nat × Nat)) (ts : List (List Char)) : List Char := filledFrom s 0 spans ts

theorem exists_byteLength_cons (c : Char) (a : List Char) :
    ∃ n, byteLength (c :: a) = n + 1 ∧ n + 1 - c.utf8Size = byteLength a := by
  have hc := c.utf8Size_pos
  refine ⟨c.utf8Size - 1 + byteLength a, ?_, ?_⟩
  · simp only [byteLength_cons]; omega
  · omega

theorem dropBytes_append : ∀ a b : List Char, dropBytes (byteLength a) (a ++ b) = b
  | [], b => by simp [dropBytes]
  | c :: a, b => by
    obtain ⟨n, hn, hrest⟩ := exists_byteLength_cons c a
    rw [hn, List.cons_append, dropBytes, hrest, dropBytes_append a b]

theorem takeBytes_append : ∀ a b : List Char, takeBytes (byteLength a) (a ++ b) = a
  | [], b => by simp [takeBytes]
  | c :: a, b => by
    obtain ⟨n, hn, hrest⟩ := exists_byteLength_cons c a
    rw [hn, List.cons_append, takeBytes, hrest, takeBytes_append a b]

theorem byteLength_eq_zero_iff {s : List Char} : byteLength s = 0 ↔ s = [] := by
  cases s with
  | nil => simp
  | cons c s =>
    have hc := c.utf8Size_pos
    simp only [byteLength_cons, reduceCtorEq, iff_false]
    omega

theorem exists_append_of_byteLength_le {a b s t : List Char} (h : a ++ s = b ++ t) (hle : byteLength a ≤ byteLength b) :
    ∃ between, b = a ++ between ∧ s = between ++ t := by
  rcases List.append_eq_append_iff.1 h with ⟨between, hb, hs⟩ | ⟨between, ha, ht⟩
  · exact ⟨between, hb, hs⟩
  · rw [ha, byteLength_append] at hle
    have hbetween : between = [] := byteLength_eq_zero_iff.1 (by omega)
    rw [hbetween, List.append_nil] at ha
    rw [hbetween, List.nil_append] at ht
    exact ⟨[], by rw [ha, List.append_nil], ht.symm⟩

theorem slice_append (a b c : List Char) :
    slice (byteLength a) (byteLength a + byteLength b) (a ++ (b ++ c)) = b := by
  rw [slice, dropBytes_append, Nat.add_sub_cancel_left, takeBytes_append]

theorem slice_to_end (a b : List Char) : slice (byteLength a) (byteLength (a ++ b)) (a ++ b) = b := by
  have := slice_append a b []
  rwa [List.append_nil, ← byteLength_append] at this

end Stencil.Text
