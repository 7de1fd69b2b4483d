import Stencil.Proofs.Placeholder.Quiet
import Stencil.Proofs.Text.Slice
/-!
# Putting texts in place of placeholders

There are two ways to put texts in place of the placeholders of a source.  `replaceAll` takes the placeholders one by one
and replaces the first place in the text made so far that reads like the placeholder.  `fill` puts every text right where
its placeholder stands, and `fill_eq_filledFrom` says that this is what the spans of the placeholders mean.

Both agree as long as every text but the last is inert (`replaceAll_eq_filled`).  The induction goes over the pieces of
the source; what it carries is that the text made so far is quiet before the pieces to come.
-/
namespace Stencil.Placeholder

def span (p : Placeholder) : Nat × Nat := (p.start, p.stop)

/-- Replaces placeholders one after the other, each in the first place that reads like it. -/
def replaceAll : List Char → List Placeholder → List (List Char) → List Char
  | out, [], _ => out
  | out, _ :: _, [] => out
  | out, p :: ps, t :: ts => replaceAll (Text.replaceFirst p.text.toList t out) ps ts

def fill : List Piece → List (List Char) → List Char
  | [], _ => []
  | .plain c :: ps, ts => c :: fill ps ts
  | .hole body :: ps, [] => written body ++ fill ps []
  | .hole _ :: ps, t :: ts => t ++ fill ps ts

theorem fill_nil : ∀ ps : List Piece, fill ps [] = ps.flatMap Piece.written
  | [] => rfl
  | .plain c :: ps => by rw [fill, fill_nil ps]; rfl
  | .hole body :: ps => by rw [fill, fill_nil ps]; rfl

theorem fill_pieces_nil (s : List Char) : fill (pieces s) [] = s := by
  rw [fill_nil, flatMap_written_pieces]

/-- **Filling the holes is filling the spans.**  Of the source `a ++ b ++ s`, everything up to `a` is done with, and `b`
lies between the last hole and the pieces to come. -/
theorem fill_eq_filledFrom (a b s : List Char) (ts : List (List Char)) :
    b ++ fill (pieces s) ts = Text.filledFrom (a ++ (b ++ s)) (Text.byteLength a)
      ((locate (Text.byteLength a + Text.byteLength b) (pieces s)).map span) ts := by
  fun_induction pieces s generalizing a b ts with
  | case1 =>
    rw [fill, List.append_nil, locate, List.map_nil, Text.filledFrom, Text.slice_to_end]
  | case2 c rest body left ho ih =>
    cases ts with
    | nil =>
      rw [fill, fill_pieces_nil, ← eq_of_opening ho, locate, List.map_cons, Text.filledFrom, Text.slice_to_end]
    | cons t ts =>
      have hslice : Text.slice (Text.byteLength a) (Text.byteLength a + Text.byteLength b) (a ++ (b ++ (c :: rest))) = b :=
        Text.slice_append ..
      have hdone := ih (a ++ (b ++ written body)) [] ts
      simp only [List.nil_append, Text.byteLength_append, Text.byteLength_nil, Nat.add_zero, ← Nat.add_assoc,
        List.append_assoc, ← eq_of_opening ho] at hdone
      simp only [fill, locate, List.map_cons, span, ofBody, Text.filledFrom]
      rw [hslice, hdone]
  | case3 c rest ho ih =>
    have hnext := ih a (b ++ [c]) ts
    simp only [Text.byteLength_append, Text.byteLength_cons, Text.byteLength_nil, Nat.add_zero, ← Nat.add_assoc,
      List.append_assoc, List.singleton_append] at hnext
    rw [fill, locate, hnext]

/-- **Replacing one by one is filling**, if all texts but the last are inert and the text made so far is quiet before the
source to come. -/
theorem replaceAll_append_eq_fill (a s : List Char) (start : Nat) (ts : List (List Char)) (hq : Quiet a s)
    (hts : ∀ t ∈ ts.dropLast, Inert t) :
    replaceAll (a ++ s) (locate start (pieces s)) ts = a ++ fill (pieces s) ts := by
  fun_induction pieces s generalizing a start ts with
  | case1 => rw [locate, replaceAll, fill]
  | case2 c rest body left ho ih =>
    have hb := isBody_of_opening ho
    rw [eq_of_opening ho] at hq ⊢
    cases ts with
    | nil => rw [locate, replaceAll, fill, fill_pieces_nil]
    | cons t ts =>
      rw [locate, replaceAll, fill]
      simp only [ofBody, String.toList_ofList]
      rw [replaceFirst_of_quiet hb t left hq]
      cases ts with
      | nil => cases hl : locate (start + Text.byteLength (written body)) (pieces left) <;>
          rw [replaceAll, fill_pieces_nil]
      | cons u ts =>
        have ht : Inert t := hts t (by rw [List.dropLast_cons_cons]; exact List.mem_cons_self)
        have hat : Quiet (a ++ t) left := ((inert_of_quiet_written hb hq).append ht).quiet left
        have hmore : ∀ v ∈ (u :: ts).dropLast, Inert v := fun v hv =>
          hts v (by rw [List.dropLast_cons_cons]; exact List.mem_cons_of_mem _ hv)
        rw [← List.append_assoc, ih (a ++ t) _ (u :: ts) hat hmore, List.append_assoc]
  | case3 c rest ho ih =>
    have hac : Quiet (a ++ [c]) rest := quiet_append.2 ⟨hq, ho, trivial⟩
    have hnext := ih (a ++ [c]) (start + c.utf8Size) ts hac hts
    rw [locate, fill]
    rwa [List.append_assoc, List.append_assoc, List.singleton_append, List.singleton_append] at hnext

theorem replaceAll_eq_filled (source : String) (ts : List (List Char)) (hts : ∀ t ∈ ts.dropLast, Inert t) :
    replaceAll source.toList (scan source) ts = Text.filled source.toList ((scan source).map span) ts := by
  have hfill := fill_eq_filledFrom [] [] source.toList ts
  have hrep := replaceAll_append_eq_fill [] source.toList 0 ts trivial hts
  rw [List.nil_append, List.nil_append] at hfill hrep
  rw [scan, hrep, hfill]
  rfl

theorem quiet_fill (a s : List Char) (start : Nat) (ts : List (List Char)) (hq : Quiet a s)
    (hts : ∀ t ∈ ts, Inert t) (hlen : ts.length = (locate start (pieces s)).length) :
    Quiet (a ++ fill (pieces s) ts) [] := by
  fun_induction pieces s generalizing a start ts with
  | case1 => rw [fill, List.append_nil]; exact hq
  | case2 c rest body left ho ih =>
    rw [eq_of_opening ho] at hq
    cases ts with
    | nil => cases hlen
    | cons t ts =>
      have hat : Quiet (a ++ t) left :=
        ((inert_of_quiet_written (isBody_of_opening ho) hq).append (hts t List.mem_cons_self)).quiet left
      have hlen' : ts.length = (locate (start + Text.byteLength (written body)) (pieces left)).length :=
        Nat.succ.inj hlen
      rw [fill, ← List.append_assoc]
      exact ih (a ++ t) _ ts hat (fun u hu => hts u (List.mem_cons_of_mem _ hu)) hlen'
  | case3 c rest ho ih =>
    have hac : Quiet (a ++ [c]) rest := quiet_append.2 ⟨hq, ho, trivial⟩
    have hnext := ih (a ++ [c]) (start + c.utf8Size) ts hac hts hlen
    rw [fill]
    rwa [List.append_assoc, List.singleton_append] at hnext

/-- **No placeholder is left in a text whose placeholders are all replaced by inert texts.** -/
theorem scan_replaceAll (source : String) (ts : List (List Char)) (hts : ∀ t ∈ ts, Inert t)
    (hlen : ts.length = (scan source).length) :
    scan (String.ofList (replaceAll source.toList (scan source) ts)) = [] := by
  have hquiet := quiet_fill [] source.toList 0 ts trivial hts hlen
  have hrep := replaceAll_append_eq_fill [] source.toList 0 ts trivial fun t ht => hts t (List.dropLast_subset _ ht)
  rw [List.nil_append, List.nil_append] at hrep
  rw [List.nil_append] at hquiet
  refine scan_of_quiet ?_
  rw [String.toList_ofList, scan, hrep]
  exact hquiet

end Stencil.Placeholder
