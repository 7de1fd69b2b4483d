import Stencil.Proofs.Placeholder.Splicing
/-!
# The spans of placeholders

What a placeholder is, said without searching for one: `WellFormed` bodies, and the spans of a text in which such a body
stands between its braces (`Stands`).  `ScannedFrom` says which list of spans a scan from some byte on has to give: they
are placeholders, one after the other, and every placeholder begins in one of them.

There is just one such list (`ScannedFrom.unique`), and the spans that `scan` finds are it (`scan_spans_iff`).  The
induction goes over the pieces of the text; what it carries is that the text is scanned from the next piece on.
-/
namespace Stencil.Placeholder

/-! ## The grammar of bodies -/

/-- The body of a placeholder: one or more placeholder characters.  Two closing braces that begin after its first
character, in it or at its end, are the ones that end it. -/
structure WellFormed (body : List Char) : Prop where
  ne_nil : body ≠ []
  isBodyChar : ∀ c ∈ body, isBodyChar c = true
  lazy : ∀ before after, before ≠ [] → body ++ ['}', '}'] = before ++ '}' :: '}' :: after → after = []

def ClosesAtEnd (a : List Char) : Prop := ∀ before after, a ++ ['}', '}'] = before ++ '}' :: '}' :: after → after = []

theorem closesAtEnd_nil : ClosesAtEnd [] := by
  intro before after h
  have hlen := congrArg List.length h
  simp only [List.nil_append, List.length_cons, List.length_nil, List.length_append] at hlen
  exact List.length_eq_zero_iff.1 (by omega)

theorem closesAtEnd_cons {c : Char} {a : List Char} : ClosesAtEnd (c :: a) ↔
    ¬ (c = '}' ∧ (a ++ ['}', '}']).head? = some '}') ∧ ClosesAtEnd a := by
  constructor
  · refine fun h => ⟨?_, fun before after he => h (c :: before) after (by rw [List.cons_append, he]; rfl)⟩
    rintro ⟨rfl, hhead⟩
    obtain ⟨after, hafter⟩ := List.head?_eq_some_iff.1 hhead
    have hnil := h [] after (by rw [List.cons_append, hafter]; rfl)
    have hlen := congrArg List.length hafter
    rw [hnil] at hlen
    simp only [List.length_append, List.length_cons, List.length_nil] at hlen
    omega
  · rintro ⟨hc, h⟩ before after he
    cases before with
    | nil =>
      obtain ⟨rfl, hrest⟩ := List.cons.inj he
      exact absurd ⟨rfl, congrArg List.head? hrest⟩ hc
    | cons d before => exact h before after (List.cons.inj he).2

theorem wellFormed_cons {c : Char} {a : List Char} :
    WellFormed (c :: a) ↔ isBodyChar c = true ∧ (∀ d ∈ a, isBodyChar d = true) ∧ ClosesAtEnd a := by
  constructor
  · intro h
    obtain ⟨hc, ha⟩ := List.forall_mem_cons.1 h.isBodyChar
    refine ⟨hc, ha, fun before after he => h.lazy (c :: before) after (List.cons_ne_nil _ _) ?_⟩
    rw [List.cons_append, he]
    rfl
  · rintro ⟨hc, ha, hclose⟩
    refine ⟨List.cons_ne_nil _ _, List.forall_mem_cons.2 ⟨hc, ha⟩, fun before after hne he => ?_⟩
    cases before with
    | nil => exact absurd rfl hne
    | cons d before => exact hclose before after (List.cons.inj he).2

theorem closesAtEnd_of_closing : ∀ {s body left : List Char}, closing s = some (body, left) → ClosesAtEnd body
  | [], body, left, h => by simp [closing] at h
  | c :: rest, body, left, h => by
    simp only [closing] at h
    split at h
    · cases h
      exact closesAtEnd_nil
    · rename_i hc
      split at h
      · obtain ⟨⟨b, l⟩, hr, he⟩ := Option.map_eq_some_iff.1 h
        cases he
        have hhead : rest.head? = (b ++ ['}', '}']).head? := by rw [eq_of_closing hr]; cases b <;> rfl
        rw [Bool.and_eq_true, decide_eq_true_eq, decide_eq_true_eq, hhead] at hc
        exact closesAtEnd_cons.2 ⟨hc, closesAtEnd_of_closing hr⟩
      · cases h

theorem closing_of_closesAtEnd : ∀ {body : List Char} (left : List Char), (∀ c ∈ body, isBodyChar c = true) →
    ClosesAtEnd body → closing (body ++ '}' :: '}' :: left) = some (body, left)
  | [], left, _, _ => by simp [closing]
  | c :: body, left, hchars, hclose => by
    obtain ⟨hc, hbody⟩ := List.forall_mem_cons.1 hchars
    obtain ⟨hnot, hrest⟩ := closesAtEnd_cons.1 hclose
    have hhead : (body ++ '}' :: '}' :: left).head? = (body ++ ['}', '}']).head? := by cases body <;> rfl
    have hgo : ¬ (c = '}' && (body ++ '}' :: '}' :: left).head? = some '}') = true := by
      rwa [Bool.and_eq_true, decide_eq_true_eq, decide_eq_true_eq, hhead]
    rw [List.cons_append, closing, if_neg hgo, if_pos hc, closing_of_closesAtEnd left hbody hrest, Option.map_some]

/-- **What opens a text is a well-formed body between its braces**, and all of those open it. -/
theorem opening_eq_some_iff {s body left : List Char} :
    opening s = some (body, left) ↔ WellFormed body ∧ s = written body ++ left := by
  constructor
  · intro h
    refine ⟨?_, eq_of_opening h⟩
    unfold opening at h
    split at h
    · split at h
      · rename_i hc
        obtain ⟨⟨b, l⟩, hr, he⟩ := Option.map_eq_some_iff.1 h
        cases he
        exact wellFormed_cons.2 ⟨hc, isBodyChar_of_closing hr, closesAtEnd_of_closing hr⟩
      · cases h
    · cases h
  · rintro ⟨hb, rfl⟩
    cases body with
    | nil => exact absurd rfl hb.ne_nil
    | cons c body =>
      obtain ⟨hc, hbody, hclose⟩ := wellFormed_cons.1 hb
      simp only [written, List.cons_append, List.append_assoc, List.nil_append, opening]
      rw [if_pos hc, closing_of_closesAtEnd left hbody hclose, Option.map_some]

/-! ## Spans -/

/-- A placeholder of the grammar takes the span, whose ends lie between characters of the text. -/
inductive Stands (s : List Char) : Nat × Nat → Prop
  | mk {before body after : List Char} (hb : WellFormed body) (h : s = before ++ (written body ++ after)) :
      Stands s (Text.byteLength before, Text.byteLength before + Text.byteLength (written body))

/-- **What a scan from a byte on has to find**: spans of placeholders, in order and without overlap, such that every
placeholder that begins at the byte or later begins in one of them. -/
structure ScannedFrom (origin : Nat) (s : List Char) (spans : List (Nat × Nat)) : Prop where
  stands : ∀ m ∈ spans, Stands s m
  origin_le : ∀ m ∈ spans, origin ≤ m.1
  ascending : spans.Pairwise fun m n => m.2 ≤ n.1
  complete : ∀ m, Stands s m → origin ≤ m.1 → ∃ n ∈ spans, n.1 ≤ m.1 ∧ m.1 < n.2

theorem byteLength_written_pos (body : List Char) : 0 < Text.byteLength (written body) := by
  rw [written, Text.byteLength_cons]
  have := Char.utf8Size_pos '{'
  omega

theorem Stands.lt {s : List Char} {m : Nat × Nat} (h : Stands s m) : m.1 < m.2 := by
  obtain @⟨before, body, after, -, -⟩ := h
  have := byteLength_written_pos body
  simp only
  omega

theorem Stands.of_append {a s : List Char} {m : Nat × Nat} (h : Stands (a ++ s) m) (hle : Text.byteLength a ≤ m.1) :
    ∃ between body after, WellFormed body ∧ s = between ++ (written body ++ after) ∧
      m.1 = Text.byteLength a + Text.byteLength between ∧ m.2 = m.1 + Text.byteLength (written body) := by
  obtain @⟨before, body, after, hb, he⟩ := h
  obtain ⟨between, rfl, hs⟩ := Text.exists_append_of_byteLength_le he hle
  exact ⟨between, body, after, hb, hs, Text.byteLength_append _ _, rfl⟩

theorem Stands.stop_unique {s : List Char} {m n : Nat × Nat} (hm : Stands s m) (hn : Stands s n) (h : m.1 = n.1) :
    m.2 = n.2 := by
  obtain @⟨before, body, after, hb, rfl⟩ := hm
  obtain ⟨between, body', after', hb', hs, hstart, hstop⟩ := hn.of_append (Nat.le_of_eq h)
  have hbetween : between = [] := Text.byteLength_eq_zero_iff.1 (by simp only at h; omega)
  rw [hbetween, List.nil_append] at hs
  have hopen : opening (written body ++ after) = some (body, after) := opening_eq_some_iff.2 ⟨hb, rfl⟩
  rw [opening_eq_some_iff.2 ⟨hb', hs⟩] at hopen
  cases hopen
  rw [hstop, ← h]

theorem Stands.le_of_opening {a rest : List Char} {c : Char} {m : Nat × Nat} (h : Stands (a ++ c :: rest) m)
    (hle : Text.byteLength a ≤ m.1) (ho : opening (c :: rest) = none) : Text.byteLength (a ++ [c]) ≤ m.1 := by
  obtain ⟨between, body, after, hb, hs, hstart, -⟩ := h.of_append hle
  cases between with
  | nil =>
    rw [opening_eq_some_iff.2 ⟨hb, hs⟩] at ho
    cases ho
  | cons d between =>
    cases (List.cons.inj hs).1
    simp only [Text.byteLength_append, Text.byteLength_cons, Text.byteLength_nil] at hstart ⊢
    omega

/-! ## Scans -/

namespace ScannedFrom

variable {s : List Char} {spans : List (Nat × Nat)}

theorem nil {origin : Nat} (h : ∀ m, Stands s m → m.1 < origin) : ScannedFrom origin s [] where
  stands _ hm := (List.not_mem_nil hm).elim
  origin_le _ hm := (List.not_mem_nil hm).elim
  ascending := .nil
  complete m hm hle := absurd (h m hm) (Nat.not_lt.2 hle)

theorem cons {m : Nat × Nat} (hm : Stands s m) (h : ScannedFrom m.2 s spans) : ScannedFrom m.1 s (m :: spans) where
  stands := List.forall_mem_cons.2 ⟨hm, h.stands⟩
  origin_le := List.forall_mem_cons.2
    ⟨Nat.le_refl _, fun n hn => Nat.le_trans (Nat.le_of_lt hm.lt) (h.origin_le n hn)⟩
  ascending := .cons h.origin_le h.ascending
  complete n hn hle := by
    by_cases hin : n.1 < m.2
    · exact ⟨m, List.mem_cons_self, hle, hin⟩
    · obtain ⟨k, hk, hkn⟩ := h.complete n hn (Nat.not_lt.1 hin)
      exact ⟨k, List.mem_cons_of_mem _ hk, hkn⟩

theorem of_le {origin later : Nat} (h : ScannedFrom later s spans) (hle : origin ≤ later)
    (hnone : ∀ m, Stands s m → origin ≤ m.1 → later ≤ m.1) : ScannedFrom origin s spans where
  stands := h.stands
  origin_le m hm := Nat.le_trans hle (h.origin_le m hm)
  ascending := h.ascending
  complete m hm hm' := h.complete m hm (hnone m hm hm')

theorem head_le {origin : Nat} {m n : Nat × Nat} (h : ScannedFrom origin s (m :: spans)) (hn : Stands s n)
    (hle : origin ≤ n.1) : m.1 ≤ n.1 := by
  obtain ⟨k, hk, hkn, -⟩ := h.complete n hn hle
  rcases List.mem_cons.1 hk with rfl | hk
  · exact hkn
  · have hm := (h.stands m List.mem_cons_self).lt
    have hmk := (List.pairwise_cons.1 h.ascending).1 k hk
    omega

theorem tail {origin : Nat} {m : Nat × Nat} (h : ScannedFrom origin s (m :: spans)) : ScannedFrom m.2 s spans where
  stands n hn := h.stands n (List.mem_cons_of_mem _ hn)
  origin_le := (List.pairwise_cons.1 h.ascending).1
  ascending := (List.pairwise_cons.1 h.ascending).2
  complete n hn hle := by
    have hm := (h.stands m List.mem_cons_self).lt
    have hom := h.origin_le m List.mem_cons_self
    obtain ⟨k, hk, hkn, hlt⟩ := h.complete n hn (by omega)
    rcases List.mem_cons.1 hk with rfl | hk
    · exact absurd hlt (Nat.not_lt.2 hle)
    · exact ⟨k, hk, hkn, hlt⟩

/-- **At most one list of spans is what a scan has to find.** -/
theorem unique : ∀ {origin : Nat} {spans spans' : List (Nat × Nat)}, ScannedFrom origin s spans →
    ScannedFrom origin s spans' → spans = spans'
  | _, [], [], _, _ => rfl
  | _, [], n :: _, h, h' => by
    obtain ⟨k, hk, -⟩ := h.complete n (h'.stands n List.mem_cons_self) (h'.origin_le n List.mem_cons_self)
    exact (List.not_mem_nil hk).elim
  | _, m :: _, [], h, h' => by
    obtain ⟨k, hk, -⟩ := h'.complete m (h.stands m List.mem_cons_self) (h.origin_le m List.mem_cons_self)
    exact (List.not_mem_nil hk).elim
  | _, m :: _, n :: _, h, h' => by
    -- each of the two first spans is where the first placeholder begins
    have hm := h.stands m List.mem_cons_self
    have hn := h'.stands n List.mem_cons_self
    have hstart : m.1 = n.1 := Nat.le_antisymm (h.head_le hn (h'.origin_le n List.mem_cons_self))
      (h'.head_le hm (h.origin_le m List.mem_cons_self))
    have hmn : m = n := Prod.ext hstart (hm.stop_unique hn hstart)
    subst hmn
    rw [unique h.tail h'.tail]

end ScannedFrom

/-- **The spans of located pieces are what a scan from the first of them has to find.**  Everything up to `a` is done
with. -/
theorem scannedFrom_locate (a s : List Char) :
    ScannedFrom (Text.byteLength a) (a ++ s) ((locate (Text.byteLength a) (pieces s)).map span) := by
  -- along the search: `a` grows by a whole placeholder where one opens, by one character where none does
  fun_induction pieces s generalizing a with
  | case1 =>
    refine .nil fun m hm => Nat.not_le.1 fun hle => ?_
    obtain ⟨between, body, after, -, hs, -⟩ := hm.of_append hle
    have hlen := congrArg List.length hs
    simp only [written, List.length_append, List.length_cons, List.length_nil] at hlen
    omega
  | case2 c rest body left ho ih =>
    obtain ⟨hb, hs⟩ := opening_eq_some_iff.1 ho
    have hrest := ih (a ++ written body)
    rw [Text.byteLength_append, List.append_assoc, ← hs] at hrest
    exact .cons (.mk hb (by rw [hs])) hrest
  | case3 c rest ho ih =>
    have hrest := ih (a ++ [c])
    rw [List.append_assoc, List.singleton_append] at hrest
    have hnext : Text.byteLength (a ++ [c]) = Text.byteLength a + c.utf8Size := by
      rw [Text.byteLength_append, Text.byteLength_cons, Text.byteLength_nil, Nat.add_zero]
    refine ScannedFrom.of_le ?_ (Nat.le_add_right _ c.utf8Size) fun m hm hle => ?_
    · rw [locate, ← hnext]
      exact hrest
    · rw [← hnext]
      exact hm.le_of_opening hle ho

/-! ## Texts -/

theorem text_eq_slice_of_mem_locate (a s : List Char) :
    ∀ p ∈ locate (Text.byteLength a) (pieces s), p.text.toList = Text.slice p.start p.stop (a ++ s) := by
  fun_induction pieces s generalizing a with
  | case1 => exact fun p hp => (List.not_mem_nil hp).elim
  | case2 c rest body left ho ih =>
    have hs := eq_of_opening ho
    have hrest := ih (a ++ written body)
    rw [Text.byteLength_append, List.append_assoc, ← hs] at hrest
    refine List.forall_mem_cons.2 ⟨?_, hrest⟩
    rw [hs, ofBody, String.toList_ofList, Text.slice_append]
  | case3 c rest ho ih =>
    have hrest := ih (a ++ [c])
    rw [Text.byteLength_append, List.append_assoc, List.singleton_append] at hrest
    exact hrest

theorem fill_texts (start : Nat) (ps : List Piece) :
    fill ps ((locate start ps).map (·.text.toList)) = ps.flatMap Piece.written := by
  induction ps generalizing start with
  | nil => rfl
  | cons p ps ih =>
    cases p with
    | plain c => rw [locate, fill, ih]; rfl
    | hole body => rw [locate, List.map_cons, fill, ih, ofBody, String.toList_ofList]; rfl

/-- **The spans found in a text are the one list of spans that its placeholders take**: they are placeholders of the
grammar, ascending and apart from each other, and every placeholder begins in one of them.  What is found at a span is
what the text has there, so that with it in the spans the text is complete. -/
theorem scan_spans_iff (input : String) :
    (∀ spans, ScannedFrom 0 input.toList spans ↔ (scan input).map span = spans) ∧
      (∀ p ∈ scan input, p.text.toList = Text.slice p.start p.stop input.toList) ∧
      Text.filled input.toList ((scan input).map span) ((scan input).map (·.text.toList)) = input.toList := by
  have hscan : ScannedFrom 0 input.toList ((scan input).map span) := scannedFrom_locate [] input.toList
  refine ⟨fun spans => ⟨hscan.unique, ?_⟩, text_eq_slice_of_mem_locate [] input.toList, ?_⟩
  · rintro rfl
    exact hscan
  · have hfill := fill_eq_filledFrom [] [] input.toList ((scan input).map (·.text.toList))
    rw [List.nil_append, List.nil_append, scan, fill_texts, flatMap_written_pieces] at hfill
    exact hfill.symm

end Stencil.Placeholder
