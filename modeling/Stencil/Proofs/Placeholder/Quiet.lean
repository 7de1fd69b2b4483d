import Stencil.Placeholder
import Stencil.Text.Splice
/-!
# Texts in which no placeholder begins

A text is *quiet before* another if no placeholder begins in it when the other follows.  It is *inert* if it is quiet
before every text: each of its two opening braces fails within it, whatever comes next.

Pieces of a source are quiet before the rest of the source.  What stands between two placeholders is even inert
(`inert_of_quiet_written`): a start that ran on into the next placeholder would have found the braces that close it.  So
the literal parts of a source stay quiet when placeholders are replaced, and the first place that reads like a
placeholder is its own (`replaceFirst_of_quiet`).
-/
namespace Stencil.Placeholder

/-- No placeholder begins in the first text when the second follows it. -/
def Quiet : List Char → List Char → Prop
  | [], _ => True
  | c :: a, s => opening (c :: (a ++ s)) = none ∧ Quiet a s

/-- No placeholder begins in a text, whatever follows it. -/
structure Inert (a : List Char) : Prop where
  quiet : ∀ s, Quiet a s

/-- A body whose placeholder is read as such, whatever follows it. -/
def IsBody (body : List Char) : Prop := ∀ s, opening (written body ++ s) = some (body, s)

/-! ## Bodies -/

theorem closing_append : ∀ {body left : List Char} (s : List Char),
    closing (body ++ '}' :: '}' :: left) = some (body, left) →
      closing (body ++ '}' :: '}' :: s) = some (body, s)
  | [], left, s, _ => by simp [closing]
  | c :: body, left, s, h => by
    have hhead : (body ++ '}' :: '}' :: s).head? = (body ++ '}' :: '}' :: left).head? := by cases body <;> rfl
    simp only [List.cons_append, closing] at h ⊢
    rw [hhead]
    split at h
    · simp only [Option.some.injEq, Prod.mk.injEq, List.nil_eq, reduceCtorEq, false_and] at h
    · rename_i hc
      rw [if_neg hc]
      split at h
      · rename_i hb
        obtain ⟨⟨b, l⟩, hr, he⟩ := Option.map_eq_some_iff.1 h
        simp only [Prod.mk.injEq, List.cons.injEq, true_and] at he
        obtain ⟨rfl, rfl⟩ := he
        rw [if_pos hb, closing_append s hr, Option.map_some]
      · cases h

/-- **What opens a text is read off it whatever follows.** -/
theorem isBody_of_opening {s body left : List Char} (h : opening s = some (body, left)) : IsBody body := by
  intro t
  have hs := eq_of_opening h
  subst hs
  cases body with
  | nil =>
    -- two braces right after the opening ones are the start of a body
    exfalso
    simp only [written, List.nil_append, List.cons_append, opening] at h
    split at h
    · obtain ⟨⟨b, l⟩, -, he⟩ := Option.map_eq_some_iff.1 h
      cases he
    · cases h
  | cons c body =>
    simp only [written, List.cons_append, List.append_assoc, List.nil_append, opening] at h ⊢
    split at h
    · rename_i hc
      obtain ⟨⟨b, l⟩, hr, he⟩ := Option.map_eq_some_iff.1 h
      simp only [Prod.mk.injEq, List.cons.injEq, true_and] at he
      obtain ⟨rfl, rfl⟩ := he
      rw [if_pos hc, closing_append t hr, Option.map_some]
    · cases h

theorem isBodyChar_of_isAlphanum {c : Char} (h : c.isAlphanum = true) : isBodyChar c = true := by
  simp [isBodyChar, h]

theorem isBodyChar_of_closing : ∀ {s body left : List Char}, closing s = some (body, left) →
    ∀ c ∈ body, isBodyChar c = true
  | [], body, left, h => by simp [closing] at h
  | d :: rest, body, left, h => by
    simp only [closing] at h
    split at h
    · cases h; simp
    · split at h
      · rename_i hd
        obtain ⟨⟨b, l⟩, hr, he⟩ := Option.map_eq_some_iff.1 h
        cases he
        exact List.forall_mem_cons.2 ⟨hd, isBodyChar_of_closing hr⟩
      · cases h

theorem IsBody.isBodyChar {body : List Char} (hb : IsBody body) : ∀ c ∈ body, isBodyChar c = true := by
  have h := hb []
  unfold opening at h
  split at h
  · split at h
    · rename_i hd
      obtain ⟨⟨b, l⟩, hr, he⟩ := Option.map_eq_some_iff.1 h
      cases he
      exact List.forall_mem_cons.2 ⟨hd, isBodyChar_of_closing hr⟩
    · cases h
  · cases h

theorem closing_isSome : ∀ {b : List Char} (s : List Char), (∀ c ∈ b, isBodyChar c = true) →
    (closing (b ++ '}' :: '}' :: s)).isSome = true
  | [], s, _ => by simp [closing]
  | c :: b, s, h => by
    have hc := h c List.mem_cons_self
    have ih := closing_isSome s fun d hd => h d (List.mem_cons_of_mem _ hd)
    simp only [List.cons_append, closing, hc, if_true]
    split
    · rfl
    · rw [Option.isSome_map]; exact ih

theorem closing_written_isSome {body : List Char} (hb : IsBody body) (s : List Char) :
    (closing (written body ++ s)).isSome = true := by
  have h : ∀ c ∈ '{' :: '{' :: body, isBodyChar c = true :=
    List.forall_mem_cons.2 ⟨by decide, List.forall_mem_cons.2 ⟨by decide, hb.isBodyChar⟩⟩
  have := closing_isSome s h
  simpa [written] using this

/-! ## Starts that fail -/

/-- A body that does not close before a placeholder does not close at all: in the placeholder it would. -/
theorem closing_eq_none {body : List Char} (hb : IsBody body) {s : List Char} : ∀ {a : List Char},
    closing (a ++ (written body ++ s)) = none → ∀ t, closing (a ++ t) = none
  | [], h, t => by
    have := closing_written_isSome hb s
    rw [List.nil_append] at h
    rw [h] at this; cases this
  | c :: a, h, t => by
    simp only [List.cons_append, closing] at h ⊢
    split at h
    · cases h
    rename_i hc
    split at h
    · rename_i hd
      have ih := closing_eq_none hb (Option.map_eq_none_iff.1 h)
      cases a with
      | nil =>
        -- the place right before the placeholder cannot fail, for the placeholder closes it
        have := closing_written_isSome hb s
        rw [List.nil_append] at h
        rw [Option.map_eq_none_iff.1 h] at this; cases this
      | cons d a =>
        have hhead : (d :: a ++ t).head? = (d :: a ++ (written body ++ s)).head? := rfl
        rw [hhead, if_neg hc, if_pos hd, ih t, Option.map_none]
    · rename_i hd
      rw [if_neg hd]
      split
      · rename_i hc'
        simp only [Bool.and_eq_true, decide_eq_true_eq] at hc'
        rw [hc'.1] at hd
        exact absurd rfl hd
      · rfl

theorem opening_of_ne {c : Char} (hc : c ≠ '{') (s : List Char) : opening (c :: s) = none := by
  unfold opening; split
  · rename_i he; exact absurd (List.cons.inj he).1 hc
  · rfl

theorem opening_brace_of_ne {c : Char} (hc : c ≠ '{') (s : List Char) : opening ('{' :: c :: s) = none := by
  unfold opening; split
  · rename_i he; exact absurd (List.cons.inj (List.cons.inj he).2).1 hc
  · rfl

/-- **A start that fails before a placeholder fails by itself**: it never got as far as the placeholder. -/
theorem opening_eq_none {body : List Char} (hb : IsBody body) {s : List Char} {c : Char} {a : List Char}
    (h : opening (c :: (a ++ (written body ++ s))) = none) (t : List Char) : opening (c :: (a ++ t)) = none := by
  have hbrace : isBodyChar '{' = true := by decide
  by_cases hc : c = '{'
  · subst hc
    cases a with
    | nil =>
      -- a brace right before the placeholder would have been the first of a longer one
      have hsome := closing_isSome s hb.isBodyChar
      simp only [written, List.nil_append, List.cons_append, List.append_assoc, opening, hbrace, if_true,
        Option.map_eq_none_iff] at h
      rw [h] at hsome; cases hsome
    | cons d a =>
      by_cases hd : d = '{'
      · subst hd
        cases a with
        | nil =>
          have hsome := closing_isSome s (List.forall_mem_cons.2 ⟨hbrace, hb.isBodyChar⟩)
          simp only [written, List.nil_append, List.cons_append, List.append_assoc, opening, hbrace, if_true,
            Option.map_eq_none_iff] at h hsome
          rw [h] at hsome; cases hsome
        | cons e a =>
          simp only [List.cons_append, opening] at h ⊢
          split at h
          · rename_i he
            rw [if_pos he, closing_eq_none hb (Option.map_eq_none_iff.1 h) t, Option.map_none]
          · rename_i he
            rw [if_neg he]
      · exact opening_brace_of_ne hd _
  · exact opening_of_ne hc _

/-! ## Quiet texts -/

theorem quiet_append : ∀ {a b s : List Char}, Quiet (a ++ b) s ↔ Quiet a (b ++ s) ∧ Quiet b s
  | [], b, s => by simp [Quiet]
  | c :: a, b, s => by
    simp only [List.cons_append, Quiet, List.append_assoc, quiet_append (a := a), and_assoc]

/-- **A text that is quiet before a placeholder is inert.** -/
theorem inert_of_quiet_written {body : List Char} (hb : IsBody body) {s : List Char} :
    ∀ {a : List Char}, Quiet a (written body ++ s) → Inert a
  | [], _ => ⟨fun _ => trivial⟩
  | _ :: _, h => ⟨fun t => ⟨opening_eq_none hb h.1 t, (inert_of_quiet_written hb h.2).quiet t⟩⟩

theorem Inert.append {a b : List Char} (ha : Inert a) (hb : Inert b) : Inert (a ++ b) :=
  ⟨fun s => quiet_append.2 ⟨ha.quiet (b ++ s), hb.quiet s⟩⟩

theorem inert_of_not_mem : ∀ {a : List Char}, '{' ∉ a → Inert a
  | [], _ => ⟨fun _ => trivial⟩
  | c :: _, h =>
    have hc : c ≠ '{' := fun e => h (e ▸ List.mem_cons_self)
    have hrest := inert_of_not_mem fun m => h (List.mem_cons_of_mem _ m)
    ⟨fun s => ⟨opening_of_ne hc _, hrest.quiet s⟩⟩

theorem Inert.brace_cons {c : Char} {a : List Char} (hc : c ≠ '{') (h : Inert (c :: a)) : Inert ('{' :: c :: a) :=
  ⟨fun s => ⟨opening_brace_of_ne hc _, h.quiet s⟩⟩

theorem locate_pieces_append : ∀ {a s : List Char} (start : Nat), Quiet a s →
    locate start (pieces (a ++ s)) = locate (start + Text.byteLength a) (pieces s)
  | [], _, _, _ => rfl
  | c :: a, s, start, h => by
    have hc : opening (c :: (a ++ s)) = none := h.1
    rw [List.cons_append, pieces]
    split
    · rename_i body left ho; rw [hc] at ho; cases ho
    · rw [locate, locate_pieces_append _ h.2, Text.byteLength_cons, Nat.add_assoc]

theorem scan_of_quiet {text : String} (h : Quiet text.toList []) : scan text = [] := by
  have hnone := locate_pieces_append 0 h
  rw [List.append_nil, pieces] at hnone
  exact hnone

/-! ## Replacing -/

theorem not_isPrefixOf_of_opening {body : List Char} (hb : IsBody body) {s : List Char} (h : opening s = none) :
    (written body).isPrefixOf s = false := by
  refine Bool.eq_false_iff.2 fun hp => ?_
  obtain ⟨t, rfl⟩ := List.isPrefixOf_iff_prefix.1 hp
  rw [hb t] at h; cases h

theorem replaceFirst_append_of_quiet {body : List Char} (hb : IsBody body) (new s : List Char) :
    ∀ {a : List Char}, Quiet a s → Text.replaceFirst (written body) new (a ++ s) = a ++ Text.replaceFirst (written body) new s
  | [], _ => rfl
  | c :: a, h => by
    have hp := not_isPrefixOf_of_opening hb h.1
    rw [List.cons_append, Text.replaceFirst, if_neg (by rw [hp]; decide), replaceFirst_append_of_quiet hb new s h.2,
      List.cons_append]

/-- **The first place that reads like a placeholder is its own**, if what stands before it is quiet. -/
theorem replaceFirst_of_quiet {body : List Char} (hb : IsBody body) (new s : List Char) {a : List Char}
    (h : Quiet a (written body ++ s)) :
    Text.replaceFirst (written body) new (a ++ (written body ++ s)) = a ++ (new ++ s) := by
  have hp : (written body).isPrefixOf (written body ++ s) = true :=
    List.isPrefixOf_iff_prefix.2 (List.prefix_append _ _)
  have hd : (written body ++ s).drop (written body).length = s := List.drop_left
  rw [replaceFirst_append_of_quiet hb new _ h]
  rw [written, List.cons_append] at hp hd ⊢
  rw [Text.replaceFirst, if_pos hp, hd]

end Stencil.Placeholder
