import Stencil.Proofs.Expr.Lexemes
import Stencil.Proofs.Expr.Results
import Stencil.Proofs.Text.Trimming
/-!
# Blanks between tokens

Of what follows a token no more decides where it ends than the next character and, behind a number, the one after a point.
So a token is read alike before two texts of which the second goes on as the first does, or with a blank
(`Token.first_loosen`).

A text is widened by putting blanks before, between and behind its tokens (`Token.Widens`).  That neither splits a token nor
makes one of two, and so the tokens stay the same (`Token.read?_of_widens`).  Blanks at both ends of a text do not matter
either, even if there is a fault in it (`Token.read?_trim`).  An expression is read from the tokens alone
(`Expr.parse_widened`).
-/
namespace Stencil

theorem Text.run_of_dropWhile {p : Char → Bool} {s u : List Char} (h : (s ++ u).dropWhile p = u) :
    (s ++ u).takeWhile p = s ∧ (∀ c ∈ s, p c = true) ∧ ∀ c, u.head? = some c → p c = false := by
  have hsplit : (s ++ u).takeWhile p ++ (s ++ u).dropWhile p = s ++ u := List.takeWhile_append_dropWhile
  rw [h] at hsplit
  have htake := List.append_cancel_right hsplit
  refine ⟨htake, ?_, fun c hc => ?_⟩
  · rw [← htake]
    exact List.all_eq_true.1 List.all_takeWhile
  · have hhead := List.head?_dropWhile_not p (s ++ u)
    rw [h, hc] at hhead
    exact hhead

namespace Token

/-! ## What follows a token -/

/-- **A text goes on as another does, or with a blank**, as far as a token that stands before it can tell. -/
structure Loosens (left left' : List Char) : Prop where
  next : ∀ d, left'.head? = some d → Text.isBlank d = true ∨ left.head? = some d
  point : ∀ d more, left' = '.' :: d :: more → Text.isBlank d = true ∨ ∃ more', left = '.' :: d :: more'

theorem Loosens.append (left u : List Char) : Loosens (left ++ u) left where
  next d hd := .inr (by rw [List.head?_append, hd]; rfl)
  point d more hleft := .inr ⟨more ++ u, by rw [hleft]; rfl⟩

section Loosen

variable {left left' : List Char}

theorem Loosens.ends (hl : Loosens left left') {p : Char → Bool} (hp : ∀ {c}, Text.isBlank c = true → p c = false)
    (h : ∀ c, left.head? = some c → p c = false) : ∀ c, left'.head? = some c → p c = false := by
  intro c hc
  rcases hl.next c hc with hblank | hsame
  · exact hp hblank
  · exact h c hsame

theorem isNameChar_of_isBlank {c : Char} (h : Text.isBlank c = true) : isNameChar c = false := by
  refine Bool.eq_false_iff.2 fun hname => ?_
  rw [isBlank_of_isNameChar hname] at h
  cases h

theorem isDigit_of_isBlank {c : Char} (h : Text.isBlank c = true) : c.isDigit = false := by
  refine Bool.eq_false_iff.2 fun hdigit => ?_
  have hname := isNameChar_of_isDigit hdigit
  rw [isNameChar_of_isBlank h] at hname
  cases hname

theorem number_cases {s : List Char} {t : Token} (h : number s = .ok (t, left)) :
    (∃ whole fraction, s = whole ++ '.' :: (fraction ++ left) ∧ (∀ c ∈ whole, c.isDigit = true) ∧ fraction ≠ [] ∧
        (fraction ++ left).dropWhile Char.isDigit = left ∧ t = decimal whole fraction) ∨
      s.dropWhile Char.isDigit = left ∧ integer (s.takeWhile Char.isDigit) = .ok t ∧
        ∀ d more, left = '.' :: d :: more → d.isDigit = false := by
  have hsplit : s.takeWhile Char.isDigit ++ s.dropWhile Char.isDigit = s := List.takeWhile_append_dropWhile
  unfold number at h
  simp only at h
  split at h
  · rename_i d more hdrop
    split at h
    · rename_i hd
      obtain ⟨rfl, hleft⟩ := Prod.mk.inj (Except.ok.inj h)
      have hrest : (d :: more).takeWhile Char.isDigit ++ left = d :: more := by
        rw [← hleft]
        exact List.takeWhile_append_dropWhile
      have hs : s = s.takeWhile Char.isDigit ++ '.' :: ((d :: more).takeWhile Char.isDigit ++ left) := by
        rw [hrest, ← hdrop, hsplit]
      exact .inl ⟨_, _, hs, List.all_eq_true.1 List.all_takeWhile, by simp [hd], by rw [hrest, hleft], rfl⟩
    · rename_i hd
      obtain ⟨t', ht, heq⟩ := ok_of_map_ok h
      obtain ⟨rfl, rfl⟩ := Prod.mk.inj heq
      refine .inr ⟨rfl, ht, fun d' more' hpoint => ?_⟩
      rw [hdrop] at hpoint
      cases hpoint
      exact Bool.eq_false_iff.2 hd
  · rename_i hnone
    obtain ⟨t', ht, heq⟩ := ok_of_map_ok h
    obtain ⟨rfl, rfl⟩ := Prod.mk.inj heq
    exact .inr ⟨rfl, ht, fun d more hpoint => absurd hpoint (hnone d more)⟩

theorem number_loosen {s : List Char} {t : Token} (h : number (s ++ left) = .ok (t, left)) (hl : Loosens left left') :
    number (s ++ left') = .ok (t, left') := by
  rcases number_cases h with ⟨whole, fraction, hs, hwhole, hne, hdrop, rfl⟩ | ⟨hdrop, hinteger, hpoint⟩
  · obtain ⟨-, hfraction, hnext⟩ := Text.run_of_dropWhile hdrop
    rw [← List.cons_append, ← List.append_assoc] at hs
    rw [List.append_cancel_right hs, List.append_assoc, List.cons_append]
    exact number_point hwhole hfraction hne (hl.ends isDigit_of_isBlank hnext)
  · obtain ⟨htake, hdigits, hnext⟩ := Text.run_of_dropWhile hdrop
    rw [htake] at hinteger
    rw [number_append hdigits (hl.ends isDigit_of_isBlank hnext), hinteger]
    · rfl
    · intro d more hleft
      rcases hl.point d more hleft with hblank | ⟨more', hsame⟩
      · exact isDigit_of_isBlank hblank
      · exact hpoint d more' hsame

theorem isBlank_of_mem_sign (s : Symbol) : ∀ c ∈ s.sign.toList, Text.isBlank c = false := by
  have hany : s.sign.toList.any Text.isBlank = false := by cases s <;> decide
  simpa using List.any_eq_false.1 hany

theorem isBlank_of_double? {c second : Char} {long : Symbol} {alone : Except Fault Symbol}
    (h : double? c = some (second, long, alone)) : Text.isBlank second = false :=
  isBlank_of_mem_sign long second (by rw [(sign_of_double? h).1]; simp)

theorem first_loosen_of_double? {c second : Char} {long : Symbol} {alone : Except Fault Symbol} (hs : single? c = none)
    (hd : double? c = some (second, long, alone)) {taken : List Char} {t : Token}
    (h : first c (taken ++ left) = .ok (t, left)) (hl : Loosens left left') : first c (taken ++ left') = .ok (t, left') := by
  rw [first_of_double? hs hd] at h ⊢
  split at h
  · rename_i hhead
    obtain ⟨rfl, htail⟩ := Prod.mk.inj (Except.ok.inj h)
    have htaken : taken ++ left = [second] ++ left := by
      rw [List.singleton_append, ← List.cons_head?_tail hhead, htail]
    rw [List.append_cancel_right htaken]
    exact if_pos rfl
  · rename_i hhead
    obtain ⟨s, hs, heq⟩ := ok_of_map_ok h
    obtain ⟨rfl, htaken⟩ := Prod.mk.inj heq
    -- the symbol is taken alone, and what follows does not make it a longer one
    obtain rfl : taken = [] := List.append_left_eq_self.1 htaken
    have hhead' : ¬ left'.head? = some second := fun hsecond => by
      rcases hl.next second hsecond with hblank | hsame
      · rw [isBlank_of_double? hd] at hblank
        cases hblank
      · exact hhead hsame
    rw [List.nil_append, if_neg hhead', hs]
    rfl

/-- **A token is taken alike off two texts of which the second goes on as the first does, or with a blank.** -/
theorem first_loosen {c : Char} {taken : List Char} {t : Token} (h : first c (taken ++ left) = .ok (t, left))
    (hl : Loosens left left') : first c (taken ++ left') = .ok (t, left') := by
  have hread := h
  unfold first at h
  split at h
  · rename_i s hs
    obtain ⟨rfl, htaken⟩ := Prod.mk.inj (Except.ok.inj h)
    rw [List.append_left_eq_self.1 htaken, first, hs]
    rfl
  rename_i hs
  split at h
  · rename_i hd
    exact first_loosen_of_double? hs hd hread hl
  rename_i hd
  split at h
  · rename_i hquote
    split at h
    · rename_i body rest hrest
      obtain ⟨rfl, rfl⟩ := Prod.mk.inj (Except.ok.inj h)
      obtain ⟨written, hq, hsplit⟩ := quoted_of_stringRest hrest
      rw [← List.singleton_append, ← List.append_assoc] at hsplit
      have hmark : c ≠ '\\' := by
        rintro rfl
        exact absurd hquote (by decide)
      rw [List.append_cancel_right hsplit, List.append_assoc, List.singleton_append, first, hs, hd]
      simp only [if_pos hquote, stringRest_of_quoted hmark hq]
    · cases h
  split at h
  · rename_i hdigit
    rw [first_of_isNameChar (isNameChar_of_isDigit hdigit), if_pos hdigit]
    exact number_loosen (s := c :: taken) h hl
  rename_i hdigit
  split at h
  · rename_i hstart
    obtain ⟨rfl, hdrop⟩ := Prod.mk.inj (Except.ok.inj h)
    obtain ⟨htake, hname, hnext⟩ := Text.run_of_dropWhile hdrop
    obtain ⟨htake', hdrop'⟩ := Text.run_append hname (hl.ends isNameChar_of_isBlank hnext)
    rw [first_of_isNameChar (isNameChar_of_isNameStart hstart), if_neg hdigit, if_pos hstart, htake, htake', hdrop']
  · cases h

end Loosen

/-! ## Texts token by token -/

theorem exists_taken_of_first {c : Char} {rest left : List Char} {t : Token} (h : first c rest = .ok (t, left)) :
    ∃ taken, Lexeme t (c :: taken) ∧ rest = taken ++ left := by
  obtain ⟨written, hl, hsplit⟩ := exists_lexeme_of_first h
  cases written with
  | nil =>
    have hlength := first_length h
    rw [hsplit] at hlength
    exact absurd hlength (Nat.lt_irrefl _)
  | cons d taken =>
    obtain ⟨rfl, hrest⟩ := List.cons.inj hsplit
    exact ⟨taken, hl, hrest⟩

@[elab_as_elim]
theorem tokenInduction {motive : List Char → Prop} (nil : motive [])
    (blank : ∀ b s, Text.isBlank b = true → motive s → motive (b :: s))
    (fault : ∀ c s fault, Text.isBlank c = false → first c s = .error fault → motive (c :: s))
    (token : ∀ c taken left t, Text.isBlank c = false → first c (taken ++ left) = .ok (t, left) → motive left →
      motive (c :: (taken ++ left))) (s : List Char) : motive s := by
  induction 0, s using Feed.ofText.induct with
  | case1 => exact nil
  | case2 _ b s hb ih => exact blank b s hb ih
  | case3 _ c s hc f hf => exact fault c s f (Bool.eq_false_iff.2 hc) hf
  | case4 _ c s hc t left hf _ ih =>
    obtain ⟨taken, -, rfl⟩ := exists_taken_of_first hf
    exact token c taken left t (Bool.eq_false_iff.2 hc) hf ih

theorem read?_of_fault {c : Char} {s : List Char} {fault : Fault} (hc : Text.isBlank c = false)
    (h : first c s = .error fault) : read? (c :: s) = none := by
  rw [read?, ofText_of_fault 0 (Bool.eq_false_iff.1 hc) h]
  rfl

theorem exists_first_of_read? {c : Char} {s : List Char} {ts : List Token} (hc : Text.isBlank c = false)
    (h : read? (c :: s) = some ts) : ∃ t left us, first c s = .ok (t, left) ∧ read? left = some us ∧ t :: us = ts := by
  cases hfirst : first c s with
  | error fault =>
    rw [read?_of_fault hc hfirst] at h
    cases h
  | ok p =>
    obtain ⟨t, left⟩ := p
    rw [read?_of_first hc hfirst] at h
    obtain ⟨us, hus, hts⟩ := Option.map_eq_some_iff.1 h
    exact ⟨t, left, us, rfl, hus, hts⟩

/-! ## Blanks between tokens -/

/-- **The second text is the first with blanks put in**: before the first token, between two tokens or behind the last one,
at any such places and any number of them, but nowhere inside a token. -/
inductive Widens : List Char → List Char → Prop
  | nil : Widens [] []
  | insert {b : Char} {s s' : List Char} (hb : Text.isBlank b = true) (h : Widens s s') : Widens s (b :: s')
  | blank {b : Char} {s s' : List Char} (hb : Text.isBlank b = true) (h : Widens s s') : Widens (b :: s) (b :: s')
  | token {c : Char} {t : Token} {left left' : List Char} (taken : List Char) (hc : Text.isBlank c = false)
      (hfirst : first c (taken ++ left) = .ok (t, left)) (h : Widens left left') :
      Widens (c :: (taken ++ left)) (c :: (taken ++ left'))

theorem Widens.head? {s s' : List Char} (h : Widens s s') :
    ∀ d, s'.head? = some d → Text.isBlank d = true ∨ s.head? = some d := by
  intro d hd
  cases h with
  | nil => exact .inr hd
  | insert hb h | blank hb h =>
    cases hd
    exact .inl hb
  | token taken hc hfirst h => exact .inr hd

theorem Widens.loosens {s s' : List Char} (h : Widens s s') : Loosens s s' := by
  refine ⟨h.head?, fun d more hpoint => ?_⟩
  cases h with
  | nil => cases hpoint
  | insert hb h | blank hb h =>
    cases hpoint
    exact absurd hb (by decide)
  | @token c t left left' taken hc hfirst h =>
    -- a point is a token of its own, so the next character begins another token or is a blank
    obtain ⟨rfl, hmore⟩ := List.cons.inj hpoint
    obtain ⟨-, htaken⟩ := Prod.mk.inj (Except.ok.inj hfirst)
    obtain rfl : taken = [] := List.append_left_eq_self.1 htaken
    refine (h.head? d (by rw [← List.nil_append left', hmore]; rfl)).imp_right fun hsame => ?_
    exact ⟨left.tail, by rw [List.nil_append, List.cons_head?_tail hsame]⟩

theorem read?_of_widens {s s' : List Char} (h : Widens s s') : read? s' = read? s := by
  induction h with
  | nil => rfl
  | insert hb h ih => rw [read?_blank hb, ih]
  | blank hb h ih => rw [read?_blank hb, read?_blank hb, ih]
  | token taken hc hfirst h ih =>
    rw [read?_of_first hc hfirst, read?_of_first hc (first_loosen hfirst h.loosens), ih]

theorem widens_blanks {u : List Char} (hu : Text.AllBlank u) : Widens [] u := by
  induction u with
  | nil => exact .nil
  | cons b u ih =>
    obtain ⟨hb, hu⟩ := List.forall_mem_cons.1 hu
    exact .insert hb (ih hu)

theorem widens_append {s u : List Char} {ts : List Token} (h : read? s = some ts) (hu : Text.AllBlank u) :
    Widens s (s ++ u) := by
  induction s using tokenInduction generalizing ts with
  | nil => exact widens_blanks hu
  | blank b s hb ih =>
    rw [read?_blank hb] at h
    exact .blank hb (ih h)
  | fault c s fault hc hf =>
    obtain ⟨t, left, us, hfirst, -⟩ := exists_first_of_read? hc h
    rw [hf] at hfirst
    cases hfirst
  | token c taken left t hc hf ih =>
    obtain ⟨t', left', us, hfirst, hus, -⟩ := exists_first_of_read? hc h
    obtain ⟨-, rfl⟩ := Prod.mk.inj (Except.ok.inj (hf.symm.trans hfirst))
    rw [List.cons_append, List.append_assoc]
    exact .token taken hc hf (ih hus)

/-! ## Blanks at the ends -/

theorem read?_append_left {w : List Char} (hw : Text.AllBlank w) (s : List Char) : read? (w ++ s) = read? s := by
  induction w with
  | nil => rfl
  | cons b w ih =>
    obtain ⟨hb, hw⟩ := List.forall_mem_cons.1 hw
    rw [List.cons_append, read?_blank hb, ih hw]

theorem Lexeme.flush_reverse {t : Token} {written : List Char} (h : Lexeme t written) : Text.Flush written.reverse := by
  have hdigits : ∀ {s : List Char}, (∀ c ∈ s, c.isDigit = true) → ∀ c ∈ s, Text.isBlank c = false := fun hs c hc =>
    isBlank_of_isNameChar (isNameChar_of_isDigit (hs c hc))
  have hall : ∀ {s : List Char}, (∀ c ∈ s, Text.isBlank c = false) → Text.Flush s.reverse := fun hs c hc =>
    hs c (List.mem_reverse.1 (List.mem_of_mem_head? hc))
  cases h with
  | symbol s => exact hall (isBlank_of_mem_sign s)
  | name h => exact hall fun c hc => isBlank_of_isNameChar (h c hc)
  | int h => exact hall (hdigits h)
  | @float whole fraction x hwhole hfraction =>
    exact hall (List.forall_mem_append.2 ⟨hdigits hwhole, List.forall_mem_cons.2 ⟨by decide, hdigits hfraction⟩⟩)
  | @string quote s inside hquote h =>
    intro c hc
    rw [← List.cons_append, List.reverse_append] at hc
    cases hc
    rcases hquote with rfl | rfl <;> decide
  | bool b => cases b <;> decide
  | null => decide

theorem exists_first_of_append {c : Char} {rest u left : List Char} {t : Token} (hu : Text.AllBlank u)
    (h : first c (rest ++ u) = .ok (t, left)) : ∃ left', left = left' ++ u ∧ first c rest = .ok (t, left') := by
  obtain ⟨taken, hl, hsplit⟩ := exists_taken_of_first h
  have hinside : ∃ left', rest = taken ++ left' ∧ left = left' ++ u := by
    rcases List.append_eq_append_iff.1 hsplit with ⟨beyond, htaken, hbeyond⟩ | ⟨left', hrest, hleft⟩
    · -- the token cannot end in one of the blanks
      rcases List.eq_nil_or_concat beyond with rfl | ⟨before, b, rfl⟩
      · exact ⟨[], by rw [htaken, List.append_nil, List.append_nil], by rw [hbeyond]; rfl⟩
      · have hb : Text.isBlank b = true := hu b (by rw [hbeyond]; simp)
        have hflush := hl.flush_reverse b (by rw [htaken]; simp)
        rw [hb] at hflush
        cases hflush
    · exact ⟨left', hrest, hleft⟩
  obtain ⟨left', rfl, rfl⟩ := hinside
  rw [List.append_assoc] at h
  exact ⟨left', rfl, first_loosen h (.append left' u)⟩

theorem read?_of_append {s u : List Char} {ts : List Token} (hu : Text.AllBlank u) (h : read? (s ++ u) = some ts) :
    read? s = some ts := by
  induction s using tokenInduction generalizing ts with
  | nil =>
    rw [← h]
    exact (read?_of_widens (widens_blanks hu)).symm
  | blank b s hb ih =>
    rw [List.cons_append, read?_blank hb] at h
    rw [read?_blank hb, ih h]
  | fault c s fault hc hf =>
    obtain ⟨t, left, us, hfirst, -⟩ := exists_first_of_read? hc h
    obtain ⟨left', -, hok⟩ := exists_first_of_append hu hfirst
    rw [hf] at hok
    cases hok
  | token c taken left t hc hf ih =>
    obtain ⟨t', more, us, hfirst, hus, rfl⟩ := exists_first_of_read? hc h
    obtain ⟨left', rfl, hok⟩ := exists_first_of_append hu hfirst
    obtain ⟨rfl, rfl⟩ := Prod.mk.inj (Except.ok.inj (hf.symm.trans hok))
    rw [read?_of_first hc hf, ih hus]
    rfl

/-- **A trimmed text has the tokens of the text**, and a fault in it if there is one in the text. -/
theorem read?_trim (s : List Char) : read? (Text.trim s) = read? s := by
  obtain ⟨w, u, hw, hu, hs⟩ := Text.exists_append_trim s
  have hright : read? (Text.trim s ++ u) = read? (Text.trim s) := Option.ext fun ts =>
    ⟨fun h => read?_of_append hu h, fun h => (read?_of_widens (widens_append h hu)).trans h⟩
  calc read? (Text.trim s) = read? (Text.trim s ++ u) := hright.symm
    _ = read? (w ++ (Text.trim s ++ u)) := (read?_append_left hw _).symm
    _ = read? s := by rw [← hs]

end Token

namespace Expr

/-- **What is read from a source depends on its tokens only.** -/
theorem parse_of_read?_eq {source source' : String} {e : Expr} (h : Token.read? source'.toList = Token.read? source.toList)
    (he : parse source = .ok e) : parse source' = .ok e := by
  obtain ⟨ts, depth, operators, hts, hd, hdepth, hoperators⟩ := exists_derives_of_parse he
  exact parse_of_derives (h.trans hts) hd hdepth hoperators

/-- **Blanks between tokens do not matter.**  Whatever blanks are put between the tokens of a source and around them, the
same expression is read from it, or again none; and a source and its trimmed form are read alike. -/
theorem parse_widened (source : String) :
    (∀ wider : String, Token.Widens source.toList wider.toList → ∀ e, parse wider = .ok e ↔ parse source = .ok e) ∧
      ∀ e, parse (String.ofList (Text.trim source.toList)) = .ok e ↔ parse source = .ok e := by
  have hsame : ∀ source' : String, Token.read? source'.toList = Token.read? source.toList →
      ∀ e, parse source' = .ok e ↔ parse source = .ok e := fun source' h e =>
    ⟨parse_of_read?_eq h.symm, parse_of_read?_eq h⟩
  refine ⟨fun wider h => hsame wider (Token.read?_of_widens h), hsame _ ?_⟩
  rw [String.toList_ofList]
  exact Token.read?_trim source.toList

/-- Blanks behind symbols that others would make longer, and around the point before a number. -/
theorem parse_widened_signs :
    Token.Widens "a.1<2??!b".toList " a .\t1 < 2 ?? !\n\nb\u2003".toList ∧
      ∃ e, parse "a.1<2??!b" = .ok e ∧ parse " a .\t1 < 2 ?? !\n\nb\u2003" = .ok e := by
  have hwiden : Token.Widens "a.1<2??!b".toList " a .\t1 < 2 ?? !\n\nb\u2003".toList := by
    -- behind each token come the blanks that are put there
    have hblank : Text.isBlank ' ' = true := by decide
    refine .insert hblank (.token [] (by decide) rfl ?_)
    refine .insert hblank (.token [] (by decide) rfl ?_)
    refine .insert (by decide) (.token [] (by decide) rfl ?_)
    refine .insert hblank (.token [] (by decide) rfl ?_)
    refine .insert hblank (.token [] (by decide) rfl ?_)
    refine .insert hblank (.token ['?'] (by decide) rfl ?_)
    refine .insert hblank (.token [] (by decide) rfl ?_)
    refine .insert (by decide) (.insert (by decide) (.token [] (by decide) rfl ?_))
    exact .insert (by decide) .nil
  have hcheck : (parse "a.1<2??!b").toOption.any (fun _ => true) = true := by decide +kernel
  obtain ⟨e, hparse, -⟩ := ok_of_any_toOption hcheck
  exact ⟨hwiden, e, hparse, ((parse_widened "a.1<2??!b").1 _ hwiden e).2 hparse⟩

end Expr
end Stencil
