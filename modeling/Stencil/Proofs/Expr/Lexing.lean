import Stencil.Proofs.Expr.Steps
import Stencil.Proofs.Path.Spelling
/-!
# Texts of tokens

A text is *read as* some tokens (`Reads`) if these are its tokens whatever comes after it, provided that the next
character ends a name and a number (`Stops`).  Names, integers and quoted strings are read as the tokens that they stand
for, and a symbol between or before texts that are read so is read as that symbol.
-/
namespace Stencil

def Text.blanks : List Nat :=
  [9, 10, 11, 12, 13, 0x20, 0x85, 0xa0, 0x1680, 0x2000, 0x2001, 0x2002, 0x2003, 0x2004, 0x2005, 0x2006, 0x2007, 0x2008,
   0x2009, 0x200a, 0x2028, 0x2029, 0x202f, 0x205f, 0x3000]

theorem Text.toNat_mem_blanks {c : Char} (h : Text.isBlank c = true) : c.toNat ∈ Text.blanks := by
  simp only [Text.isBlank, Bool.or_eq_true, Bool.and_eq_true, decide_eq_true_eq, beq_iff_eq] at h
  simp only [Text.blanks, List.mem_cons, List.not_mem_nil, or_false]
  omega

theorem Text.isBlank_eq_false {p : Char → Bool} (hp : ∀ n ∈ Text.blanks, p (Char.ofNat n) = false) {c : Char}
    (h : p c = true) : Text.isBlank c = false := by
  refine Bool.eq_false_iff.2 fun hblank => ?_
  have hnot := hp _ (Text.toNat_mem_blanks hblank)
  rw [Char.ofNat_toNat, h] at hnot
  cases hnot

namespace Token

/-! ## Tokens wherever a text begins -/

def read? (s : List Char) : Option (List Token) := (Feed.ofText 0 s).tokens?

theorem ofText_of_blank {c : Char} (a : Nat) (s : List Char) (h : Text.isBlank c = true) :
    Feed.ofText a (c :: s) = Feed.ofText (a + c.utf8Size) s := by
  rw [Feed.ofText.eq_def]
  exact if_pos h

theorem ofText_of_first {c : Char} {s left : List Char} {t : Token} (a : Nat) (hc : ¬ Text.isBlank c = true)
    (h : first c s = .ok (t, left)) :
    let stop := a + (Text.byteLength (c :: s) - Text.byteLength left)
    Feed.ofText a (c :: s) = .next t stop (Feed.ofText stop left) := by
  rw [Feed.ofText.eq_def]
  simp only [if_neg hc]
  split
  · rename_i h'; rw [h] at h'; cases h'
  · rename_i h'; rw [h] at h'; cases h'; rfl

theorem ofText_of_fault {c : Char} {s : List Char} {fault : Fault} (a : Nat) (hc : ¬ Text.isBlank c = true)
    (h : first c s = .error fault) : Feed.ofText a (c :: s) = .broken ⟨fault, a, String.ofList ((c :: s).take 10)⟩ := by
  rw [Feed.ofText.eq_def]
  simp only [if_neg hc]
  split
  · rename_i h'; rw [h] at h'; cases h'; rfl
  · rename_i h'; rw [h] at h'; cases h'

theorem exists_ofText_of_first {c : Char} {s left : List Char} {t : Token} (a : Nat) (hc : ¬ Text.isBlank c = true)
    (h : first c s = .ok (t, left)) : ∃ b, Feed.ofText a (c :: s) = .next t b (Feed.ofText b left) :=
  ⟨_, ofText_of_first a hc h⟩

theorem exists_ofText_of_fault {c : Char} {s : List Char} {fault : Fault} (a : Nat) (hc : ¬ Text.isBlank c = true)
    (h : first c s = .error fault) : ∃ e, Feed.ofText a (c :: s) = .broken e :=
  ⟨_, ofText_of_fault a hc h⟩

theorem tokens?_ofText (a b : Nat) (s : List Char) : (Feed.ofText a s).tokens? = (Feed.ofText b s).tokens? := by
  induction a, s using Feed.ofText.induct generalizing b with
  | case1 a => rw [Feed.ofText.eq_def, Feed.ofText.eq_def]; rfl
  | case2 a c rest hc ih => rw [ofText_of_blank a rest hc, ofText_of_blank b rest hc]; exact ih _
  | case3 a c rest hc fault h =>
    obtain ⟨e, he⟩ := exists_ofText_of_fault a hc h
    obtain ⟨e', he'⟩ := exists_ofText_of_fault b hc h
    rw [he, he']
    rfl
  | case4 a c rest hc t left h stop ih =>
    obtain ⟨d, hd⟩ := exists_ofText_of_first a hc h
    obtain ⟨d', hd'⟩ := exists_ofText_of_first b hc h
    rw [hd, hd', Feed.tokens?, Feed.tokens?, ← ih d, ← ih d']

theorem read?_blank {c : Char} {s : List Char} (h : Text.isBlank c = true) : read? (c :: s) = read? s := by
  rw [read?, ofText_of_blank 0 s h]
  exact tokens?_ofText _ _ _

theorem read?_of_first {c : Char} {s left : List Char} {t : Token} (hc : Text.isBlank c = false)
    (h : first c s = .ok (t, left)) : read? (c :: s) = (read? left).map (t :: ·) := by
  obtain ⟨b, hb⟩ := exists_ofText_of_first 0 (Bool.eq_false_iff.1 hc) h
  rw [read?, hb, Feed.tokens?, tokens?_ofText b 0, read?]

/-! ## Symbols -/

/-- The text does not make a symbol that stands before it a longer one. -/
def Loose (s : List Char) : Prop := s.head? ≠ some '=' ∧ s.head? ≠ some '?'

instance (s : List Char) : Decidable (Loose s) := inferInstanceAs (Decidable (_ ∧ _))

theorem loose_cons {c : Char} (s : List Char) (h : c ≠ '=' ∧ c ≠ '?') : Loose (c :: s) :=
  ⟨fun he => h.1 (Option.some.inj he), fun he => h.2 (Option.some.inj he)⟩

theorem read?_symbol (s : Symbol) {u : List Char} (h : Loose u) :
    read? (s.sign.toList ++ u) = (read? u).map (.symbol s :: ·) := by
  have halone : ∀ c second long alone, single? c = none → double? c = some (second, long, .ok alone) →
      (second = '=' ∨ second = '?') → first c u = .ok (.symbol alone, u) := by
    intro c second long alone hs hd hsecond
    rw [first, hs, hd]
    cases u with
    | nil => rfl
    | cons d u =>
      have hne : d ≠ second := by
        rintro rfl
        rcases hsecond with rfl | rfl
        · exact h.1 rfl
        · exact h.2 rfl
      simp only [if_neg hne]
      rfl
  cases s with
  | less => exact read?_of_first (by decide) (halone '<' _ _ _ rfl rfl (by decide))
  | greater => exact read?_of_first (by decide) (halone '>' _ _ _ rfl rfl (by decide))
  | bang => exact read?_of_first (by decide) (halone '!' _ _ _ rfl rfl (by decide))
  | question => exact read?_of_first (by decide) (halone '?' _ _ _ rfl rfl (by decide))
  | _ => exact read?_of_first rfl rfl

/-! ## Names and integers -/

theorem ne_of_isNameChar {c d : Char} (h : isNameChar c = true) (hd : isNameChar d = false) : c ≠ d := by
  rintro rfl
  rw [hd] at h
  cases h

theorem ne_all_of_isNameChar {c : Char} {s : List Char} (h : isNameChar c = true) (hs : s.any isNameChar = false) :
    ∀ d ∈ s, c ≠ d := fun d hd => ne_of_isNameChar h (by simpa using List.any_eq_false.1 hs d hd)

theorem isBlank_of_isNameChar {c : Char} (h : isNameChar c = true) : Text.isBlank c = false :=
  Text.isBlank_eq_false (by decide +kernel) h

theorem first_of_isNameChar {c : Char} (h : isNameChar c = true) (s : List Char) : first c s =
    if c.isDigit then number (c :: s)
    else if isNameStart c then .ok (ofWord (c :: s.takeWhile isNameChar), s.dropWhile isNameChar)
    else .error (.strangeCharacter c) := by
  have hsingle : single? c = none := by
    have hne : ∀ d ∈ ['+', '-', '*', '/', '%', '.', '(', ')', '[', ']', ':'], c ≠ d :=
      ne_all_of_isNameChar h (by decide)
    simp only [List.forall_mem_cons, List.not_mem_nil] at hne
    simp [single?, hne]
  have hdouble : double? c = none := by
    have hne : ∀ d ∈ ['?', '=', '!', '<', '>', '&', '|'], c ≠ d := ne_all_of_isNameChar h (by decide)
    simp only [List.forall_mem_cons, List.not_mem_nil] at hne
    simp [double?, hne]
  have hquote : ¬ (c = '\'' || c = '"') = true := by
    have hsingle : c ≠ '\'' := ne_of_isNameChar h (by decide)
    have hdouble : c ≠ '"' := ne_of_isNameChar h (by decide)
    simp [hsingle, hdouble]
  rw [first, hsingle, hdouble]
  simp only [if_neg hquote]

theorem isNameChar_of_isNameStart {c : Char} (h : isNameStart c = true) : isNameChar c = true := by
  simp only [isNameStart, isNameChar, Bool.or_eq_true] at h ⊢
  exact h.imp_left (Or.imp_left Or.inl)

theorem isNameChar_of_isDigit {c : Char} (h : c.isDigit = true) : isNameChar c = true := by
  simp [isNameChar, Text.isNumeric, h]

theorem isDigit_of_isNameStart {c : Char} (h : isNameStart c = true) : c.isDigit = false := by
  have hcodes : ∀ n ≤ '9'.toNat, isNameStart (Char.ofNat n) = true → (Char.ofNat n).isDigit = false := by
    decide +kernel
  refine Bool.eq_false_iff.2 fun hdigit => ?_
  have hle : c.toNat ≤ '9'.toNat := (Char.isDigit_iff_toNat.1 hdigit).2
  have hnot := hcodes c.toNat hle
  rw [Char.ofNat_toNat, hdigit] at hnot
  exact absurd (hnot h) (by decide)

theorem integer_toString {n : Nat} (h : n < 2 ^ 63) : integer (toString n).toList = .ok (.int n h) := by
  have hn := Path.isDecimal_toString n
  have hvalue : (Path.digitsValue? 0 (toString n).toList).getD 0 = n := by
    rw [Path.digitsValue?_eq_ofDigitChars 0 hn.isDigit, hn.value, Option.getD_some]
  unfold integer
  simp only [hvalue, h, dif_pos]

theorem number_append {s u : List Char} (hs : ∀ c ∈ s, c.isDigit = true)
    (hu : ∀ c, u.head? = some c → c.isDigit = false) (hpoint : ∀ d left, u = '.' :: d :: left → d.isDigit = false) :
    number (s ++ u) = (integer s).map (·, u) := by
  obtain ⟨htake, hdrop⟩ := Text.run_append hs hu
  unfold number
  rw [htake, hdrop]
  simp only
  split
  · rename_i d left
    have hd := hpoint d left rfl
    rw [if_neg (Bool.eq_false_iff.1 hd)]
  · rfl

theorem number_point {s t u : List Char} (hs : ∀ c ∈ s, c.isDigit = true) (ht : ∀ c ∈ t, c.isDigit = true) (hne : t ≠ [])
    (hu : ∀ c, u.head? = some c → c.isDigit = false) : number (s ++ '.' :: (t ++ u)) = .ok (decimal s t, u) := by
  have hpoint : ∀ c, ('.' :: (t ++ u)).head? = some c → c.isDigit = false := by
    intro c hc
    cases hc
    decide
  obtain ⟨htake, hdrop⟩ := Text.run_append hs hpoint
  obtain ⟨htake', hdrop'⟩ := Text.run_append ht hu
  cases t with
  | nil => exact absurd rfl hne
  | cons d t =>
    unfold number
    rw [htake, hdrop]
    simp only [List.cons_append] at htake' hdrop' ⊢
    rw [if_pos (ht d List.mem_cons_self), htake', hdrop']

theorem read?_word {c : Char} {rest u : List Char} (hc : isNameStart c = true) (hrest : rest.all isNameChar = true)
    (hu : ∀ d, u.head? = some d → isNameChar d = false) :
    read? (c :: rest ++ u) = (read? u).map (ofWord (c :: rest) :: ·) := by
  have hname := isNameChar_of_isNameStart hc
  obtain ⟨htake, hdrop⟩ := Text.run_append (List.all_eq_true.1 hrest) hu
  rw [List.cons_append]
  refine read?_of_first (isBlank_of_isNameChar hname) ?_
  rw [first_of_isNameChar hname, isDigit_of_isNameStart hc, hc, htake, hdrop]
  rfl

theorem read?_number {s u left : List Char} {t : Token} (hs : ∀ c ∈ s, c.isDigit = true) (hne : s ≠ [])
    (h : number (s ++ u) = .ok (t, left)) : read? (s ++ u) = (read? left).map (t :: ·) := by
  cases s with
  | nil => exact absurd rfl hne
  | cons c s =>
    have hc := hs c List.mem_cons_self
    have hname := isNameChar_of_isDigit hc
    rw [List.cons_append]
    refine read?_of_first (isBlank_of_isNameChar hname) ?_
    rw [first_of_isNameChar hname, if_pos hc]
    exact h

theorem read?_int {n : Nat} (h : n < 2 ^ 63) {u : List Char} (hu : ∀ c, u.head? = some c → c.isDigit = false)
    (hpoint : ∀ d left, u = '.' :: d :: left → d.isDigit = false) :
    read? ((toString n).toList ++ u) = (read? u).map (.int n h :: ·) := by
  have hn := Path.isDecimal_toString n
  refine read?_number hn.isDigit hn.ne_nil ?_
  rw [number_append hn.isDigit hu hpoint, integer_toString h]
  rfl

/-! ## Strings -/

theorem stringRest_escaped {quote : Char} (hq : quote = '"' ∨ quote = '\'') (u : List Char) : ∀ s : List Char,
    stringRest quote (Path.escaped quote s ++ quote :: u) = some (s, u)
  | [] => by
    rw [Path.escaped, List.flatMap_nil, List.nil_append, stringRest.eq_def]
    simp only [if_true]
  | c :: s => by
    -- behind `c`, escaped or not, the reader stands before the rest of the string
    have ih := stringRest_escaped hq u s
    unfold Path.escaped at ih ⊢
    rw [List.flatMap_cons]
    by_cases hc : c = quote ∨ c = '\\'
    · have hbackslash : '\\' ≠ quote := by rcases hq with rfl | rfl <;> decide
      have hunescape : unescape c = c := by
        rcases hc with rfl | rfl
        · rcases hq with rfl | rfl <;> rfl
        · rfl
      rw [if_pos hc, List.append_assoc, List.cons_append, List.singleton_append, stringRest.eq_def]
      simp only [if_neg hbackslash, if_true, ih, Option.map_some, hunescape]
    · obtain ⟨hcq, hcb⟩ := not_or.1 hc
      rw [if_neg hc, List.append_assoc, List.singleton_append, stringRest.eq_def]
      simp only [if_neg hcq, if_neg hcb, ih, Option.map_some]

theorem read?_string {quote : Char} (hq : quote = '"' ∨ quote = '\'') (s : String) (u : List Char) :
    read? (quote :: (Path.escaped quote s.toList ++ quote :: u)) = (read? u).map (.string s :: ·) := by
  have hrest := stringRest_escaped hq u s.toList
  rcases hq with rfl | rfl
  all_goals
    refine read?_of_first (by decide) ?_
    rw [first]
    simp [single?, double?, hrest]

end Token

/-! ## Texts that are read alone -/

def stops : List Char := [' ', ')', '[', ']']

/-- The text goes on with no name, number or symbol that stands before it. -/
def Stops (s : List Char) : Prop := ∀ c, s.head? = some c → c ∈ stops

theorem stops_cons {c : Char} (s : List Char) (h : c ∈ stops) : Stops (c :: s) := fun _ hd => Option.some.inj hd ▸ h

theorem Stops.any_eq_false {s : List Char} {p : Char → Bool} (h : Stops s) (hp : stops.any p = false) :
    ∀ c, s.head? = some c → p c = false := fun c hc => by simpa using List.any_eq_false.1 hp c (h c hc)

theorem Stops.loose {s : List Char} (h : Stops s) : Token.Loose s :=
  ⟨fun hs => absurd (h _ hs) (by decide), fun hs => absurd (h _ hs) (by decide)⟩

/-- **A text is read as some tokens** whatever comes after it, as long as it stops there. -/
structure Reads (s : List Char) (ts : List Token) : Prop where
  loose : Token.Loose s
  read?_append : ∀ {u}, Stops u → Token.read? (s ++ u) = (Token.read? u).map (ts ++ ·)

namespace Reads

variable {s u : List Char} {ts us : List Token}

theorem read?_eq (h : Reads s ts) : Token.read? s = some ts := by
  have hread := h.read?_append (u := []) fun c hc => nomatch hc
  rw [List.append_nil] at hread
  rw [hread, Token.read?, Feed.ofText.eq_def]
  exact congrArg some (List.append_nil ts)

theorem loose_append (h : Reads s ts) (hu : Token.Loose u) : Token.Loose (s ++ u) := by
  cases s with
  | nil => exact hu
  | cons c s => exact h.loose

/-! ### Names and constants -/

theorem loose_of_isNameChar {c : Char} (rest : List Char) (hc : Token.isNameChar c = true) : Token.Loose (c :: rest) :=
  Token.loose_cons rest ⟨Token.ne_of_isNameChar hc (by decide), Token.ne_of_isNameChar hc (by decide)⟩

theorem word {c : Char} {rest : List Char} (hc : Token.isNameStart c = true)
    (hrest : rest.all Token.isNameChar = true) : Reads (c :: rest) [Token.ofWord (c :: rest)] where
  loose := loose_of_isNameChar rest (Token.isNameChar_of_isNameStart hc)
  read?_append hu := Token.read?_word hc hrest (hu.any_eq_false (by decide))

theorem int {n : Nat} (h : n < 2 ^ 63) : Reads (toString n).toList [.int n h] where
  loose := by
    have hn := Path.isDecimal_toString n
    cases hs : (toString n).toList with
    | nil => exact absurd hs hn.ne_nil
    | cons c rest =>
      have hc := hn.isDigit c (by rw [hs]; exact List.mem_cons_self)
      exact loose_of_isNameChar rest (Token.isNameChar_of_isDigit hc)
  read?_append {u} hu := by
    refine Token.read?_int h (hu.any_eq_false (by decide)) ?_
    rintro d left rfl
    exact absurd (hu '.' rfl) (by decide)

theorem string {quote : Char} (hq : quote = '"' ∨ quote = '\'') (s : String) :
    Reads (quote :: (Path.escaped quote s.toList ++ [quote])) [.string s] where
  loose := Token.loose_cons _ (by rcases hq with rfl | rfl <;> decide)
  read?_append {u} _ := by
    rw [List.cons_append, List.append_assoc]
    exact Token.read?_string hq s u

/-! ### Symbols -/

theorem symbol {x : Symbol} (hx : Token.Loose x.sign.toList) : Reads x.sign.toList [.symbol x] where
  loose := hx
  read?_append hu := Token.read?_symbol x hu.loose

theorem sign {x : Symbol} (hx : Token.Loose x.sign.toList) (h : Reads s ts) :
    Reads (x.sign.toList ++ s) (.symbol x :: ts) where
  loose := by
    cases hs : x.sign.toList with
    | nil => exact h.loose
    | cons c rest => rw [hs] at hx; exact hx
  read?_append {u} hu := by
    rw [List.append_assoc, Token.read?_symbol x (h.loose_append hu.loose), h.read?_append hu, Option.map_map]
    rfl

theorem append (h : Reads s ts) (hu : Reads u us) (hstops : ∀ v, Stops v → Stops (u ++ v)) :
    Reads (s ++ u) (ts ++ us) where
  loose := h.loose_append hu.loose
  read?_append {v} hv := by
    rw [List.append_assoc, h.read?_append (hstops v hv), hu.read?_append hv, Option.map_map]
    simp [Function.comp_def]

theorem paren (h : Reads s ts) : Reads ('(' :: (s ++ [')'])) (.symbol .openParen :: (ts ++ [.symbol .closeParen])) :=
  sign (x := .openParen) (by decide)
    (h.append (symbol (x := .closeParen) (by decide)) fun v _ => stops_cons v (by decide))

theorem bracket (h : Reads s ts) {t : Token} (hu : Reads u [t]) :
    Reads (s ++ '[' :: (u ++ [']'])) (ts ++ [.symbol .openBracket, t, .symbol .closeBracket]) := by
  have hinside : Reads (u ++ [']']) [t, .symbol .closeBracket] :=
    hu.append (symbol (x := .closeBracket) (by decide)) fun v _ => stops_cons v (by decide)
  exact h.append (sign (x := .openBracket) (by decide) hinside) fun v _ => stops_cons _ (by decide)

theorem operator (h : Reads s ts) (x : Symbol) (hu : Reads u us) :
    Reads (s ++ ' ' :: (x.sign.toList ++ ' ' :: u)) (ts ++ .symbol x :: us) := by
  have hsymbol : Reads (' ' :: (x.sign.toList ++ ' ' :: u)) (.symbol x :: us) := by
    refine ⟨Token.loose_cons _ (by decide), fun {v} hv => ?_⟩
    rw [List.cons_append, List.append_assoc, List.cons_append, Token.read?_blank (by decide),
      Token.read?_symbol x (Token.loose_cons _ (by decide)), Token.read?_blank (by decide), hu.read?_append hv,
      Option.map_map]
    rfl
  exact h.append hsymbol fun v _ => stops_cons _ (by decide)

end Reads
end Stencil
