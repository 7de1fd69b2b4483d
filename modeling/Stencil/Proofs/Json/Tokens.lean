import Stencil.Proofs.Json.Texts
/-!
# The tokens of JSON texts

Each text of the same lexemes has the tokens that read them: whatever the blanks are, and however the characters of the
strings are written, the pieces of a string token make the string (`ofText?_of_write`).
-/
namespace Stencil.Json

open Stencil.Json.Token

/-! ## Strings -/

theorem hexDigit?_of_isHexDigit {n : Nat} {c : Char} (h : IsHexDigit n c) : hexDigit? c = some n := by
  have hall : ∀ n < 0x10, hexDigit? n.digitChar = some n ∧ hexDigit? n.digitChar.toUpper = some n := by decide
  obtain ⟨hn, rfl | rfl⟩ := h
  · exact (hall n hn).1
  · exact (hall n hn).2

theorem escaped_of_isUnit {n : Nat} {digits : List Char} (h : IsUnit n digits) (left : List Char) :
    escaped ('u' :: (digits ++ left)) = some (.unit n, left) := by
  obtain _ | ⟨h₁, _ | ⟨h₂, _ | ⟨h₃, _ | ⟨h₄, _ | _⟩⟩⟩⟩ := h
  have hvalue : 16 * (16 * (16 * (16 * 0 + n / 0x1000) + n / 0x100 % 0x10) + n / 0x10 % 0x10) + n % 0x10 = n := by
    omega
  simp only [List.cons_append, List.nil_append, escaped, hexValue?, hexDigit?_of_isHexDigit h₁,
    hexDigit?_of_isHexDigit h₂, hexDigit?_of_isHexDigit h₃, hexDigit?_of_isHexDigit h₄, Option.bind_some, hvalue,
    Option.map_some]

theorem escaped_of_short {e c : Char} (h : (e, c) ∈ shortEscapes) (left : List Char) :
    escaped (e :: left) = some (.char c, left) := by
  have hall : ∀ p ∈ shortEscapes, p.1 ≠ 'u' ∧ unescape? p.1 = some p.2 := by decide
  obtain ⟨hu, hc⟩ := hall _ h
  unfold escaped
  split
  · exact absurd (List.cons.inj ‹_›).1 hu
  · rename_i he
    obtain ⟨rfl, rfl⟩ := List.cons.inj he
    rw [hc]
    rfl
  · cases ‹_ = []›

theorem stringRest_quote (left : List Char) : stringRest ('"' :: left) = some ([], left) := by
  rw [stringRest.eq_def]
  rfl

theorem stringRest_char {c : Char} (hc : 0x20 ≤ c.toNat) (hquote : c ≠ '"') (hback : c ≠ '\\') (s : List Char) :
    stringRest (c :: s) = (stringRest s).map fun (ps, left) => (.char c :: ps, left) := by
  rw [stringRest.eq_def]
  simp only [if_neg hquote, if_neg hback, if_neg (Nat.not_lt.2 hc)]

theorem stringRest_escaped {p : Piece} {s left : List Char} (h : escaped s = some (p, left)) :
    stringRest ('\\' :: s) = (stringRest left).map fun (ps, left) => (p :: ps, left) := by
  rw [stringRest.eq_def]
  simp only [if_neg (by decide : ¬ '\\' = '"'), if_true]
  split
  · rename_i h'
    rw [h] at h'
    cases h'
    rfl
  · rename_i h'
    rw [h] at h'
    cases h'

theorem decode_unit {c : Char} (hc : c.toNat < 0x10000) {ps : List Piece} {s : List Char} (h : decode ps = some s) :
    decode (.unit c.toNat :: ps) = some (c :: s) := by
  have hvalid : c.toNat < 0xd800 ∨ 0xdfff < c.toNat ∧ c.toNat < 0x110000 := c.valid
  have hhigh : ¬ (0xd800 ≤ c.toNat ∧ c.toNat < 0xdc00) := by omega
  have hlow : ¬ (0xdc00 ≤ c.toNat ∧ c.toNat < 0xe000) := by omega
  rw [decode.eq_def]
  simp only [if_neg hhigh, if_neg hlow, h, Option.map_some, Char.ofNat_toNat]

theorem decode_units {c : Char} (hc : 0x10000 ≤ c.toNat) {ps : List Piece} {s : List Char} (h : decode ps = some s) :
    decode (.unit (0xd800 + (c.toNat - 0x10000) / 0x400) :: .unit (0xdc00 + (c.toNat - 0x10000) % 0x400) :: ps) =
      some (c :: s) := by
  have hvalid : c.toNat < 0xd800 ∨ 0xdfff < c.toNat ∧ c.toNat < 0x110000 := c.valid
  generalize hh : 0xd800 + (c.toNat - 0x10000) / 0x400 = high
  generalize hl : 0xdc00 + (c.toNat - 0x10000) % 0x400 = low
  have hhigh : 0xd800 ≤ high ∧ high < 0xdc00 := by omega
  have hlow : 0xdc00 ≤ low ∧ low < 0xe000 := by omega
  have hvalue : 0x10000 + (high - 0xd800) * 0x400 + (low - 0xdc00) = c.toNat := by omega
  rw [decode.eq_def]
  simp only [if_pos hhigh, if_pos hlow, h, hvalue, Option.map_some, Char.ofNat_toNat]

theorem IsUnit.lt {n : Nat} {digits : List Char} (h : IsUnit n digits) : n < 0x10000 := by
  obtain _ | ⟨⟨h, -⟩, -⟩ := h
  omega

theorem stringRest_of_spells {s t : List Char} (h : Spells s t) (left : List Char) :
    ∃ ps, stringRest (t ++ '"' :: left) = some (ps, left) ∧ decode ps = some s := by
  induction h with
  | nil => exact ⟨[], stringRest_quote left, rfl⟩
  | char hc hquote hback _ ih =>
    obtain ⟨ps, hps, hs⟩ := ih
    refine ⟨.char _ :: ps, ?_, by rw [decode, hs]; rfl⟩
    rw [List.cons_append, stringRest_char hc hquote hback, hps]
    rfl
  | short hmem _ ih =>
    obtain ⟨ps, hps, hs⟩ := ih
    refine ⟨.char _ :: ps, ?_, by rw [decode, hs]; rfl⟩
    rw [List.cons_append, List.cons_append, stringRest_escaped (escaped_of_short hmem _), hps]
    rfl
  | unit hunit _ ih =>
    obtain ⟨ps, hps, hs⟩ := ih
    refine ⟨.unit _ :: ps, ?_, decode_unit hunit.lt hs⟩
    rw [List.cons_append, List.cons_append, List.append_assoc, stringRest_escaped (escaped_of_isUnit hunit _), hps]
    rfl
  | units hc hhigh hlow _ ih =>
    obtain ⟨ps, hps, hs⟩ := ih
    refine ⟨.unit _ :: .unit _ :: ps, ?_, decode_units hc hs⟩
    simp only [List.cons_append, List.append_assoc]
    rw [stringRest_escaped (escaped_of_isUnit hhigh _), stringRest_escaped (escaped_of_isUnit hlow _), hps]
    rfl

/-! ## Tokens -/

theorem ofText?_blank {b : Char} (h : isSpace b = true) (s : List Char) : ofText? (b :: s) = ofText? s := by
  rw [ofText?.eq_def]
  exact if_pos h

theorem ofText?_of_first {c : Char} {s left : List Char} {t : Token} (hc : isSpace c = false)
    (h : first c s = some (t, left)) : ofText? (c :: s) = (ofText? left).map (t :: ·) := by
  rw [ofText?.eq_def]
  simp only [hc, Bool.false_eq_true, if_false]
  split
  · rename_i h'
    rw [h] at h'
    cases h'
    rfl
  · rename_i h'
    rw [h] at h'
    cases h'

theorem ofText?_mark {c : Char} {t : Token} (h : punctuation? c = some t) (s : List Char) :
    ofText? (c :: s) = (ofText? s).map (t :: ·) := by
  have hspace : isSpace c = false := by
    refine Bool.eq_false_iff.2 fun hc => ?_
    simp only [isSpace, Bool.or_eq_true, decide_eq_true_eq] at hc
    obtain ((rfl | rfl) | rfl) | rfl := hc <;> cases h
  exact ofText?_of_first hspace (by rw [first, h])

theorem ofText?_null (s : List Char) : ofText? ("null".toList ++ s) = (ofText? s).map (.null :: ·) :=
  ofText?_of_first (by decide) rfl

theorem ofText?_quoted {s : String} {u : List Char} (h : Spells s.toList u) (t : List Char) :
    ∃ ps, ofText? ('"' :: (u ++ '"' :: t)) = (ofText? t).map (.string ps :: ·) ∧ decodeText ps = some s := by
  obtain ⟨ps, hps, hs⟩ := stringRest_of_spells h t
  refine ⟨ps, ofText?_of_first (by decide) ?_, ?_⟩
  · have hnone : punctuation? '"' = none := by decide
    rw [first, hnone]
    simp only [if_true, hps, Option.map_some]
  · rw [decodeText, hs, Option.map_some, String.ofList_toList]

/-- The token that reads a lexeme.  Of words it is given for null alone. -/
inductive Lexeme.Gives : Lexeme → Token → Prop
  | mark {c : Char} {t : Token} : punctuation? c = some t → Gives (.mark c) t
  | null : Gives (.word "null") .null
  | quoted {s : String} {ps : List Piece} : decodeText ps = some s → Gives (.quoted s) (.string ps)

variable {ls : List Lexeme} {ts : List Token}

theorem Lexeme.gives_mark {c : Char} {t : Token} (ht : punctuation? c = some t)
    (h : List.Forall₂ Gives (.mark c :: ls) ts) : ∃ rest, ts = t :: rest ∧ List.Forall₂ Gives ls rest := by
  cases h with
  | cons hc hrest =>
    cases hc with
    | mark ht' => exact ⟨_, by rw [Option.some.inj (ht.symm.trans ht')], hrest⟩

theorem Lexeme.gives_null (h : List.Forall₂ Gives (.word "null" :: ls) ts) :
    ∃ rest, ts = .null :: rest ∧ List.Forall₂ Gives ls rest := by
  cases h with
  | cons hnull hrest =>
    cases hnull with
    | null => exact ⟨_, rfl, hrest⟩

theorem Lexeme.gives_quoted {s : String} (h : List.Forall₂ Gives (.quoted s :: ls) ts) :
    ∃ ps rest, ts = .string ps :: rest ∧ decodeText ps = some s ∧ List.Forall₂ Gives ls rest := by
  cases h with
  | cons hs hrest =>
    cases hs with
    | quoted hs => exact ⟨_, _, rfl, hs, hrest⟩

def Lexeme.isGiven : Lexeme → Bool
  | .mark c => (punctuation? c).isSome
  | .word w => w == "null"
  | .quoted _ => true

/-- **A text is read as the tokens of its lexemes.** -/
theorem ofText?_of_write {t : List Char} (h : Lexeme.Write ls t) (hls : ls.all Lexeme.isGiven = true) :
    ∃ ts, ofText? t = some ts ∧ List.Forall₂ Lexeme.Gives ls ts := by
  induction h with
  | nil => exact ⟨[], by rw [ofText?], .nil⟩
  | blank hb _ ih =>
    obtain ⟨ts, hts, hgives⟩ := ih hls
    exact ⟨ts, by rw [ofText?_blank hb, hts], hgives⟩
  | mark _ ih =>
    rw [List.all_cons, Bool.and_eq_true] at hls
    obtain ⟨ts, hts, hgives⟩ := ih hls.2
    obtain ⟨t, ht⟩ := Option.isSome_iff_exists.1 hls.1
    exact ⟨t :: ts, by rw [ofText?_mark ht, hts]; rfl, .cons (.mark ht) hgives⟩
  | word _ ih =>
    rw [List.all_cons, Bool.and_eq_true] at hls
    obtain ⟨ts, hts, hgives⟩ := ih hls.2
    obtain rfl := eq_of_beq hls.1
    exact ⟨.null :: ts, by rw [ofText?_null, hts]; rfl, .cons .null hgives⟩
  | quoted hspells _ ih =>
    rw [List.all_cons, Bool.and_eq_true] at hls
    obtain ⟨ts, hts, hgives⟩ := ih hls.2
    obtain ⟨ps, hps, hs⟩ := ofText?_quoted hspells _
    exact ⟨.string ps :: ts, by rw [hps, hts]; rfl, .cons (.quoted hs) hgives⟩

end Stencil.Json
