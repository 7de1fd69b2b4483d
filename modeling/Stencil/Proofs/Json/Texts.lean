import Mathlib.Data.List.Forall2
import Stencil.Json.Lexer
import Stencil.Json.Printer
/-!
# Texts of JSON data

JSON data have many texts: blanks may stand before and after everything, and a character of a string may be written as it
is, with a letter after a backslash, or as one or two units of sixteen bits in four hexadecimal digits each.  `Json.Writes`
says which texts these are, by the *lexemes* that the data are made of and by how each of them is spelled.

The compact text is one of them (`writes_text`).
-/
namespace Stencil.Json

/-! ## Strings -/

def IsHexDigit (n : Nat) (c : Char) : Prop := n < 0x10 ∧ (c = n.digitChar ∨ c = n.digitChar.toUpper)

instance (n : Nat) (c : Char) : Decidable (IsHexDigit n c) := inferInstanceAs (Decidable (_ ∧ _))

def IsUnit (n : Nat) (digits : List Char) : Prop :=
  List.Forall₂ IsHexDigit [n / 0x1000, n / 0x100 % 0x10, n / 0x10 % 0x10, n % 0x10] digits

instance (n : Nat) (digits : List Char) : Decidable (IsUnit n digits) :=
  inferInstanceAs (Decidable (List.Forall₂ IsHexDigit _ _))

def shortEscapes : List (Char × Char) :=
  [('"', '"'), ('\\', '\\'), ('/', '/'), ('b', '\x08'), ('f', '\x0c'), ('n', '\n'), ('r', '\r'), ('t', '\t')]

/-- **The second list is written between quotation marks for the first.** -/
inductive Spells : List Char → List Char → Prop
  | nil : Spells [] []
  | char {c : Char} {s t : List Char} : 0x20 ≤ c.toNat → c ≠ '"' → c ≠ '\\' → Spells s t → Spells (c :: s) (c :: t)
  | short {e c : Char} {s t : List Char} : (e, c) ∈ shortEscapes → Spells s t → Spells (c :: s) ('\\' :: e :: t)
  | unit {c : Char} {digits s t : List Char} : IsUnit c.toNat digits → Spells s t →
    Spells (c :: s) ('\\' :: 'u' :: (digits ++ t))
  /-- A character beyond sixteen bits, in two halves of ten bits. -/
  | units {c : Char} {high low s t : List Char} : 0x10000 ≤ c.toNat →
    IsUnit (0xd800 + (c.toNat - 0x10000) / 0x400) high → IsUnit (0xdc00 + (c.toNat - 0x10000) % 0x400) low →
    Spells s t → Spells (c :: s) ('\\' :: 'u' :: (high ++ '\\' :: 'u' :: (low ++ t)))

/-! ## Lexemes -/

/-- What JSON texts are made of: marks, words such as keywords and numbers, and quoted strings. -/
inductive Lexeme
  | mark (c : Char)
  | word (w : String)
  | quoted (s : String)

/-- **The text has the lexemes in order**, with blanks anywhere around them. -/
inductive Lexeme.Write : List Lexeme → List Char → Prop
  | nil : Write [] []
  | blank {b : Char} {ls : List Lexeme} {t : List Char} : Token.isSpace b = true → Write ls t → Write ls (b :: t)
  | mark {c : Char} {ls : List Lexeme} {t : List Char} : Write ls t → Write (.mark c :: ls) (c :: t)
  | word {w : String} {ls : List Lexeme} {t : List Char} : Write ls t → Write (.word w :: ls) (w.toList ++ t)
  | quoted {s : String} {u : List Char} {ls : List Lexeme} {t : List Char} : Spells s.toList u → Write ls t →
    Write (.quoted s :: ls) ('"' :: (u ++ '"' :: t))

mutual

/-- The lexemes of JSON data.  Of the texts of a number only the compact one is a word. -/
def lexemes : Json → List Lexeme
  | .null => [.word "null"]
  | .bool b => [.word (if b then "true" else "false")]
  | .number n => [.word n.jsonText]
  | .string s => [.quoted s]
  | .array items => .mark '[' :: ([.mark ','].intercalate (itemLexemes items) ++ [.mark ']'])
  | .object es => .mark '{' :: ([.mark ','].intercalate (entryLexemes es) ++ [.mark '}'])

def itemLexemes : List Json → List (List Lexeme)
  | [] => []
  | j :: rest => j.lexemes :: itemLexemes rest

def entryLexemes : List (String × Json) → List (List Lexeme)
  | [] => []
  | (k, j) :: rest => (.quoted k :: .mark ':' :: j.lexemes) :: entryLexemes rest

end

def Writes (j : Json) (text : String) : Prop := Lexeme.Write j.lexemes text.toList

/-! ## The compact text -/

theorem isUnit_of_lt {n : Nat} (h : n < 0x20) : IsUnit n ['0', '0', Nat.digitChar (n / 16), Nat.digitChar (n % 16)] := by
  have hzero : IsHexDigit 0 '0' := ⟨by decide, .inl rfl⟩
  have h₁ : n / 0x1000 = 0 := by omega
  have h₂ : n / 0x100 % 0x10 = 0 := by omega
  have h₃ : n / 0x10 % 0x10 = n / 16 := by omega
  rw [IsUnit, h₁, h₂, h₃]
  exact .cons hzero (.cons hzero (.cons ⟨by omega, .inl rfl⟩ (.cons ⟨by omega, .inl rfl⟩ .nil)))

theorem Spells.escape {c : Char} {s t : List Char} (h : Spells s t) : Spells (c :: s) (escape c ++ t) := by
  have hshort : ∀ {e d : Char}, c = d → (e, d) ∈ shortEscapes → Spells (c :: s) ('\\' :: e :: t) := by
    rintro e _ rfl hmem
    exact .short hmem h
  unfold Json.escape
  iterate 7
    split
    · exact hshort ‹_› (by decide)
  split
  · exact .unit (isUnit_of_lt ‹_›) h
  · exact .char (by omega) ‹_› ‹_› h

theorem spells_flatMap_escape : ∀ s : List Char, Spells s (s.flatMap Json.escape)
  | [] => .nil
  | c :: s => by
    rw [List.flatMap_cons]
    exact (spells_flatMap_escape s).escape

theorem write_quote {s : String} {ls : List Lexeme} {t : List Char} (h : Lexeme.Write ls t) :
    Lexeme.Write (.quoted s :: ls) ((quote s).toList ++ t) := by
  have hquote : (quote s).toList ++ t = '"' :: (s.toList.flatMap Json.escape ++ '"' :: t) := by simp [quote]
  rw [hquote]
  exact .quoted (spells_flatMap_escape _) h

theorem intercalate_cons {α : Type} (m : α) (x : List α) (xs : List (List α)) :
    [m].intercalate (x :: xs) = x ++ xs.flatMap (m :: ·) := by
  induction xs generalizing x with
  | nil => simp [List.intercalate]
  | cons y ys ih =>
    have hstep : [m].intercalate (x :: y :: ys) = x ++ m :: [m].intercalate (y :: ys) := by simp [List.intercalate]
    rw [hstep, ih, List.flatMap_cons, List.cons_append]

mutual

theorem write_text : ∀ (j : Json) {ls : List Lexeme} {t : List Char}, Lexeme.Write ls t →
    Lexeme.Write (j.lexemes ++ ls) (j.text.toList ++ t)
  | .null, _, _, h => .word h
  | .bool _, _, _, h => .word h
  | .number _, _, _, h => .word h
  | .string _, _, _, h => write_quote h
  | .array items, ls, t, h => by
    have hopen : "[".toList = ['['] := by decide
    have hclose : "]".toList = [']'] := by decide
    have hitems := write_itemsText items (.mark (c := ']') h)
    simp only [lexemes, text, String.toList_append, hopen, hclose, List.cons_append, List.nil_append, List.append_assoc]
    exact .mark hitems
  | .object es, ls, t, h => by
    have hopen : "\x7b".toList = ['{'] := by decide
    have hclose : "\x7d".toList = ['}'] := by decide
    have hentries := write_entriesText es (.mark (c := '}') h)
    simp only [lexemes, text, String.toList_append, hopen, hclose, List.cons_append, List.nil_append, List.append_assoc]
    exact .mark hentries

theorem write_itemsText : ∀ (items : List Json) {ls : List Lexeme} {t : List Char}, Lexeme.Write ls t →
    Lexeme.Write ([.mark ','].intercalate (itemLexemes items) ++ ls) ((itemsText true items).toList ++ t)
  | [], _, _, h => h
  | j :: rest, ls, t, h => by
    have hj := write_text j (write_moreItems rest h)
    simp only [itemLexemes, itemsText, intercalate_cons, if_true, String.toList_append, String.toList_empty,
      List.nil_append, List.append_assoc]
    exact hj

theorem write_moreItems : ∀ (items : List Json) {ls : List Lexeme} {t : List Char}, Lexeme.Write ls t →
    Lexeme.Write ((itemLexemes items).flatMap (.mark ',' :: ·) ++ ls) ((itemsText false items).toList ++ t)
  | [], _, _, h => h
  | j :: rest, ls, t, h => by
    have hcomma : ",".toList = [','] := by decide
    have hj := write_text j (write_moreItems rest h)
    simp only [itemLexemes, itemsText, List.flatMap_cons, Bool.false_eq_true, if_false, String.toList_append, hcomma,
      List.cons_append, List.nil_append, List.append_assoc]
    exact .mark hj

theorem write_entriesText : ∀ (es : List (String × Json)) {ls : List Lexeme} {t : List Char}, Lexeme.Write ls t →
    Lexeme.Write ([.mark ','].intercalate (entryLexemes es) ++ ls) ((entriesText true es).toList ++ t)
  | [], _, _, h => h
  | (k, j) :: rest, ls, t, h => by
    have hcolon : ":".toList = [':'] := by decide
    have hj := write_text j (write_moreEntries rest h)
    simp only [entryLexemes, entriesText, intercalate_cons, if_true, String.toList_append, String.toList_empty, hcolon,
      List.cons_append, List.nil_append, List.append_assoc]
    exact write_quote (.mark hj)

theorem write_moreEntries : ∀ (es : List (String × Json)) {ls : List Lexeme} {t : List Char}, Lexeme.Write ls t →
    Lexeme.Write ((entryLexemes es).flatMap (.mark ',' :: ·) ++ ls) ((entriesText false es).toList ++ t)
  | [], _, _, h => h
  | (k, j) :: rest, ls, t, h => by
    have hcomma : ",".toList = [','] := by decide
    have hcolon : ":".toList = [':'] := by decide
    have hj := write_text j (write_moreEntries rest h)
    simp only [entryLexemes, entriesText, List.flatMap_cons, Bool.false_eq_true, if_false, String.toList_append, hcomma,
      hcolon, List.cons_append, List.nil_append, List.append_assoc]
    exact .mark (write_quote (.mark hj))

end

theorem writes_text (j : Json) : j.Writes j.text := by
  have h := write_text j Lexeme.Write.nil
  rwa [List.append_nil, List.append_nil] at h

end Stencil.Json
