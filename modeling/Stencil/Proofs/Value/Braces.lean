import Stencil.Proofs.Placeholder.Quiet
import Stencil.Proofs.Value.Parts
import Stencil.Value.Text
/-!
# The texts of values without opening braces

If no string and no key in a value has an opening brace, then the only opening braces in its text are those that JSON puts
before the entries of an object.  Each of them stands before a quote or a closing brace, so no placeholder begins in the
text (`inert_text`).
-/
namespace Stencil

/-- No string and no object key in a value, at any depth, has an opening brace. -/
def Value.BraceFree (v : Value) : Prop := ∀ text ∈ v.texts, '{' ∉ text.toList

instance (v : Value) : Decidable v.BraceFree := inferInstanceAs (Decidable (∀ text ∈ v.texts, '{' ∉ text.toList))

theorem Value.BraceFree.of_mem {v w : Value} (hv : v.BraceFree) (h : w ∈ v.parts) : w.BraceFree :=
  fun t ht => hv t (Value.texts_subset h ht)

theorem Value.braceFree_string {s : String} (h : '{' ∉ s.toList) : (Value.string s).BraceFree := fun t ht => by
  rwa [List.mem_singleton.1 ht]

/-! ## Numbers and dates -/

theorem ne_brace_of_isDigit {c : Char} (h : c.isDigit = true) : c ≠ '{' := by
  rintro rfl; revert h; decide

theorem brace_not_mem_toDigits (n : Nat) : '{' ∉ Nat.toDigits 10 n := fun h =>
  ne_brace_of_isDigit (Nat.isDigit_of_mem_toDigits (by decide) (by decide) h) rfl

theorem brace_not_mem_toString_nat (n : Nat) : '{' ∉ (toString n).toList := by
  rw [Nat.toString_eq_repr, Nat.toList_repr]; exact brace_not_mem_toDigits n

theorem brace_not_mem_toString_int (n : Int) : '{' ∉ (toString n).toList := by
  rw [Int.toString_eq_repr, Int.repr_eq_if]
  split
  · rw [Nat.toList_repr]; exact brace_not_mem_toDigits _
  · rw [String.toList_append, Nat.toList_repr, List.mem_append]
    exact fun h => h.elim (by decide) (brace_not_mem_toDigits _)

namespace Decimal

theorem brace_not_mem_significant (n : Nat) : '{' ∉ significant n := fun h => by
  have h := List.dropWhile_subset _ (List.mem_reverse.1 h)
  exact brace_not_mem_toDigits n (List.mem_reverse.1 h)

theorem brace_not_mem_place (form : Form) {digits : List Char} (h : '{' ∉ digits) (point : Int) :
    '{' ∉ form.place digits point := by
  have hexp : '{' ∉ 'e' :: (toString (point - 1)).toList :=
    List.not_mem_cons_of_ne_of_not_mem (by decide) (brace_not_mem_toString_int _)
  unfold Form.place
  simp only
  generalize 'e' :: (toString (point - 1)).toList = exponent at hexp ⊢
  split
  · simp [h]
  · split
    · split
      · simp [h]
      · have htake : '{' ∉ digits.take point.toNat := fun hm => h (List.mem_of_mem_take hm)
        have hdrop : '{' ∉ digits.drop point.toNat := fun hm => h (List.mem_of_mem_drop hm)
        simp [htake, hdrop]
    · split
      · exact hexp
      · exact List.not_mem_cons_of_ne_of_not_mem (List.ne_of_not_mem_cons h) hexp
      · have hd := List.ne_of_not_mem_cons h
        have hmore := List.not_mem_of_not_mem_cons h
        simp [hd, hmore, hexp]

theorem brace_not_mem_text (form : Form) (x : Float) : '{' ∉ (form.text x).toList := by
  have hplace := fun n => brace_not_mem_place form (brace_not_mem_significant n)
  unfold Form.text
  simp only
  split
  · split <;> simp
  · split <;> simp [hplace]

theorem brace_not_mem_wholeText {limit : Nat} {x : Float} {text : String} (h : wholeText? limit x = some text) :
    '{' ∉ text.toList := by
  unfold wholeText? at h
  simp only at h
  split at h
  · cases h
    have := brace_not_mem_toString_nat (Binary.decode x).floorAbs
    split <;> simpa using this
  · cases h

end Decimal

theorem Number.brace_not_mem_jsonText (n : Number) : '{' ∉ n.jsonText.toList := by
  cases n with
  | int n _ => exact brace_not_mem_toString_int n
  | float x _ => exact Decimal.brace_not_mem_text _ x

theorem Number.brace_not_mem_text (n : Number) : '{' ∉ n.text.toList := by
  cases n with
  | int n h => exact brace_not_mem_jsonText (.int n h)
  | float x h =>
    rw [text]
    cases hw : Decimal.wholeText? wholeLimit x with
    | none => exact brace_not_mem_jsonText (.float x h)
    | some t => exact Decimal.brace_not_mem_wholeText hw

namespace Instant

theorem brace_not_mem_padded (width n : Nat) : '{' ∉ (padded width n).toList := by
  have hzeros : ∀ n, '{' ∉ List.replicate n '0' := fun n hm => by cases List.eq_of_mem_replicate hm
  have hn := brace_not_mem_toString_nat n
  simp only [padded, String.toList_append, String.toList_ofList, List.mem_append, not_or]
  exact ⟨hzeros _, hn⟩

theorem brace_not_mem_text (t : Instant) : '{' ∉ t.text.toList := by
  have hyear : ∀ y, '{' ∉ (yearText y).toList := fun y => by
    unfold yearText
    split
    · simp [brace_not_mem_padded]
    · split <;> simp [brace_not_mem_padded]
  have hfraction : ∀ n, '{' ∉ (fractionText n).toList := fun n => by
    unfold fractionText
    split
    · simp
    · split
      · simp [brace_not_mem_padded]
      · split <;> simp [brace_not_mem_padded]
  simp [text, localText, hyear, hfraction, brace_not_mem_padded]

end Instant

/-! ## JSON -/

namespace Json

theorem brace_not_mem_escape {c : Char} (hc : c ≠ '{') : '{' ∉ escape c := by
  have hhex : ∀ n < 16, '{' ≠ Nat.digitChar n := by decide
  unfold escape
  iterate 7
    split
    · simp
  split
  · have h₁ := hhex (c.toNat / 16) (by omega)
    have h₂ := hhex (c.toNat % 16) (by omega)
    simp [h₁, h₂]
  · simpa using hc.symm

theorem brace_not_mem_quote {s : String} (h : '{' ∉ s.toList) : '{' ∉ (quote s).toList := by
  have hbody : '{' ∉ s.toList.flatMap escape := fun hm => by
    obtain ⟨c, hc, hm⟩ := List.mem_flatMap.1 hm
    exact brace_not_mem_escape (fun e => h (e ▸ hc)) hm
  simp [quote, hbody]

end Json

namespace Value

open Placeholder (Inert inert_of_not_mem)

theorem inert_itemsText : ∀ (first : Bool) {items : List Value}, (∀ v ∈ items, Inert v.toJson.text.toList) →
    Inert (Json.itemsText first (itemsToJson items)).toList
  | _, [], _ => by rw [itemsToJson, Json.itemsText]; exact inert_of_not_mem (by decide)
  | first, v :: rest, h => by
    have hrest := inert_itemsText false fun w hw => h w (List.mem_cons_of_mem _ hw)
    have hcomma : '{' ∉ (if first then "" else ",").toList := by cases first <;> decide
    rw [itemsToJson, Json.itemsText, String.toList_append, String.toList_append]
    exact ((inert_of_not_mem hcomma).append (h v List.mem_cons_self)).append hrest

theorem inert_entriesText : ∀ (first : Bool) {es : List (String × Value)},
    (∀ e ∈ es, '{' ∉ e.1.toList ∧ Inert e.2.toJson.text.toList) →
      Inert (Json.entriesText first (entriesToJson es)).toList
  | _, [], _ => by rw [entriesToJson, Json.entriesText]; exact inert_of_not_mem (by decide)
  | first, (k, v) :: rest, h => by
    have hrest := inert_entriesText false fun e he => h e (List.mem_cons_of_mem _ he)
    obtain ⟨hk, hv⟩ := h (k, v) List.mem_cons_self
    have hcomma : '{' ∉ (if first then "" else ",").toList := by cases first <;> decide
    have hquote := inert_of_not_mem (Json.brace_not_mem_quote hk)
    have hcolon : Inert ":".toList := inert_of_not_mem (by decide)
    simp only [entriesToJson, Json.entriesText, String.toList_append]
    exact ((((inert_of_not_mem hcomma).append hquote).append hcolon).append hv).append hrest

theorem inert_objectText {es : List (String × Value)}
    (h : ∀ e ∈ es, '{' ∉ e.1.toList ∧ Inert e.2.toJson.text.toList) : Inert (object es).toJson.text.toList := by
  have hclose : Inert "\x7d".toList := inert_of_not_mem (by decide)
  have hinner := (inert_entriesText true h).append hclose
  have hopen : "\x7b".toList = ['{'] := by decide
  simp only [toJson, Json.text, String.toList_append]
  rw [hopen, List.singleton_append, List.cons_append]
  cases es with
  | nil => exact hinner.brace_cons (by decide)
  | cons e rest =>
    simp only [entriesToJson, Json.entriesText, Json.quote, String.toList_append, String.toList_ofList, if_true,
      String.toList_empty, List.nil_append, List.cons_append] at hinner ⊢
    exact hinner.brace_cons (by decide)

theorem inert_jsonText {v : Value} : v.BraceFree → Inert v.toJson.text.toList := by
  induction v using inductionOn with
  | null | function _ => intro _; rw [toJson, Json.text]; exact inert_of_not_mem (by decide)
  | bool b => intro _; rw [toJson, Json.text]; exact inert_of_not_mem (by cases b <;> decide)
  | number n => intro _; rw [toJson, Json.text]; exact inert_of_not_mem n.brace_not_mem_jsonText
  | string s =>
    intro h
    rw [toJson, Json.text]
    exact inert_of_not_mem (Json.brace_not_mem_quote (h s (mem_texts_string s)))
  | date t =>
    intro _
    rw [toJson, Json.text]
    exact inert_of_not_mem (Json.brace_not_mem_quote t.brace_not_mem_text)
  | array items ih =>
    intro h
    have hitems := inert_itemsText true fun v hv => ih v hv (h.of_mem (mem_parts_array hv v.mem_parts_self))
    have hopen : Inert "[".toList := inert_of_not_mem (by decide)
    have hclose : Inert "]".toList := inert_of_not_mem (by decide)
    simp only [toJson, Json.text, String.toList_append]
    exact (hopen.append hitems).append hclose
  | object es ih =>
    intro h
    exact inert_objectText fun e he =>
      ⟨h e.1 (mem_texts_key he), ih e he (h.of_mem (mem_parts_object he e.2.mem_parts_self))⟩

/-- **No placeholder begins in the text of a value without opening braces**, whatever follows the text. -/
theorem inert_text {v : Value} (h : v.BraceFree) : Inert v.text.toList := by
  cases v with
  | null | function _ => rw [text]; exact inert_of_not_mem (by decide)
  | bool b => rw [text]; exact inert_of_not_mem (by cases b <;> decide)
  | number n => rw [text]; exact inert_of_not_mem n.brace_not_mem_text
  | string s => rw [text]; exact inert_of_not_mem (h s (mem_texts_string s))
  | date t => rw [text]; exact inert_of_not_mem t.brace_not_mem_text
  | array _ | object _ => rw [text]; exact inert_jsonText h

end Value
end Stencil
