import Stencil.Parameter.Json
import Stencil.Proofs.Json.Tokens
/-!
# Parameters through JSON

A parameter is what any text of its JSON form reads to, and any text of the sequence of its key and its default.  So the
text that is written for a parameter tells it from all others, a default that is missing from one that is empty too.
-/
namespace Stencil.Parameter

open Json (decodeText Lexeme)
open Json.Token (ofText?)

def sequence (p : Parameter) : Json := .array [.string p.key, p.default?.elim .null .string]

/-! ## Members -/

theorem ofMembers?_of_take? {m n : Members} {name : String} {ps : List Json.Piece} {ts left : List Json.Token}
    (hname : decodeText ps = some name) (h : m.take? name ts = some (n, left)) :
    ofMembers? m (.string ps :: .colon :: ts) = match left with
      | [.closeBrace] => n.parameter?
      | .comma :: more => ofMembers? n more
      | _ => none := by
  rw [ofMembers?.eq_def]
  simp only [hname]
  split
  · rename_i h'
    rw [h] at h'
    cases h'
    rfl
  · rename_i h'
    rw [h] at h'
    cases h'
    rfl
  · rename_i hlast hmore
    split
    · exact absurd ‹_› (hlast n)
    · exact absurd ‹_› (hmore n _)
    · rfl

theorem take?_key {default? : Option (Option String)} {ps : List Json.Piece} {key : String}
    (h : decodeText ps = some key) (ts : List Json.Token) :
    (⟨none, default?⟩ : Members).take? "key" (.string ps :: ts) = some (⟨some key, default?⟩, ts) := by
  simp [Members.take?, h]

theorem take?_default {key? : Option String} {ps : List Json.Piece} {default : String}
    (h : decodeText ps = some default) (ts : List Json.Token) :
    (⟨key?, none⟩ : Members).take? "defaultValue" (.string ps :: ts) = some (⟨key?, some (some default)⟩, ts) := by
  simp [Members.take?, defaultOf?, h]

/-! ## Texts -/

theorem gives_member {name value : String} {ls : List Lexeme} {ts : List Json.Token}
    (h : List.Forall₂ Lexeme.Gives (.quoted name :: .mark ':' :: .quoted value :: ls) ts) :
    ∃ ps qs rest, ts = .string ps :: .colon :: .string qs :: rest ∧ decodeText ps = some name ∧
      decodeText qs = some value ∧ List.Forall₂ Lexeme.Gives ls rest := by
  obtain ⟨ps, _, rfl, hname, hcolon⟩ := Lexeme.gives_quoted h
  obtain ⟨_, rfl, hquoted⟩ := Lexeme.gives_mark (t := .colon) rfl hcolon
  obtain ⟨qs, rest, rfl, hvalue, hrest⟩ := Lexeme.gives_quoted hquoted
  exact ⟨ps, qs, rest, rfl, hname, hvalue, hrest⟩

theorem ofTokens?_of_toJson {p : Parameter} {ts : List Json.Token} (h : List.Forall₂ Lexeme.Gives p.toJson.lexemes ts) :
    ofTokens? ts = some p := by
  obtain ⟨key, default?⟩ := p
  obtain ⟨_, rfl, hmembers⟩ := Lexeme.gives_mark (t := .openBrace) rfl h
  cases default? with
  | none =>
    obtain ⟨_, _, _, rfl, hname, hkey, hclose⟩ := gives_member hmembers
    obtain ⟨_, rfl, hend⟩ := Lexeme.gives_mark (t := .closeBrace) rfl hclose
    cases hend
    rw [ofTokens?, ofMembers?_of_take? hname (take?_key hkey _)]
    rfl
  | some default =>
    obtain ⟨_, _, _, rfl, hname, hkey, hcomma⟩ := gives_member hmembers
    obtain ⟨_, rfl, hmember⟩ := Lexeme.gives_mark (t := .comma) rfl hcomma
    obtain ⟨_, _, _, rfl, hname', hdefault, hclose⟩ := gives_member hmember
    obtain ⟨_, rfl, hend⟩ := Lexeme.gives_mark (t := .closeBrace) rfl hclose
    cases hend
    rw [ofTokens?, ofMembers?_of_take? hname (take?_key hkey _)]
    exact ofMembers?_of_take? hname' (take?_default hdefault _)

theorem ofTokens?_of_sequence {p : Parameter} {ts : List Json.Token}
    (h : List.Forall₂ Lexeme.Gives p.sequence.lexemes ts) : ofTokens? ts = some p := by
  obtain ⟨key, default?⟩ := p
  obtain ⟨_, rfl, helements⟩ := Lexeme.gives_mark (t := .openBracket) rfl h
  obtain ⟨_, _, rfl, hkey, hcomma⟩ := Lexeme.gives_quoted helements
  obtain ⟨_, rfl, helement⟩ := Lexeme.gives_mark (t := .comma) rfl hcomma
  cases default? with
  | none =>
    obtain ⟨_, rfl, hclose⟩ := Lexeme.gives_null helement
    obtain ⟨_, rfl, hend⟩ := Lexeme.gives_mark (t := .closeBracket) rfl hclose
    cases hend
    rw [ofTokens?, hkey]
    rfl
  | some default =>
    obtain ⟨_, _, rfl, hdefault, hclose⟩ := Lexeme.gives_quoted helement
    obtain ⟨_, rfl, hend⟩ := Lexeme.gives_mark (t := .closeBracket) rfl hclose
    cases hend
    rw [ofTokens?, hkey, Option.bind_some, defaultOf?, hdefault]
    rfl

theorem isGiven_toJson (p : Parameter) : p.toJson.lexemes.all Lexeme.isGiven = true := by
  obtain ⟨key, _ | default⟩ := p <;> rfl

theorem isGiven_sequence (p : Parameter) : p.sequence.lexemes.all Lexeme.isGiven = true := by
  obtain ⟨key, _ | default⟩ := p <;> rfl

/-- **Every text of a parameter is read as that parameter**, be it an object or a sequence. -/
theorem ofJsonText?_of_writes {p : Parameter} {text : String} (h : p.toJson.Writes text ∨ p.sequence.Writes text) :
    ofJsonText? text = some p := by
  rcases h with h | h
  · obtain ⟨ts, hts, hgives⟩ := Json.ofText?_of_write h p.isGiven_toJson
    rw [ofJsonText?, hts, Option.bind_some, ofTokens?_of_toJson hgives]
  · obtain ⟨ts, hts, hgives⟩ := Json.ofText?_of_write h p.isGiven_sequence
    rw [ofJsonText?, hts, Option.bind_some, ofTokens?_of_sequence hgives]

theorem ofJsonText?_jsonText (p : Parameter) : ofJsonText? p.jsonText = some p :=
  ofJsonText?_of_writes (.inl (Json.writes_text _))

/-- **A parameter comes back from its text**, and from the text of the sequence of its key and its default, however these are
written.  So no two parameters have one text. -/
theorem reads_written (p : Parameter) :
    ofJsonText? p.jsonText = some p ∧ ofJsonText? p.sequence.text = some p ∧
    (∀ text, p.toJson.Writes text ∨ p.sequence.Writes text → ofJsonText? text = some p) ∧
    (∀ q : Parameter, q.jsonText = p.jsonText → q = p) := by
  refine ⟨p.ofJsonText?_jsonText, ofJsonText?_of_writes (.inr (Json.writes_text _)), fun _ => ofJsonText?_of_writes, ?_⟩
  intro q h
  have hq := q.ofJsonText?_jsonText
  rw [h, p.ofJsonText?_jsonText] at hq
  exact (Option.some.inj hq).symm

/-- A character in two halves, with digits in both cases, and blanks; and a default that is empty. -/
theorem reads_written_escapes :
    let p : Parameter := ⟨"😀", none⟩
    let text := "[\"\\ud83d\\uDE00\" , null]"
    p.sequence.Writes text ∧ ofJsonText? text = some p ∧
      (⟨"k", none⟩ : Parameter).jsonText ≠ (⟨"k", some ""⟩ : Parameter).jsonText := by
  intro p text
  let spelled := ['\\', 'u', 'd', '8', '3', 'd', '\\', 'u', 'D', 'E', '0', '0']
  have hkey : Json.Spells "😀".toList spelled :=
    .units (show 0x10000 ≤ '😀'.toNat by decide) (show Json.IsUnit _ ['d', '8', '3', 'd'] by decide)
      (show Json.IsUnit _ ['D', 'E', '0', '0'] by decide) .nil
  have htext : text.toList = '[' :: '"' :: (spelled ++ '"' :: ' ' :: ',' :: ' ' :: ("null".toList ++ [']'])) := by decide
  have hwrites : p.sequence.Writes text := by
    rw [Json.Writes, htext]
    exact .mark (.quoted hkey (.blank (by decide) (.mark (.blank (by decide) (.word (.mark .nil))))))
  obtain ⟨-, -, hread, -⟩ := reads_written p
  obtain ⟨-, -, -, hunique⟩ := reads_written ⟨"k", some ""⟩
  exact ⟨hwrites, hread text (.inr hwrites), fun h => absurd (hunique ⟨"k", none⟩ h) (by decide)⟩

end Stencil.Parameter
