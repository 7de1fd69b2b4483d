import Stencil.Evaluator
import Stencil.Proofs.Entries
import Stencil.Proofs.Expr.Dotted
/-!
# Bracketed paths

A bracketed path is a name and brackets behind it, each with an index or a quoted key (`BracketedPath`).  It is read twice,
as a path and as an expression, by readers with escapes and numbers of their own; both read the same segments.  So
evaluating it comes to what the path leads to in the scope (`Evaluator.expressions_bracketed`).
-/
namespace Stencil

structure BracketedPath where
  root : String
  isName : Expr.isName root = true
  brackets : List Bracket

namespace BracketedPath

def text (p : BracketedPath) : String := String.ofList (p.root.toList ++ p.brackets.flatMap Bracket.chars)

def segments (p : BracketedPath) : List String := p.root :: p.brackets.map Bracket.segment

end BracketedPath

/-! ## As a path -/

namespace Bracket

theorem writes (first : Bool) (b : Bracket) : Path.Writes first b.segment b.chars := by
  cases b with
  | index n fits =>
    have hdigits := (Path.isDecimal_toString n).isDigit
    have hhead : ∀ c, (toString n).toList.head? = some c → c.isDigit = true :=
      fun c hc => hdigits c (List.mem_of_head? hc)
    refine .unquoted (fun hm => ?_) ⟨fun hq => ?_, fun hq => ?_⟩
    · exact absurd (hdigits ']' hm) (by decide)
    · exact absurd (hhead _ hq) (by decide)
    · exact absurd (hhead _ hq) (by decide)
  | key quote name =>
    have hchars : (key quote name).chars =
        '[' :: quote.char :: (Path.escaped quote.char name.toList ++ [quote.char, ']']) := by
      simp [chars, Quote.around]
    rw [hchars]
    exact .quoted quote.char_eq

theorem spells : ∀ brackets : List Bracket, Path.Spells false (brackets.map segment) (brackets.flatMap chars)
  | [] => .nil
  | b :: rest => by
    rw [List.map_cons, List.flatMap_cons]
    exact .cons (b.writes false) (spells rest)

end Bracket

namespace BracketedPath

theorem segments_text (p : BracketedPath) : Path.segments p.text = p.segments := by
  obtain ⟨hne, hchars⟩ := PathPart.isNameChar_of_isName p.isName
  refine Path.segments_of_spells ?_
  rw [text, String.toList_ofList]
  exact .cons (.bare hne fun c hc => Token.isBare_of_isNameChar (hchars c hc)) (Bracket.spells p.brackets)

theorem text_of_nil {p : BracketedPath} (h : p.brackets = []) : p.text = p.root := by
  simp [text, h]

theorem text_ne_empty (p : BracketedPath) : p.text.isEmpty = false := by
  obtain ⟨hne, -⟩ := PathPart.isNameChar_of_isName p.isName
  rw [Bool.eq_false_iff, Ne, String.isEmpty_iff]
  intro h
  have hnil : p.root.toList ++ p.brackets.flatMap Bracket.chars = [] := by
    rw [← String.toList_ofList (l := p.root.toList ++ _)]
    exact String.toList_eq_nil_iff.2 h
  exact hne (String.toList_eq_nil_iff.1 (List.append_eq_nil_iff.1 hnil).1)

/-! ## As an expression -/

theorem parse_eq (p : BracketedPath) : Expr.parse p.text = .ok (.path p.segments) := by
  obtain ⟨us, hus, hpath⟩ := Bracket.exists_reads_all p.brackets (Expr.reads_name p.isName) (.root p.root)
  have htokens : (Feed.ofSource p.text).tokens? = some us := by
    rw [Feed.ofSource, text, String.toList_ofList]
    exact hus.read?_eq
  exact Expr.parse_of_path htokens hpath

/-! ## As a lookup -/

/-- **The text of a path leads where its segments do**, unless there are brackets and the whole text is a key. -/
theorem get?_text {p : BracketedPath} {es : Entries Value} (hroot : p.root ∈ es.keys)
    (htext : p.brackets ≠ [] → p.text ∉ es.keys) :
    (Value.object es).get? p.text = (Value.object es).descend? p.segments := by
  have hget : (Value.object es).get? p.text = (es.get? p.text).or ((Value.object es).descend? p.segments) := by
    rw [Value.get?_object, if_neg (by rw [p.text_ne_empty]; decide), p.segments_text]
  rw [hget]
  by_cases hnil : p.brackets = []
  · -- the only segment is the key itself
    obtain ⟨v, hv⟩ := Entries.exists_get?_of_mem hroot
    have hdescend : (Value.object es).descend? p.segments = some v := by
      rw [segments, hnil]
      show (es.get? p.root).bind _ = _
      rw [hv]
      rfl
    rw [text_of_nil hnil, hv, hdescend]
    rfl
  · rw [Entries.get?_eq_none (htext hnil), Option.none_or]

theorem resolve_segments {p : BracketedPath} {es : Entries Value} (hroot : p.root ∈ es.keys) :
    Expr.resolve p.segments (.object es) = .ok (((Value.object es).descend? p.segments).getD .null) := by
  obtain ⟨v, hv⟩ := Entries.exists_get?_of_mem hroot
  have hdefined : Value.entry? (.object es) p.root = some v := hv
  show (if _ then _ else _) = _
  rw [if_pos (by rw [hdefined]; rfl)]

end BracketedPath

/-- **A bracketed path is the same segments as a path and as an expression**, whichever indexes and quotation marks are in
its brackets.  Evaluated in an object that has its name, it comes to what it leads to there, or to null; only a key that
reads like the whole path, brackets and all, would come between. -/
theorem Evaluator.expressions_bracketed (p : BracketedPath) :
    Path.segments p.text = p.segments ∧ Expr.parse p.text = .ok (.path p.segments) ∧
    ∀ es : Entries Value, p.root ∈ es.keys → (p.brackets ≠ [] → p.text ∉ es.keys) →
      Evaluator.expressions p.text (.object es) = .ok (((Value.object es).get? p.text).getD .null) := by
  refine ⟨p.segments_text, p.parse_eq, fun es hroot htext => ?_⟩
  unfold expressions
  rw [p.parse_eq, BracketedPath.get?_text hroot htext]
  show (Expr.resolve p.segments (.object es)).mapError _ = _
  rw [BracketedPath.resolve_segments hroot]
  rfl

/-- A key with a quote, a backslash and a bracket, and an index; and a key that is missing beside one that is spelled
otherwise. -/
theorem Evaluator.expressions_bracketed_escaped :
    Evaluator.expressions "a[\"\\\"\\\\]\"][0]" (.object [("a", .object [("\"\\]", .object [("0", .bool true)])])]) =
      .ok (.bool true) ∧
    Evaluator.expressions "a[\"0\"]" (.object [("a", .null), ("a[0]", .bool true)]) = .ok .null := by
  have hescapedText : BracketedPath.text ⟨"a", by decide, [.key .double "\"\\]", .index 0 (by decide)]⟩ =
      "a[\"\\\"\\\\]\"][0]" := by decide
  have hmissingText : BracketedPath.text ⟨"a", by decide, [.key .double "0"]⟩ = "a[\"0\"]" := by decide
  have hescaped := (expressions_bracketed ⟨"a", by decide, [.key .double "\"\\]", .index 0 (by decide)]⟩).2.2
    [("a", .object [("\"\\]", .object [("0", .bool true)])])] List.mem_cons_self
    fun _ => by rw [hescapedText]; decide
  have hmissing := (expressions_bracketed ⟨"a", by decide, [.key .double "0"]⟩).2.2
    [("a", .null), ("a[0]", .bool true)] List.mem_cons_self
    fun _ => by rw [hmissingText]; decide
  rw [BracketedPath.get?_text List.mem_cons_self fun _ => by rw [hescapedText]; decide, hescapedText] at hescaped
  rw [BracketedPath.get?_text List.mem_cons_self fun _ => by rw [hmissingText]; decide, hmissingText] at hmissing
  exact ⟨hescaped, hmissing⟩

end Stencil
