import Mathlib.Data.List.Chain
import Stencil.Proofs.Expr.Printed
/-!
# Dotted paths

A dotted path is a name and parts behind dots, each a name or a number (`DottedPath`).  It is read twice: as a path, which
splits it at its dots, and as an expression, whose tokens are the longest.  There two numbers in a row and the dot between
them are one number with a point (`DottedPath.tokens`), and behind a dot no path goes on with that.
-/
namespace Stencil

open Grammar

inductive PathPart
  | name (s : String) (isName : Expr.isName s = true)
  | position (n : Nat) (fits : n < 2 ^ 63)

namespace PathPart

def text : PathPart → String
  | name s _ => s
  | position n _ => toString n

def token : PathPart → Token
  | name s _ => .name s
  | position n fits => .int n fits

def isPosition : PathPart → Bool
  | name _ _ => false
  | position _ _ => true

def chars (parts : List PathPart) : List Char := parts.flatMap fun p => '.' :: p.text.toList

/-- No two numbers stand in a row. -/
def Apart (parts : List PathPart) : Prop := parts.IsChain fun p q => ¬ (p.isPosition = true ∧ q.isPosition = true)

/-- The tokens of some parts, each behind a dot.  Two numbers and the dot between them are one token. -/
def tokens : List PathPart → List Token
  | .position m _ :: .position n _ :: rest =>
    .symbol .dot :: Token.decimal (toString m).toList (toString n).toList :: tokens rest
  | p :: rest => .symbol .dot :: p.token :: tokens rest
  | [] => []

def plainTokens (parts : List PathPart) : List Token := parts.flatMap fun p => [.symbol .dot, p.token]

end PathPart

structure DottedPath where
  root : String
  isName : Expr.isName root = true
  parts : List PathPart

namespace DottedPath

def text (d : DottedPath) : String := String.ofList (d.root.toList ++ PathPart.chars d.parts)

def segments (d : DottedPath) : List String := d.root :: d.parts.map PathPart.text

end DottedPath

/-! ## As a path -/

namespace Token

theorem isBare_of_isNameChar {c : Char} (h : isNameChar c = true) : c ≠ '.' ∧ c ≠ '[' :=
  ⟨ne_of_isNameChar h (by decide), ne_of_isNameChar h (by decide)⟩

end Token

namespace PathPart

theorem isNameChar_of_isName {s : String} (h : Expr.isName s = true) : s ≠ "" ∧ ∀ c ∈ s.toList, Token.isNameChar c = true := by
  obtain ⟨c, rest, hs, hc, hrest, -⟩ := Expr.exists_word_of_isName h
  constructor
  · rintro rfl
    cases hs
  · rw [hs]
    exact List.forall_mem_cons.2 ⟨Token.isNameChar_of_isNameStart hc, List.all_eq_true.1 hrest⟩

theorem isNameChar_text (p : PathPart) : p.text ≠ "" ∧ ∀ c ∈ p.text.toList, Token.isNameChar c = true := by
  cases p with
  | name s h => exact isNameChar_of_isName h
  | position n fits =>
    have hn := Path.isDecimal_toString n
    refine ⟨fun he => hn.ne_nil ?_, fun c hc => Token.isNameChar_of_isDigit (hn.isDigit c hc)⟩
    exact String.toList_eq_nil_iff.2 he

theorem spells : ∀ parts : List PathPart, Path.Spells false (parts.map text) (chars parts)
  | [] => .nil
  | p :: rest => by
    obtain ⟨hne, hchars⟩ := p.isNameChar_text
    exact .cons (.bare hne fun c hc => Token.isBare_of_isNameChar (hchars c hc)) (spells rest)

end PathPart

theorem DottedPath.segments_text (d : DottedPath) : Path.segments d.text = d.segments := by
  obtain ⟨hne, hchars⟩ := PathPart.isNameChar_of_isName d.isName
  refine Path.segments_of_spells ?_
  rw [text, String.toList_ofList]
  exact .cons (.bare hne fun c hc => Token.isBare_of_isNameChar (hchars c hc)) (PathPart.spells d.parts)

/-! ## As tokens -/

namespace Token

theorem read?_name {name : String} (h : Expr.isName name = true) {u : List Char}
    (hu : ∀ d, u.head? = some d → isNameChar d = false) : read? (name.toList ++ u) = (read? u).map (.name name :: ·) := by
  obtain ⟨c, rest, hs, hc, hrest, hword⟩ := Expr.exists_word_of_isName h
  rw [hs, read?_word hc hrest hu, hword]

end Token

namespace PathPart

theorem head?_chars (parts : List PathPart) : ∀ c, (chars parts).head? = some c → c = '.' := by
  cases parts with
  | nil => exact fun c hc => nomatch hc
  | cons p rest => exact fun c hc => (Option.some.inj hc).symm

theorem loose_text_append (p : PathPart) (u : List Char) : Token.Loose (p.text.toList ++ u) := by
  obtain ⟨hne, hchars⟩ := p.isNameChar_text
  cases hs : p.text.toList with
  | nil => exact absurd (String.toList_eq_nil_iff.1 hs) hne
  | cons c rest => exact Reads.loose_of_isNameChar _ (hchars c (by rw [hs]; exact List.mem_cons_self))

theorem read?_part (p : PathPart) {rest : List PathPart}
    (h : ∀ q ∈ rest.head?, ¬ (p.isPosition = true ∧ q.isPosition = true)) :
    Token.read? (chars (p :: rest)) = (Token.read? (chars rest)).map ([.symbol .dot, p.token] ++ ·) := by
  have hdot : Token.read? (chars (p :: rest)) = (Token.read? (p.text.toList ++ chars rest)).map (.symbol .dot :: ·) :=
    Token.read?_symbol .dot (p.loose_text_append _)
  have hpart : Token.read? (p.text.toList ++ chars rest) = (Token.read? (chars rest)).map (p.token :: ·) := by
    have hend : ∀ {f : Char → Bool}, f '.' = false → ∀ c, (chars rest).head? = some c → f c = false :=
      fun hf c hc => head?_chars rest c hc ▸ hf
    cases p with
    | name s hs => exact Token.read?_name hs (hend (by decide))
    | position n fits =>
      refine Token.read?_int fits (hend (by decide)) fun d left he => ?_
      cases rest with
      | nil => cases he
      | cons q rest =>
        cases q with
        | position m hm => exact absurd ⟨rfl, rfl⟩ (h _ rfl)
        | name s hs =>
          obtain ⟨c, word, hword, hc, -⟩ := Expr.exists_word_of_isName hs
          have hd : c = d := by
            simp only [chars, List.flatMap_cons, text, hword, List.cons_append] at he
            exact (List.cons.inj (List.cons.inj he).2).1
          exact hd ▸ Token.isDigit_of_isNameStart hc
  rw [hdot, hpart, Option.map_map]
  rfl

/-- **Two numbers in a row are read as one number with a point.** -/
theorem read?_positions {m n : Nat} (hm : m < 2 ^ 63) (hn : n < 2 ^ 63) (rest : List PathPart) :
    Token.read? (chars (.position m hm :: .position n hn :: rest)) = (Token.read? (chars rest)).map
      ([.symbol .dot, Token.decimal (toString m).toList (toString n).toList] ++ ·) := by
  have hdot := Token.read?_symbol .dot ((position m hm).loose_text_append (chars (.position n hn :: rest)))
  have hm := Path.isDecimal_toString m
  have hn := Path.isDecimal_toString n
  have hnumber := Token.number_point hm.isDigit hn.isDigit hn.ne_nil (u := chars rest) fun c hc => by
    cases head?_chars rest c hc
    decide
  have hread := Token.read?_number hm.isDigit hm.ne_nil hnumber
  calc
    _ = (Token.read? ((toString m).toList ++ '.' :: ((toString n).toList ++ chars rest))).map (.symbol .dot :: ·) := hdot
    _ = _ := by rw [hread, Option.map_map]; rfl

theorem not_positions_of_head {p : PathPart} {rest : List PathPart}
    (h : ∀ m hm n hn left, p = .position m hm → rest = .position n hn :: left → False) :
    ∀ q ∈ rest.head?, ¬ (p.isPosition = true ∧ q.isPosition = true) := by
  intro q hq
  obtain ⟨left, rfl⟩ := List.head?_eq_some_iff.1 hq
  rintro ⟨hp, hq⟩
  cases p with
  | name => cases hp
  | position m hm =>
    cases q with
    | name => cases hq
    | position n hn => exact h m hm n hn left rfl rfl

theorem read?_chars (parts : List PathPart) : Token.read? (chars parts) = some (tokens parts) := by
  fun_induction tokens parts with
  | case1 m hm n hn rest ih => rw [read?_positions, ih, Option.map_some]; rfl
  | case2 p rest h ih => rw [read?_part p (not_positions_of_head h), ih, Option.map_some]; rfl
  | case3 => rw [Token.read?, chars, List.flatMap_nil, Feed.ofText.eq_def]; rfl

/-- **The tokens are one for each part**, or up to two numbers in a row. -/
theorem tokens_cases (parts : List PathPart) : Apart parts ∧ tokens parts = plainTokens parts ∨
    ¬ Apart parts ∧ ∃ before x after, tokens parts = plainTokens before ++ .symbol .dot :: .float x :: after := by
  fun_induction tokens parts with
  | case1 m hm n hn rest ih =>
    refine .inr ⟨fun h => ?_, [], _, _, rfl⟩
    exact (List.isChain_cons.1 h).1 _ rfl ⟨rfl, rfl⟩
  | case2 p rest h ih =>
    obtain ⟨hrest, htokens⟩ | ⟨hrest, before, x, after, htokens⟩ := ih
    · exact .inl ⟨List.isChain_cons.2 ⟨not_positions_of_head h, hrest⟩, by rw [htokens]; rfl⟩
    · exact .inr ⟨fun h => hrest (List.isChain_cons.1 h).2, p :: before, x, after, by rw [htokens]; rfl⟩
  | case3 => exact .inl ⟨.nil, rfl⟩

theorem segment_part (p : PathPart) : Segment [.symbol .dot, p.token] p.text := by
  cases p with
  | name s h => exact .name s
  | position n fits => exact .position n fits

theorem path_plainTokens {ts : List Token} {segments : List String} (h : Grammar.Path ts segments) (parts : List PathPart) :
    Grammar.Path (ts ++ plainTokens parts) (segments ++ parts.map text) := by
  induction parts generalizing ts segments with
  | nil => simpa [plainTokens] using h
  | cons p rest ih =>
    rw [List.map_cons, List.append_cons segments, plainTokens, List.flatMap_cons, ← List.append_assoc]
    exact ih (h.segment p.segment_part)

end PathPart

theorem DottedPath.tokens?_ofSource (d : DottedPath) :
    (Feed.ofSource d.text).tokens? = some (.name d.root :: PathPart.tokens d.parts) := by
  have hend : ∀ c, (PathPart.chars d.parts).head? = some c → Token.isNameChar c = false :=
    fun c hc => PathPart.head?_chars _ c hc ▸ by decide
  rw [Feed.ofSource, text, String.toList_ofList]
  show Token.read? _ = _
  rw [Token.read?_name d.isName hend, PathPart.read?_chars, Option.map_some]

/-! ## Paths that break off -/

namespace TokenReader

variable {deeper nested : TokenReader Expr} {c : Cursor} {e : SyntaxError}

theorem run_segments_error {ts : List Token} {segments : List String} (h : Grammar.Path ts segments) {d s : Cursor}
    (hs : c.Steps 0 ts d) (hdot : d.head? = some (.symbol .dot)) (ht : d.tail = .ok s)
    (hname : s.head?.bind fieldName? = none) :
    ∃ root u, c.head? = some (.name root) ∧ c.tail = .ok u ∧ (segmentsFrom root).run u = .error (s.error .noFieldName) := by
  obtain ⟨root, u, hh, hu, hloop⟩ := run_segments_eq_loopFrom h hs
  refine ⟨root, u, hh, hu, hloop.trans ?_⟩
  refine Reader.loopFrom_of_error (run_opening (b := .field) rfl hdot ht) ?_
  rw [segment, run_head_bind, hname]
  rfl

theorem primary_error {root : String} {u : Cursor} (hh : c.head? = some (.name root)) (ht : c.tail = .ok u)
    (h : (segmentsFrom root).run u = .error e) : (primary nested).run c = .error e := by
  rw [primary, run_head_bind, hh]
  show (advance >>= fun _ => segmentsFrom root >>= fun segments => pure (Expr.path segments)).run c = _
  rw [run_advance_bind _ ht, Reader.run_bind_error h]

theorem unary_error {root : String} (hh : c.head? = some (.name root)) (h : (primary nested).run c = .error e) :
    (unary deeper nested).run c = .error e := by
  rw [unary, run_head_bind, hh]
  exact h

theorem ternary_error (h : deeper.run c = .error e) : (ternary deeper nested).run c = .error e := by
  have hproduct : (product deeper).run c = .error e := Reader.run_bind_error h
  have hsum : (sum deeper).run c = .error e := Reader.run_bind_error hproduct
  have hcomparison : (comparison deeper).run c = .error e := Reader.run_bind_error hsum
  have hcoalesce : (coalesce deeper).run c = .error e := Reader.run_bind_error hcomparison
  have hconjunction : (conjunction deeper).run c = .error e := Reader.run_bind_error hcoalesce
  have hdisjunction : (disjunction deeper).run c = .error e := Reader.run_bind_error hconjunction
  exact Reader.run_bind_error hdisjunction

end TokenReader

theorem Level.unary_error {c : Cursor} {e : SyntaxError} {root : String} (hh : c.head? = some (.name root))
    (h : ∀ nested, (TokenReader.primary nested).run c = .error e) :
    ∀ room : Nat, (Level.ofRoom room).unary.run c = .error e
  | 0 => TokenReader.unary_error hh (h _)
  | _ + 1 => TokenReader.unary_error hh (h _)

namespace Expr

/-- **A source that begins with a path and breaks off is not parsed**, and the fault is that there is no field name. -/
theorem parse_of_break {source : String} {ts us : List Token} {segments : List String} {x : Token}
    (htokens : (Feed.ofSource source).tokens? = some (ts ++ .symbol .dot :: x :: us)) (h : Grammar.Path ts segments)
    (hx : TokenReader.fieldName? x = none) : ∃ e, parse source = .error e ∧ e.fault = .noFieldName := by
  obtain ⟨hsound, g, hg, -⟩ := Feed.tokens?_eq_some_iff.1 htokens
  obtain ⟨f, hts, hrest⟩ := Feed.gives_append.1 hg
  obtain ⟨k, hdot, hk, l, hhead, -⟩ := hrest
  have hs : Cursor.Steps ⟨Feed.ofSource source, 0⟩ 0 ts ⟨f, 0⟩ := ⟨hts, rfl, Nat.zero_le _⟩
  have htail : Cursor.tail ⟨f, 0⟩ = .ok ⟨k, 0⟩ := by rw [Cursor.tail, hk]; rfl
  have hname : (Cursor.head? ⟨k, 0⟩).bind TokenReader.fieldName? = none := by rw [Cursor.head?, hhead]; exact hx
  obtain ⟨root, u, hh, hu, hloop⟩ := TokenReader.run_segments_error h hs hdot htail hname
  have hunary := Level.unary_error hh (fun _ => TokenReader.primary_error hh hu hloop) 63
  have hwhole : whole.run ⟨Feed.ofSource source, 0⟩ = .error (Cursor.error .noFieldName ⟨k, 0⟩) :=
    Reader.run_bind_error (TokenReader.ternary_error hunary)
  refine ⟨Cursor.error .noFieldName ⟨k, 0⟩, ?_, rfl⟩
  unfold parse
  rw [hsound]
  show (whole.run ⟨Feed.ofSource source, 0⟩ >>= fun p => pure p.1) = _
  rw [hwhole]
  rfl

theorem parse_of_path {source : String} {ts : List Token} {segments : List String}
    (htokens : (Feed.ofSource source).tokens? = some ts) (h : Grammar.Path ts segments) :
    parse source = .ok (.path segments) := by
  have hunary : Derives .unary 0 0 ts (.path segments) := .primary (.path h)
  have hdisjunction : Derives .disjunction 0 0 ts (.path segments) :=
    hunary.loosen (by decide) (by decide) (by decide) (by decide)
  exact parse_of_derives htokens (.disjunction hdisjunction) (by decide) (by decide)

/-- **A dotted path is its segments as a path, and as an expression just if no two numbers stand in a row**; otherwise it is
no expression, since behind the dot before them there is no field name. -/
theorem parse_dotted (d : DottedPath) :
    Path.segments d.text = d.segments ∧
    (parse d.text = .ok (.path (Path.segments d.text)) ↔ PathPart.Apart d.parts) ∧
    ((∃ e, parse d.text = .error e ∧ e.fault = .noFieldName) ↔ ¬ PathPart.Apart d.parts) := by
  rw [d.segments_text]
  refine ⟨rfl, ?_⟩
  have htokens := d.tokens?_ofSource
  obtain ⟨happart, hplain⟩ | ⟨happart, before, x, after, hbreak⟩ := PathPart.tokens_cases d.parts
  · have hpath : Grammar.Path (.name d.root :: PathPart.tokens d.parts) d.segments :=
      hplain ▸ PathPart.path_plainTokens (.root d.root) d.parts
    have hparse := parse_of_path htokens hpath
    refine ⟨⟨fun _ => happart, fun _ => hparse⟩, ⟨?_, fun h => absurd happart h⟩⟩
    rintro ⟨e, he, -⟩
    rw [hparse] at he
    cases he
  · have hpath := PathPart.path_plainTokens (.root d.root) before
    rw [hbreak, ← List.cons_append] at htokens
    obtain ⟨e, he, hfault⟩ := parse_of_break htokens hpath rfl
    refine ⟨⟨fun h => ?_, fun h => absurd h happart⟩, fun _ => happart, fun _ => ⟨e, he, hfault⟩⟩
    rw [he] at h
    cases h

/-- Two numbers in a row. -/
theorem parse_dotted_positions : Path.segments "a.0.1" = ["a", "0", "1"] ∧
    parse "a.0.1" = .error ⟨.noFieldName, 5, ""⟩ := by
  let d : DottedPath := ⟨"a", by decide, [.position 0 (by decide), .position 1 (by decide)]⟩
  have htext : d.text = "a.0.1" := by decide
  refine ⟨htext ▸ d.segments_text, ?_⟩
  have herror : (parse "a.0.1").map (fun _ => ()) = .error ⟨.noFieldName, 5, ""⟩ := by decide +kernel
  cases hparse : parse "a.0.1" with
  | error e => rw [hparse] at herror; cases herror; rfl
  | ok e => rw [hparse] at herror; cases herror

end Expr
end Stencil
