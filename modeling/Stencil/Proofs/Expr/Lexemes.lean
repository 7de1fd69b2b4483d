import Stencil.Proofs.Expr.Lexing
import Stencil.Proofs.Expr.Nodes
import Stencil.Proofs.Expr.Parse
/-!
# What tokens are written as

Every token is written as characters that stand for it (`Lexeme`): a symbol as its sign, a name and a keyword as themselves,
a number as digits, and a string between quotation marks.  The reader takes just these characters off a text
(`exists_lexeme_of_first`), so every token of a text stands in it somewhere (`exists_lexeme_of_mem`).

Only strings can differ from the characters that they are written as, and only by what follows a backslash.

An expression that is read from a text is made of its tokens (`Expr.MadeOf`): every operator is a symbol, every constant a
literal and every segment of a path a name, a number or a string that stands in the text (`Expr.allMadeOf_of_parse`).
-/
namespace Stencil

open Grammar

theorem or_of_ite_eq_some {α : Type} {p : Prop} [Decidable p] {a b : α} {o : Option α}
    (h : (if p then some a else o) = some b) : p ∧ a = b ∨ o = some b := by
  split at h
  · exact .inl ⟨‹p›, Option.some.inj h⟩
  · exact .inr h

namespace Token

/-- A string and the characters that it is written as between quotation marks: itself, but that a backslash and any
character may be written for what they stand for. -/
inductive Quoted (quote : Char) : List Char → List Char → Prop
  | nil : Quoted quote [] []
  | plain {c : Char} {body written : List Char} (hquote : c ≠ quote) (hbackslash : c ≠ '\\')
      (h : Quoted quote body written) : Quoted quote (c :: body) (c :: written)
  | escaped {body written : List Char} (d : Char) (h : Quoted quote body written) :
      Quoted quote (unescape d :: body) ('\\' :: d :: written)

/-- **A token and the characters that it is written as.** -/
inductive Lexeme : Token → List Char → Prop
  | symbol (s : Symbol) : Lexeme (.symbol s) s.sign.toList
  | name {s : String} (h : ∀ c ∈ s.toList, isNameChar c = true) : Lexeme (.name s) s.toList
  | int {digits : List Char} {n : Nat} {fits : n < 2 ^ 63} (hdigits : ∀ c ∈ digits, c.isDigit = true)
      (h : integer digits = .ok (.int n fits)) : Lexeme (.int n fits) digits
  | float {whole fraction : List Char} {x : Float} (hwhole : ∀ c ∈ whole, c.isDigit = true)
      (hfraction : ∀ c ∈ fraction, c.isDigit = true) (h : decimal whole fraction = .float x) :
      Lexeme (.float x) (whole ++ '.' :: fraction)
  | string {quote : Char} {s : String} {written : List Char} (hquote : quote = '"' ∨ quote = '\'')
      (h : Quoted quote s.toList written) : Lexeme (.string s) (quote :: (written ++ [quote]))
  | bool (b : Bool) : Lexeme (.bool b) (toString b).toList
  | null : Lexeme .null ['n', 'u', 'l', 'l']

/-! ## The characters of a token -/

theorem Quoted.eq_of_not_mem {quote : Char} {body written : List Char} (h : Quoted quote body written)
    (hw : '\\' ∉ written) : body = written := by
  induction h with
  | nil => rfl
  | plain hquote hbackslash h ih => rw [ih fun hm => hw (List.mem_cons_of_mem _ hm)]
  | escaped d h ih => exact absurd List.mem_cons_self hw

theorem Lexeme.exists_quote {s : String} {written : List Char} (h : Lexeme (.string s) written) (hw : '\\' ∉ written) :
    ∃ quote, written = quote :: (s.toList ++ [quote]) := by
  cases h with
  | @string quote s inside hquote h =>
    have hinside : '\\' ∉ inside := fun hm => hw (List.mem_cons_of_mem _ (List.mem_append_left _ hm))
    exact ⟨quote, by rw [h.eq_of_not_mem hinside]⟩

/-! ## Reading a token -/

theorem quoted_of_stringRest {quote : Char} {s : List Char} : ∀ {body left : List Char},
    stringRest quote s = some (body, left) →
      ∃ written, Quoted quote body written ∧ s = written ++ quote :: left := by
  fun_induction stringRest quote s with
  | case1 | case3 =>
    intro body left h
    cases h
  | case2 rest =>
    intro body left h
    cases h
    exact ⟨[], .nil, rfl⟩
  | case4 d hquote rest ih =>
    intro body left h
    obtain ⟨⟨b, l⟩, hr, he⟩ := Option.map_eq_some_iff.1 h
    cases he
    obtain ⟨written, hq, rfl⟩ := ih hr
    exact ⟨'\\' :: d :: written, .escaped d hq, rfl⟩
  | case5 c rest hquote hbackslash ih =>
    intro body left h
    obtain ⟨⟨b, l⟩, hr, he⟩ := Option.map_eq_some_iff.1 h
    cases he
    obtain ⟨written, hq, rfl⟩ := ih hr
    exact ⟨c :: written, .plain hquote hbackslash hq, rfl⟩

theorem stringRest_of_quoted {quote : Char} (hquote : quote ≠ '\\') {body written : List Char}
    (h : Quoted quote body written) (left : List Char) :
    stringRest quote (written ++ quote :: left) = some (body, left) := by
  induction h with
  | nil =>
    rw [List.nil_append, stringRest.eq_def]
    simp only [if_true]
  | plain hplain hbackslash h ih =>
    rw [List.cons_append, stringRest.eq_def]
    simp only [if_neg hplain, if_neg hbackslash, ih, Option.map_some]
  | escaped d h ih =>
    rw [List.cons_append, List.cons_append, stringRest.eq_def]
    simp only [if_neg hquote.symm, if_true, ih, Option.map_some]

theorem sign_of_single? {c : Char} {s : Symbol} (h : single? c = some s) : s.sign.toList = [c] := by
  unfold single? at h
  iterate 11
    obtain ⟨rfl, rfl⟩ | h := or_of_ite_eq_some h
    · rfl
  cases h

theorem sign_of_double? {c second : Char} {long : Symbol} {alone : Except Fault Symbol}
    (h : double? c = some (second, long, alone)) :
    long.sign.toList = [c, second] ∧ ∀ s, alone = .ok s → s.sign.toList = [c] := by
  unfold double? at h
  iterate 7
    obtain ⟨rfl, he⟩ | h := or_of_ite_eq_some h
    · cases he
      exact ⟨rfl, fun s hs => by cases hs <;> rfl⟩
  cases h

theorem first_of_double? {c second : Char} {long : Symbol} {alone : Except Fault Symbol} (hs : single? c = none)
    (hd : double? c = some (second, long, alone)) (s : List Char) :
    first c s = if s.head? = some second then .ok (.symbol long, s.tail) else alone.map (.symbol ·, s) := by
  rw [first, hs, hd]
  cases s with
  | nil => rfl
  | cons d s => simp

theorem lexeme_ofWord {c : Char} {rest : List Char} (hc : isNameStart c = true) (hrest : ∀ d ∈ rest, isNameChar d = true) :
    Lexeme (ofWord (c :: rest)) (c :: rest) := by
  unfold ofWord
  split
  · rename_i htrue
    rw [htrue]
    exact .bool true
  split
  · rename_i hfalse
    rw [hfalse]
    exact .bool false
  split
  · rename_i hnull
    rw [hnull]
    exact .null
  · have hname : ∀ d ∈ (String.ofList (c :: rest)).toList, isNameChar d = true := by
      rw [String.toList_ofList]
      exact List.forall_mem_cons.2 ⟨isNameChar_of_isNameStart hc, hrest⟩
    have h := Lexeme.name hname
    rwa [String.toList_ofList] at h

theorem lexeme_of_integer {digits : List Char} {t : Token} (hdigits : ∀ c ∈ digits, c.isDigit = true)
    (h : integer digits = .ok t) : Lexeme t digits := by
  have hn := h
  unfold integer at hn
  simp only at hn
  split at hn
  · cases hn
    exact .int hdigits h
  · cases hn

theorem exists_lexeme_of_number {s left : List Char} {t : Token} (h : number s = .ok (t, left)) :
    ∃ taken, Lexeme t taken ∧ s = taken ++ left := by
  have hsplit := (List.takeWhile_append_dropWhile (p := Char.isDigit) (l := s)).symm
  have hwhole : ∀ c ∈ s.takeWhile Char.isDigit, c.isDigit = true := List.all_eq_true.1 List.all_takeWhile
  unfold number at h
  simp only at h
  split at h
  · rename_i d more hleft
    split at h
    · cases h
      have hrest := (List.takeWhile_append_dropWhile (p := Char.isDigit) (l := d :: more)).symm
      refine ⟨_, .float hwhole (List.all_eq_true.1 List.all_takeWhile) rfl, ?_⟩
      rw [List.append_assoc, List.cons_append, ← hrest, ← hleft]
      exact hsplit
    · obtain ⟨t', ht, he⟩ := ok_of_map_ok h
      cases he
      exact ⟨_, lexeme_of_integer hwhole ht, hsplit⟩
  · obtain ⟨t', ht, he⟩ := ok_of_map_ok h
    cases he
    exact ⟨_, lexeme_of_integer hwhole ht, hsplit⟩

/-- **What the reader takes off a text is written for the token that it gives.** -/
theorem exists_lexeme_of_first {c : Char} {rest left : List Char} {t : Token} (h : first c rest = .ok (t, left)) :
    ∃ taken, Lexeme t taken ∧ c :: rest = taken ++ left := by
  have halone : ∀ {alone : Except Fault Symbol}, (∀ s, alone = .ok s → s.sign.toList = [c]) →
      alone.map (Token.symbol ·, rest) = .ok (t, left) → ∃ taken, Lexeme t taken ∧ c :: rest = taken ++ left := by
    intro alone hsign h
    obtain ⟨s, hs, he⟩ := ok_of_map_ok h
    cases he
    exact ⟨_, .symbol s, by rw [hsign s hs]; rfl⟩
  unfold first at h
  split at h
  · rename_i s hs
    cases h
    exact ⟨_, .symbol s, by rw [sign_of_single? hs]; rfl⟩
  split at h
  · rename_i second long alone hd
    obtain ⟨hlong, hsign⟩ := sign_of_double? hd
    split at h
    · rename_i d more
      split at h
      · rename_i hsecond
        cases h
        exact ⟨_, .symbol long, by rw [hlong, hsecond]; rfl⟩
      · exact halone hsign h
    · exact halone hsign h
  split at h
  · rename_i hquote
    split at h
    · rename_i body rest' hs
      cases h
      obtain ⟨written, hq, rfl⟩ := quoted_of_stringRest hs
      have hmark : c = '"' ∨ c = '\'' := by simpa [or_comm] using hquote
      refine ⟨_, .string hmark ((String.toList_ofList (l := body)).symm ▸ hq), ?_⟩
      rw [List.cons_append, List.append_assoc]
      rfl
    · cases h
  split at h
  · exact exists_lexeme_of_number h
  split at h
  · rename_i hstart
    cases h
    refine ⟨_, lexeme_ofWord hstart (List.all_eq_true.1 List.all_takeWhile), ?_⟩
    rw [List.cons_append, List.takeWhile_append_dropWhile]
  · cases h

/-! ## The tokens of a text -/

theorem exists_lexeme_of_mem {start : Nat} {s : List Char} (ts : List Token) (h : (Feed.ofText start s).tokens? = some ts) :
    ∀ t ∈ ts, ∃ taken, Lexeme t taken ∧ taken <:+: s := by
  induction start, s using Feed.ofText.induct generalizing ts with
  | case1 start =>
    rw [Feed.ofText.eq_def] at h
    cases h
    intro t ht
    cases ht
  | case2 start c rest hc ih =>
    rw [ofText_of_blank start rest hc] at h
    intro t ht
    obtain ⟨taken, hl, hin⟩ := ih ts h t ht
    exact ⟨taken, hl, hin.trans (List.suffix_cons c rest).isInfix⟩
  | case3 start c rest hc fault hf =>
    obtain ⟨e, he⟩ := exists_ofText_of_fault start hc hf
    rw [he] at h
    cases h
  | case4 start c rest hc t left hf stop ih =>
    obtain ⟨b, hb⟩ := exists_ofText_of_first start hc hf
    rw [hb, Feed.tokens?, tokens?_ofText b stop] at h
    obtain ⟨us, hus, rfl⟩ := Option.map_eq_some_iff.1 h
    obtain ⟨first, hfirst, hsplit⟩ := exists_lexeme_of_first hf
    rw [hsplit]
    refine List.forall_mem_cons.2 ⟨⟨first, hfirst, (List.prefix_append first left).isInfix⟩, fun u hu => ?_⟩
    obtain ⟨taken, hl, hin⟩ := ih us hus u hu
    exact ⟨taken, hl, hin.trans (List.suffix_append first left).isInfix⟩

end Token

/-! ## What expressions are made of -/

inductive Grammar.IsSegment : Token → String → Prop
  | name (s : String) : IsSegment (.name s) s
  | int (n : Nat) (fits : n < 2 ^ 63) : IsSegment (.int n fits) (toString n)
  | string (s : String) : IsSegment (.string s) s

theorem Grammar.Segment.exists_isSegment {ts : List Token} {s : String} (h : Segment ts s) : ∃ t ∈ ts, IsSegment t s := by
  cases h with
  | name s => exact ⟨_, by simp, .name s⟩
  | position n fits | index n fits => exact ⟨_, by simp, .int n fits⟩
  | key s => exact ⟨_, by simp, .string s⟩

theorem Grammar.Path.exists_isSegment {ts : List Token} {segments : List String} (h : Path ts segments) :
    ∀ s ∈ segments, ∃ t ∈ ts, IsSegment t s := by
  induction h with
  | root name => exact List.forall_mem_singleton.2 ⟨_, List.mem_singleton_self _, .name name⟩
  | segment h hs ih =>
    refine List.forall_mem_append.2 ⟨fun s hmem => ?_, List.forall_mem_singleton.2 ?_⟩
    · obtain ⟨t, ht, hseg⟩ := ih s hmem
      exact ⟨t, List.mem_append_left _ ht, hseg⟩
    · obtain ⟨t, ht, hseg⟩ := hs.exists_isSegment
      exact ⟨t, List.mem_append_right _ ht, hseg⟩

namespace Expr

def sign? : Expr → Option String
  | .path _ | .constant _ => none
  | .math op _ _ => some op.sign
  | .compare op _ _ => some op.sign
  | .logic op _ _ => some op.sign
  | .ternary _ _ _ => some "?"
  | .coalesce _ => some "??"
  | .negate _ => some "-"
  | .not _ => some "!"

/-- **An expression is made of tokens of some kind**: its sign, its constant or all segments of its path, but not what its
operands are made of. -/
inductive MadeOf (P : Token → Prop) : Expr → Prop
  | sign {e : Expr} {s : Symbol} (h : P (.symbol s)) (hs : e.sign? = some s.sign) : MadeOf P e
  | constant {t : Token} {v : Value} (h : P t) (ht : Literal t v) : MadeOf P (.constant v)
  | path {segments : List String} (h : ∀ s ∈ segments, ∃ t, P t ∧ IsSegment t s) : MadeOf P (.path segments)

theorem MadeOf.mono {P Q : Token → Prop} {e : Expr} (h : e.MadeOf P) (hPQ : ∀ t, P t → Q t) : e.MadeOf Q := by
  cases h with
  | sign h hs => exact .sign (hPQ _ h) hs
  | constant h ht => exact .constant (hPQ _ h) ht
  | path h =>
    refine .path fun s hmem => ?_
    obtain ⟨t, ht, hs⟩ := h s hmem
    exact ⟨t, hPQ t ht, hs⟩

def AllMadeOf (P : Token → Prop) (e : Expr) : Prop := ∀ x ∈ e.nodes, x.MadeOf P

theorem allMadeOf_iff {P : Token → Prop} {e : Expr} : e.AllMadeOf P ↔ e.MadeOf P ∧ ∀ o ∈ e.operands, o.AllMadeOf P :=
  forall_mem_nodes_iff

theorem AllMadeOf.mono {P Q : Token → Prop} {e : Expr} (h : e.AllMadeOf P) (hPQ : ∀ t, P t → Q t) : e.AllMadeOf Q :=
  fun x hx => (h x hx).mono hPQ

end Expr

theorem Expr.allMadeOf_of_sign {e : Expr} {s : Symbol} {ts us : List Token} (hs : e.sign? = some s.sign)
    (h : ∀ o ∈ e.operands, o.AllMadeOf (· ∈ ts) ∨ o.AllMadeOf (· ∈ us)) : e.AllMadeOf (· ∈ ts ++ .symbol s :: us) := by
  refine allMadeOf_iff.2 ⟨.sign (List.mem_append_right _ List.mem_cons_self) hs, fun o ho => ?_⟩
  rcases h o ho with hl | hr
  · exact hl.mono fun t ht => List.mem_append_left _ ht
  · exact hr.mono fun t ht => List.mem_append_right _ (List.mem_cons_of_mem _ ht)

theorem Grammar.Operator.sign?_eq {p : Phrase} {s : Symbol} {node : Expr → Expr → Expr} (h : Operator p s node)
    (l r : Expr) : (node l r).sign? = some s.sign ∧ (node l r).operands = [l, r] := by
  cases h <;> exact ⟨rfl, rfl⟩

theorem Grammar.Comparison.sign_eq {s : Symbol} {op : CompareOp} (h : Comparison s op) : op.sign = s.sign := by
  cases h <;> rfl

/-- **A derived expression is made of the tokens that it is derived from.** -/
theorem Grammar.Derives.allMadeOf {p : Phrase} {d n : Nat} {ts : List Token} {e : Expr} (h : Derives p d n ts e) :
    e.AllMadeOf (· ∈ ts) := by
  induction h with
  | literal h => exact Expr.allMadeOf_iff.2 ⟨.constant (List.mem_singleton_self _) h, by simp [Expr.operands]⟩
  | path h => exact Expr.allMadeOf_iff.2 ⟨.path h.exists_isSegment, by simp [Expr.operands]⟩
  | paren _ ih => exact ih.mono fun t ht => List.mem_cons_of_mem _ (List.mem_append_left _ ht)
  | primary _ ih | operand _ _ ih | sum _ ih | comparison _ ih | choices _ ih | disjunction _ ih => exact ih
  | negate _ ih => exact @Expr.allMadeOf_of_sign _ .minus [] _ rfl (List.forall_mem_singleton.2 (.inr ih))
  | not _ ih => exact @Expr.allMadeOf_of_sign _ .bang [] _ rfl (List.forall_mem_singleton.2 (.inr ih))
  | operator _ hs _ _ ihl ihr =>
    obtain ⟨hsign, hoperands⟩ := hs.sign?_eq _ _
    exact Expr.allMadeOf_of_sign hsign (by simp [hoperands, ihl, ihr])
  | compare hs _ _ ihl ihr =>
    exact Expr.allMadeOf_of_sign (congrArg some hs.sign_eq) (by simp [Expr.operands, ihl, ihr])
  | firstChoices _ _ ihl ihr =>
    exact Expr.allMadeOf_of_sign (s := .coalesce) rfl (by simp [Expr.operands, ihl, ihr])
  | nextChoice _ _ ihl ihr =>
    have hbefore := (Expr.allMadeOf_iff.1 ihl).2
    refine Expr.allMadeOf_of_sign (s := .coalesce) rfl (List.forall_mem_append.2 ⟨fun o ho => ?_, ?_⟩)
    · exact .inl (hbefore o ho)
    · exact List.forall_mem_singleton.2 (.inr ihr)
  | ternary _ _ _ ihc ihy ihn =>
    refine Expr.allMadeOf_of_sign (s := .question) rfl (List.forall_mem_cons.2 ⟨.inl ihc, List.forall_mem_cons.2
      ⟨.inr (ihy.mono fun t ht => ?_), List.forall_mem_singleton.2 (.inr (ihn.mono fun t ht => ?_))⟩⟩)
    · exact List.mem_append_left _ ht
    · exact List.mem_append_right _ (List.mem_cons_of_mem _ ht)

/-- **An expression that is read from a text is made of tokens that stand in it.** -/
theorem Expr.allMadeOf_of_parse {source : String} {e : Expr} (h : parse source = .ok e) :
    e.AllMadeOf fun t => ∃ taken, t.Lexeme taken ∧ taken <:+: source.toList := by
  obtain ⟨ts, _, _, hts, hd, -⟩ := exists_derives_of_parse h
  exact hd.allMadeOf.mono (Token.exists_lexeme_of_mem ts hts)

end Stencil
