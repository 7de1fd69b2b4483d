import Stencil.Proofs.Expr.Lexemes
import Stencil.Proofs.Expr.Reading
/-!
# Where errors are

Every item of a source stands in it where its position says (`Feed.Placed`): a token ends there, a fault begins there, and
the end of the source is there.  An error of the parser is noticed at the last item that is read, and so it points into the
source (`Expr.parse_error_points`).
-/
namespace Stencil

/-! ## Faults of tokens -/

theorem error_of_map_error {ε α β : Type} {x : Except ε α} {f : α → β} {e : ε} (h : x.map f = .error e) : x = .error e := by
  cases x with
  | error e' => cases h; rfl
  | ok a => cases h

/-- An error can be told from others although results cannot be compared. -/
theorem eq_error_of_decide {ε α : Type} [DecidableEq ε] {x : Except ε α} {e : ε}
    (h : (match x with | .error e' => decide (e' = e) | .ok _ => false) = true) : x = .error e := by
  cases x with
  | error e' => rw [of_decide_eq_true h]
  | ok a => cases h

namespace Token

theorem isLexical_of_double? {c second : Char} {long : Symbol} {alone : Except Fault Symbol}
    (h : double? c = some (second, long, alone)) : ∀ fault, alone = .error fault → fault.isLexical = true := by
  unfold double? at h
  iterate 7
    obtain ⟨rfl, he⟩ | h := or_of_ite_eq_some h
    · cases he
      exact fun fault hf => by cases hf <;> rfl
  cases h

theorem isLexical_of_integer {digits : List Char} {fault : Fault} (h : integer digits = .error fault) :
    fault.isLexical = true := by
  unfold integer at h
  simp only at h
  split at h
  · cases h
  · cases h
    rfl

theorem isLexical_of_number {s : List Char} {fault : Fault} (h : number s = .error fault) : fault.isLexical = true := by
  unfold number at h
  simp only at h
  split at h
  · split at h
    · cases h
    · exact isLexical_of_integer (error_of_map_error h)
  · exact isLexical_of_integer (error_of_map_error h)

/-- **What can be wrong with a token is no fault of the grammar.** -/
theorem isLexical_of_first {c : Char} {rest : List Char} {fault : Fault} (h : first c rest = .error fault) :
    fault.isLexical = true := by
  have hread := h
  unfold first at h
  split at h
  · cases h
  rename_i hs
  split at h
  · rename_i hd
    rw [first_of_double? hs hd] at hread
    split at hread
    · cases hread
    · exact isLexical_of_double? hd _ (error_of_map_error hread)
  split at h
  · split at h
    · cases h
    · cases h
      rfl
  split at h
  · exact isLexical_of_number h
  split at h
  · cases h
  · cases h
    rfl

end Token

/-! ## Places of items -/

namespace Feed

/-- **The items of a feed stand in a text where they say**: the end of the source behind all of it, a fault before what is
wrong, with the next ten characters, and a token behind the characters that it is written as. -/
inductive Placed (text : List Char) : Feed → Prop
  | done : Placed text (.done (Text.byteLength text))
  | broken {before rest : List Char} {c : Char} {fault : Fault} (htext : text = before ++ c :: rest)
      (h : Token.first c rest = .error fault) :
      Placed text (.broken ⟨fault, Text.byteLength before, String.ofList ((c :: rest).take 10)⟩)
  | next {before taken after : List Char} {token : Token} {f : Feed} (htext : text = before ++ (taken ++ after))
      (h : token.Lexeme taken) (hf : Placed text f) :
      Placed text (.next token (Text.byteLength (before ++ taken)) f)

theorem Placed.drop {text : List Char} {f : Feed} (h : Placed text f) (n : Nat) : Placed text (f.drop n) := by
  induction n generalizing f with
  | zero => exact h
  | succ n ih =>
    cases h with
    | done => exact .done
    | broken htext h => exact .broken htext h
    | next htext h hf => exact ih hf

theorem placed_ofText (start : Nat) (s : List Char) : ∀ before, start = Text.byteLength before →
    Placed (before ++ s) (ofText start s) := by
  induction start, s using Feed.ofText.induct with
  | case1 start =>
    rintro before rfl
    rw [ofText.eq_def, List.append_nil]
    exact .done
  | case2 start c rest hc ih =>
    rintro before rfl
    rw [Token.ofText_of_blank _ rest hc, List.append_cons]
    exact ih (before ++ [c]) (by simp)
  | case3 start c rest hc fault hf =>
    rintro before rfl
    rw [Token.ofText_of_fault _ hc hf]
    exact .broken rfl hf
  | case4 start c rest hc t left hf stop ih =>
    rintro before rfl
    obtain ⟨taken, hl, hsplit⟩ := Token.exists_lexeme_of_first hf
    have hstop : stop = Text.byteLength (before ++ taken) := by
      simp only [stop, hsplit, Text.byteLength_append]
      omega
    have hplaced := ih (before ++ taken) hstop
    rw [List.append_assoc, ← hsplit] at hplaced
    have hnext : Placed (before ++ c :: rest) (.next t stop (ofText stop left)) := by
      rw [hstop] at hplaced ⊢
      exact .next (by rw [hsplit]) hl hplaced
    rwa [Token.ofText_of_first _ hc hf]

/-- **The first item of a feed ends between two parts of a text**, and there it says that it ends: it is a token that the
first part ends with, or the end of the text, which counts as one more token.  The end comes behind the blanks after the last
token that is written, any other token before the blanks after it. -/
inductive EndsBetween : Feed → List Char → List Char → Prop
  | done (before : List Char) : EndsBetween (.done (Text.byteLength before)) before []
  | next {token : Token} {taken : List Char} (h : token.Lexeme taken) (f : Feed) (before after : List Char) :
      EndsBetween (.next token (Text.byteLength (before ++ taken)) f) (before ++ taken) after

theorem EndsBetween.position_eq {f : Feed} {before after : List Char} (h : f.EndsBetween before after) :
    f.position = Text.byteLength before := by
  cases h <;> rfl

/-- An item that is no fault ends where a text can be cut in two. -/
theorem Placed.exists_endsBetween {text : List Char} {f : Feed} (h : Placed text f) (hsound : f.sound = .ok f) :
    ∃ before after, text = before ++ after ∧ f.EndsBetween before after := by
  cases h with
  | done => exact ⟨text, [], (List.append_nil text).symm, .done text⟩
  | broken => cases hsound
  | @next before taken after token rest htext hl =>
    exact ⟨before ++ taken, after, by rw [htext, List.append_assoc], .next hl rest before after⟩

/-- **An error at an item that stands in a text points into the text.** -/
theorem Notices.exists_append {text : List Char} {f : Feed} {e : SyntaxError} (h : f.Notices e) (hf : Placed text f) :
    ∃ before after, text = before ++ after ∧ e.position = Text.byteLength before ∧
      (e.fault.isLexical = true ∧ (∃ c rest, after = c :: rest ∧ Token.first c rest = .error e.fault) ∧
          e.context = String.ofList (after.take 10) ∨
        e.fault.isLexical = false ∧ e.context = "" ∧ f.EndsBetween before after) := by
  cases h with
  | broken e =>
    cases hf with
    | @broken before rest c fault htext h =>
      exact ⟨before, c :: rest, htext, rfl, .inl ⟨Token.isLexical_of_first h, ⟨c, rest, rfl, h⟩, rfl⟩⟩
  | grammar hsound fault hfault =>
    obtain ⟨before, after, htext, hends⟩ := hf.exists_endsBetween hsound
    exact ⟨before, after, htext, hends.position_eq, .inr ⟨hfault, rfl, hends⟩⟩

end Feed

namespace Expr

/-- **Errors of the parser point into the source**, to a place between two characters.  A fault within a token is noticed
before the token that cannot be read there, and the context is what follows, at most ten characters.  Any other fault has no
context, and its position is the one just behind the last token that is read, before the blanks that come then.  The end of
the source is the last token of all: where it is read, the position is the length of the source, whatever blanks it ends
with. -/
theorem parse_error_points {source : String} {e : SyntaxError} (h : parse source = .error e) :
    ∃ before after, source.toList = before ++ after ∧ e.position = Text.byteLength before ∧
      (e.fault.isLexical = true ∧ (∃ c rest, after = c :: rest ∧ Token.first c rest = .error e.fault) ∧
          e.context = String.ofList (after.take 10) ∧ e.context ≠ "" ∨
        e.fault.isLexical = false ∧ e.context = "" ∧ ∃ n, (Feed.ofSource source).ReadsJust (n + 1) ∧
          e.position = ((Feed.ofSource source).drop n).position ∧
          ((Feed.ofSource source).drop n).EndsBetween before after) := by
  obtain ⟨n, hreads, herror⟩ := (Feed.ofSource source).exists_readsJust
  have hplaced : Feed.Placed source.toList (Feed.ofSource source) := Feed.placed_ofText 0 source.toList [] rfl
  obtain ⟨before, after, hsource, hposition, hcases⟩ := (herror e (parse_eq_parseFeed source ▸ h)).exists_append (hplaced.drop n)
  refine ⟨before, after, hsource, hposition, ?_⟩
  obtain ⟨hfault, ⟨c, rest, rfl, hfirst⟩, hcontext⟩ | ⟨hfault, hcontext, hends⟩ := hcases
  · refine .inl ⟨hfault, ⟨c, rest, rfl, hfirst⟩, hcontext, ?_⟩
    rw [hcontext]
    simp
  · exact .inr ⟨hfault, hcontext, n, hreads, hposition.trans hends.position_eq.symm, hends⟩

/-- Behind characters of two bytes: a string that is not closed, and a name where the source should have ended.  Where an
operand is missing at the end, the error is behind the blanks. -/
theorem parse_error_points_accents :
    (parse "é + 'ü" = .error ⟨.unclosedString, 5, "'ü"⟩ ∧
      ∃ before after, "é + 'ü".toList = before ++ after ∧ 5 = Text.byteLength before ∧
        "'ü" = String.ofList (after.take 10)) ∧
    (parse "é ü  " = .error ⟨.leftOver (some (.name "ü")), 5, ""⟩ ∧
      ∃ before after, "é ü  ".toList = before ++ after ∧ 5 = Text.byteLength before ∧
        ∃ n, (Feed.ofSource "é ü  ").ReadsJust (n + 1) ∧ 5 = ((Feed.ofSource "é ü  ").drop n).position ∧
          ((Feed.ofSource "é ü  ").drop n).EndsBetween before after) ∧
    parse "1 +     " = .error ⟨.noOperand none, 8, ""⟩ ∧
      ∃ before after, "1 +     ".toList = before ++ after ∧ 8 = Text.byteLength before ∧
        ∃ n, (Feed.ofSource "1 +     ").ReadsJust (n + 1) ∧ 8 = ((Feed.ofSource "1 +     ").drop n).position ∧
          ((Feed.ofSource "1 +     ").drop n).EndsBetween before after := by
  have hopen : parse "é + 'ü" = .error ⟨.unclosedString, 5, "'ü"⟩ := eq_error_of_decide (by decide +kernel)
  have hleft : parse "é ü  " = .error ⟨.leftOver (some (.name "ü")), 5, ""⟩ := eq_error_of_decide (by decide +kernel)
  have hend : parse "1 +     " = .error ⟨.noOperand none, 8, ""⟩ := eq_error_of_decide (by decide +kernel)
  refine ⟨⟨hopen, ?_⟩, ⟨hleft, ?_⟩, hend, ?_⟩
  · obtain ⟨before, after, hsource, hposition, ⟨-, -, hcontext, -⟩ | ⟨hfault, -⟩⟩ := parse_error_points hopen
    · exact ⟨before, after, hsource, hposition, hcontext⟩
    · cases hfault
  · obtain ⟨before, after, hsource, hposition, ⟨hfault, -⟩ | ⟨-, -, hlast⟩⟩ := parse_error_points hleft
    · cases hfault
    · exact ⟨before, after, hsource, hposition, hlast⟩
  · obtain ⟨before, after, hsource, hposition, ⟨hfault, -⟩ | ⟨-, -, hlast⟩⟩ := parse_error_points hend
    · cases hfault
    · exact ⟨before, after, hsource, hposition, hlast⟩

end Expr
end Stencil
