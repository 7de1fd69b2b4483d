import Stencil.Expr.Token
import Stencil.Path.Lookup
import Stencil.Reader
import Stencil.Text.Alphabetic
import Stencil.Text.Blank
import Stencil.Text.Bytes
import Stencil.Text.Numeric
/-!
# From text to tokens

Every token is the longest that its first character allows, and blanks stand only between tokens.  A number takes a point
only if a digit follows it, so that `items.0.id` and `a.1` keep their dots.  The tokens of a source end with the source or
with the first fault; `Feed` holds them so, each with the byte at which it ends.
-/
namespace Stencil

namespace Token

def ofWord (word : List Char) : Token :=
  if word = ['t', 'r', 'u', 'e'] then .bool true
  else if word = ['f', 'a', 'l', 's', 'e'] then .bool false
  else if word = ['n', 'u', 'l', 'l'] then .null
  else .name (String.ofList word)

def isNameStart (c : Char) : Bool := Text.isAlphabetic c || c = '_' || c = '$'

def isNameChar (c : Char) : Bool := Text.isAlphabetic c || Text.isNumeric c || c = '_' || c = '$'

/-- The symbols that are a single character and start no longer one. -/
def single? (c : Char) : Option Symbol :=
  if c = '+' then some .plus
  else if c = '-' then some .minus
  else if c = '*' then some .star
  else if c = '/' then some .slash
  else if c = '%' then some .percent
  else if c = '.' then some .dot
  else if c = '(' then some .openParen
  else if c = ')' then some .closeParen
  else if c = '[' then some .openBracket
  else if c = ']' then some .closeBracket
  else if c = ':' then some .colon
  else none

/-- Characters that may be doubled or followed by an equals sign: the character that makes the longer symbol, that
symbol, and what the character is alone. -/
def double? (c : Char) : Option (Char × Symbol × Except Fault Symbol) :=
  if c = '?' then some ('?', .coalesce, .ok .question)
  else if c = '=' then some ('=', .equal, .error .loneEqual)
  else if c = '!' then some ('=', .notEqual, .ok .bang)
  else if c = '<' then some ('=', .lessEqual, .ok .less)
  else if c = '>' then some ('=', .greaterEqual, .ok .greater)
  else if c = '&' then some ('&', .and, .error .loneAmpersand)
  else if c = '|' then some ('|', .or, .error .loneBar)
  else none

def unescape (c : Char) : Char := if c = 'n' then '\n' else if c = 't' then '\t' else c

def stringRest (quote : Char) : List Char → Option (List Char × List Char)
  | [] => none
  | c :: rest =>
    if c = quote then some ([], rest)
    else if c = '\\' then
      match rest with
      | [] => none
      | d :: rest => (stringRest quote rest).map fun (body, left) => (unescape d :: body, left)
    else (stringRest quote rest).map fun (body, left) => (c :: body, left)

def integer (digits : List Char) : Except Fault Token :=
  let n := (Path.digitsValue? 0 digits).getD 0
  if h : n < 2 ^ 63 then .ok (.int n h) else .error (.integerTooLarge (String.ofList digits))

def decimal (whole fraction : List Char) : Token :=
  .float (Float.ofScientific ((Path.digitsValue? 0 (whole ++ fraction)).getD 0) true fraction.length)

def number (s : List Char) : Except Fault (Token × List Char) :=
  let whole := s.takeWhile Char.isDigit
  let left := s.dropWhile Char.isDigit
  match left with
  | '.' :: d :: more =>
    if d.isDigit then
      .ok (decimal whole ((d :: more).takeWhile Char.isDigit), (d :: more).dropWhile Char.isDigit)
    else (integer whole).map (·, left)
  | _ => (integer whole).map (·, left)

/-- Splits off the token that a text begins with; the first character is no blank. -/
def first (c : Char) (rest : List Char) : Except Fault (Token × List Char) :=
  match single? c with
  | some s => .ok (.symbol s, rest)
  | none =>
    match double? c with
    | some (second, long, alone) =>
      match rest with
      | d :: more => if d = second then .ok (.symbol long, more) else alone.map (.symbol ·, rest)
      | [] => alone.map (.symbol ·, rest)
    | none =>
      if c = '\'' || c = '"' then
        match stringRest c rest with
        | some (body, left) => .ok (.string (String.ofList body), left)
        | none => .error .unclosedString
      else if c.isDigit then number (c :: rest)
      else if isNameStart c then
        .ok (ofWord (c :: rest.takeWhile isNameChar), rest.dropWhile isNameChar)
      else .error (.strangeCharacter c)

/-! ## A token takes at least one character -/

theorem dropWhile_length (test : Char → Bool) (s : List Char) : (s.dropWhile test).length ≤ s.length :=
  (List.dropWhile_suffix test).length_le

theorem stringRest_length (quote : Char) (s : List Char) :
    ∀ {body left}, stringRest quote s = some (body, left) → left.length < s.length := by
  fun_induction stringRest quote s with
  | case1 => intro _ _ h; cases h
  | case2 => intro _ _ h; simp only [Option.some.injEq, Prod.mk.injEq] at h; simp [← h.2]
  | case3 => intro _ _ h; cases h
  | case4 _ _ rest ih =>
    intro _ _ h
    obtain ⟨⟨b, l⟩, hr, he⟩ := Option.map_eq_some_iff.1 h
    have := ih hr
    simp only [Prod.mk.injEq] at he
    rw [← he.2]; simp only [List.length_cons]; omega
  | case5 _ rest _ _ ih =>
    intro _ _ h
    obtain ⟨⟨b, l⟩, hr, he⟩ := Option.map_eq_some_iff.1 h
    have := ih hr
    simp only [Prod.mk.injEq] at he
    rw [← he.2]; simp only [List.length_cons]; omega

theorem number_length {c : Char} {rest left : List Char} {t : Token} (hc : c.isDigit = true)
    (h : number (c :: rest) = .ok (t, left)) : left.length < (c :: rest).length := by
  have hw : ((c :: rest).dropWhile Char.isDigit).length < (c :: rest).length := by
    have := dropWhile_length Char.isDigit rest
    simp only [List.dropWhile, hc, List.length_cons]; omega
  unfold number at h
  generalize (c :: rest).dropWhile Char.isDigit = l at h hw
  simp only at h
  split at h
  · rename_i d more
    split at h
    · have hf := dropWhile_length Char.isDigit (d :: more)
      simp only [Except.ok.injEq, Prod.mk.injEq] at h
      rw [← h.2]; simp only [List.length_cons] at hw hf ⊢; omega
    · obtain ⟨_, _, he⟩ := ok_of_map_ok h
      simp only [Prod.mk.injEq] at he
      rw [← he.2]; exact hw
  · obtain ⟨_, _, he⟩ := ok_of_map_ok h
    simp only [Prod.mk.injEq] at he
    rw [← he.2]; exact hw

theorem first_length {c : Char} {rest left : List Char} {t : Token} (h : first c rest = .ok (t, left)) :
    left.length < (c :: rest).length := by
  unfold first at h
  split at h
  · simp only [Except.ok.injEq, Prod.mk.injEq] at h; simp [← h.2]
  · split at h
    · split at h
      · split at h
        · simp only [Except.ok.injEq, Prod.mk.injEq] at h; rw [← h.2]; simp only [List.length_cons]; omega
        · obtain ⟨_, _, he⟩ := ok_of_map_ok h
          simp only [Prod.mk.injEq] at he; simp [← he.2]
      · obtain ⟨_, _, he⟩ := ok_of_map_ok h
        simp only [Prod.mk.injEq] at he; simp [← he.2]
    · split at h
      · split at h
        · rename_i hs
          have := stringRest_length _ _ hs
          simp only [Except.ok.injEq, Prod.mk.injEq] at h
          rw [← h.2]; simp only [List.length_cons]; omega
        · cases h
      · split at h
        · exact number_length (by assumption) h
        · split at h
          · have := dropWhile_length isNameChar rest
            simp only [Except.ok.injEq, Prod.mk.injEq] at h
            rw [← h.2]; simp only [List.length_cons]; omega
          · cases h

end Token

/-- The tokens of a source, each with the byte at which it ends, up to the end of the source or the first fault. -/
inductive Feed
  | done (position : Nat)
  | broken (error : SyntaxError)
  | next (token : Token) (stop : Nat) (rest : Feed)

namespace Feed

def ofText (start : Nat) (s : List Char) : Feed :=
  match s with
  | [] => .done start
  | c :: rest =>
    if Text.isBlank c then ofText (start + c.utf8Size) rest
    else
      match _h : Token.first c rest with
      | .error fault => .broken ⟨fault, start, String.ofList ((c :: rest).take 10)⟩
      | .ok (token, left) =>
        let stop := start + (Text.byteLength (c :: rest) - Text.byteLength left)
        .next token stop (ofText stop left)
termination_by s.length
decreasing_by
  · simp
  · exact Token.first_length (by assumption)

def ofSource (source : String) : Feed := ofText 0 source.toList

def size : Feed → Nat
  | .done _ | .broken _ => 0
  | .next _ _ rest => rest.size + 1

def head? : Feed → Option Token
  | .done _ | .broken _ => none
  | .next token _ _ => some token

/-- The byte after the token to come, or the end of the source. -/
def position : Feed → Nat
  | .done position => position
  | .broken e => e.position
  | .next _ stop _ => stop

def sound : Feed → Except SyntaxError Feed
  | .broken e => .error e
  | feed => .ok feed

def tail : Feed → Except SyntaxError Feed
  | .next _ _ rest => rest.sound
  | feed => feed.sound

theorem eq_of_sound {f g : Feed} (h : f.sound = .ok g) : g = f := by
  cases f <;> simp_all [sound]

theorem size_tail {f g : Feed} (h : f.tail = .ok g) : g.size ≤ f.size := by
  cases f with
  | next t stop rest => have := eq_of_sound (f := rest) h; subst this; simp [size]
  | done p => have := eq_of_sound (f := .done p) h; subst this; simp
  | broken e => cases h

theorem size_tail_lt {f g : Feed} {t : Token} (ht : f.head? = some t) (h : f.tail = .ok g) : g.size < f.size := by
  cases f with
  | next t stop rest => have := eq_of_sound (f := rest) h; subst this; simp [size]
  | done p => cases ht
  | broken e => cases ht

end Feed
end Stencil
