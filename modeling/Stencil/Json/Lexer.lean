import Stencil.Json.Basic
/-!
# JSON tokens

The tokens of a JSON text.  A string is read in two steps: its *pieces* are characters and four-digit escapes, and only
`decode` asks whether the escapes make characters, a surrogate being half of one.  A text that nobody looks at needs the
first step only.  Of numbers nothing but the grammar is asked.
-/
namespace Stencil.Json

/-- A part of a string literal: a character, or sixteen bits given by an escape. -/
inductive Piece
  | char (c : Char)
  | unit (n : Nat)
deriving DecidableEq

/-- The characters that pieces stand for; none if a surrogate stands alone. -/
def decode : List Piece → Option (List Char)
  | [] => some []
  | .char c :: rest => (decode rest).map (c :: ·)
  | .unit n :: rest =>
    if 0xd800 ≤ n ∧ n < 0xdc00 then
      match rest with
      | .unit m :: rest =>
        if 0xdc00 ≤ m ∧ m < 0xe000 then
          (decode rest).map (Char.ofNat (0x10000 + (n - 0xd800) * 0x400 + (m - 0xdc00)) :: ·)
        else none
      | _ => none
    else if 0xdc00 ≤ n ∧ n < 0xe000 then none
    else (decode rest).map (Char.ofNat n :: ·)

def decodeText (pieces : List Piece) : Option String := (decode pieces).map String.ofList

inductive Token
  | openBrace
  | closeBrace
  | openBracket
  | closeBracket
  | colon
  | comma
  | string (pieces : List Piece)
  | number
  | bool (b : Bool)
  | null
deriving DecidableEq

namespace Token

def hexDigit? (c : Char) : Option Nat :=
  if '0' ≤ c ∧ c ≤ '9' then some (c.toNat - '0'.toNat)
  else if 'a' ≤ c ∧ c ≤ 'f' then some (c.toNat - 'a'.toNat + 10)
  else if 'A' ≤ c ∧ c ≤ 'F' then some (c.toNat - 'A'.toNat + 10)
  else none

def hexValue? : Nat → List Char → Option Nat
  | n, [] => some n
  | n, c :: rest => (hexDigit? c).bind fun d => hexValue? (16 * n + d) rest

def unescape? (c : Char) : Option Char :=
  if c = '"' ∨ c = '\\' ∨ c = '/' then some c
  else if c = 'b' then some '\x08'
  else if c = 'f' then some '\x0c'
  else if c = 'n' then some '\n'
  else if c = 'r' then some '\r'
  else if c = 't' then some '\t'
  else none

def escaped : List Char → Option (Piece × List Char)
  | 'u' :: a :: b :: c :: d :: rest => (hexValue? 0 [a, b, c, d]).map fun n => (.unit n, rest)
  | c :: rest => (unescape? c).map fun e => (.char e, rest)
  | [] => none

theorem escaped_length {s left : List Char} {p : Piece} (h : escaped s = some (p, left)) : left.length < s.length := by
  unfold escaped at h
  split at h
  · obtain ⟨_, _, he⟩ := Option.map_eq_some_iff.1 h
    simp only [Prod.mk.injEq] at he; rw [← he.2]; simp only [List.length_cons]; omega
  · obtain ⟨_, _, he⟩ := Option.map_eq_some_iff.1 h
    simp only [Prod.mk.injEq] at he; simp [← he.2]
  · cases h

def stringRest (s : List Char) : Option (List Piece × List Char) :=
  match s with
  | [] => none
  | c :: rest =>
    if c = '"' then some ([], rest)
    else if c = '\\' then
      match _h : escaped rest with
      | some (p, rest) => (stringRest rest).map fun (ps, left) => (p :: ps, left)
      | none => none
    else if c.toNat < 0x20 then none
    else (stringRest rest).map fun (ps, left) => (.char c :: ps, left)
termination_by s.length
decreasing_by
  · have := escaped_length (by assumption); simp only [List.length_cons]; omega
  · simp

def dropDigits : List Char → Option (List Char)
  | c :: rest => if c.isDigit then some (rest.dropWhile Char.isDigit) else none
  | [] => none

def dropExponent : List Char → Option (List Char)
  | c :: rest =>
    if c = 'e' ∨ c = 'E' then
      match rest with
      | d :: more => if d = '+' ∨ d = '-' then dropDigits more else dropDigits rest
      | [] => none
    else some (c :: rest)
  | [] => some []

def dropFraction : List Char → Option (List Char)
  | '.' :: rest => dropDigits rest
  | rest => some rest

def dropWhole : List Char → Option (List Char)
  | '0' :: rest => some rest
  | rest => dropDigits rest

def dropUnsigned (s : List Char) : Option (List Char) := ((dropWhole s).bind dropFraction).bind dropExponent

theorem dropDigits_length {s t : List Char} (h : dropDigits s = some t) : t.length < s.length := by
  unfold dropDigits at h
  split at h
  · split at h
    · rename_i c rest _
      have := (List.dropWhile_suffix Char.isDigit (l := rest)).length_le
      simp only [Option.some.injEq] at h
      rw [← h]; simp only [List.length_cons]; omega
    · cases h
  · cases h

theorem dropExponent_length {s t : List Char} (h : dropExponent s = some t) : t.length ≤ s.length := by
  unfold dropExponent at h
  split at h
  · split at h
    · split at h
      · split at h
        · have := dropDigits_length h; simp only [List.length_cons]; omega
        · have := dropDigits_length h; simp only [List.length_cons] at this ⊢; omega
      · cases h
    · cases h; exact Nat.le_refl _
  · cases h; exact Nat.le_refl _

theorem dropFraction_length {s t : List Char} (h : dropFraction s = some t) : t.length ≤ s.length := by
  unfold dropFraction at h
  split at h
  · have := dropDigits_length h; simp only [List.length_cons]; omega
  · cases h; exact Nat.le_refl _

theorem dropWhole_length {s t : List Char} (h : dropWhole s = some t) : t.length < s.length := by
  unfold dropWhole at h
  split at h
  · simp only [Option.some.injEq] at h; rw [← h]; simp
  · exact dropDigits_length h

theorem dropUnsigned_length {s t : List Char} (h : dropUnsigned s = some t) : t.length < s.length := by
  obtain ⟨u, hu, ht⟩ := Option.bind_eq_some_iff.1 h
  obtain ⟨v, hv, hu⟩ := Option.bind_eq_some_iff.1 hu
  have h₁ := dropWhole_length hv
  have h₂ := dropFraction_length hu
  have h₃ := dropExponent_length ht
  omega

def punctuation? (c : Char) : Option Token :=
  if c = '{' then some .openBrace
  else if c = '}' then some .closeBrace
  else if c = '[' then some .openBracket
  else if c = ']' then some .closeBracket
  else if c = ':' then some .colon
  else if c = ',' then some .comma
  else none

def keyword : List Char → Option (Token × List Char)
  | 't' :: 'r' :: 'u' :: 'e' :: rest => some (.bool true, rest)
  | 'f' :: 'a' :: 'l' :: 's' :: 'e' :: rest => some (.bool false, rest)
  | 'n' :: 'u' :: 'l' :: 'l' :: rest => some (.null, rest)
  | _ => none

def numeral : List Char → Option (Token × List Char)
  | '-' :: rest => (dropUnsigned rest).map (.number, ·)
  | rest => (dropUnsigned rest).map (.number, ·)

/-- Splits a token off a text; the first character is no blank. -/
def first (c : Char) (rest : List Char) : Option (Token × List Char) :=
  match punctuation? c with
  | some t => some (t, rest)
  | none =>
    if c = '"' then (stringRest rest).map fun (ps, left) => (.string ps, left)
    else (keyword (c :: rest)).or (numeral (c :: rest))

theorem stringRest_length (s : List Char) :
    ∀ {ps left}, stringRest s = some (ps, left) → left.length < s.length := by
  fun_induction stringRest s with
  | case1 => intro _ _ h; cases h
  | case2 => intro _ _ h; simp only [Option.some.injEq, Prod.mk.injEq] at h; simp [← h.2]
  | case3 _ p rest he _ ih =>
    intro _ _ h
    obtain ⟨⟨b, l⟩, hr, hp⟩ := Option.map_eq_some_iff.1 h
    have h₁ := ih hr
    have h₂ := escaped_length (by assumption)
    simp only [Prod.mk.injEq] at hp
    rw [← hp.2]; simp only [List.length_cons]; omega
  | case4 => intro _ _ h; cases h
  | case5 => intro _ _ h; cases h
  | case6 _ _ _ _ _ ih =>
    intro _ _ h
    obtain ⟨⟨b, l⟩, hr, hp⟩ := Option.map_eq_some_iff.1 h
    have := ih hr
    simp only [Prod.mk.injEq] at hp
    rw [← hp.2]; simp only [List.length_cons]; omega

theorem keyword_length {s left : List Char} {t : Token} (h : keyword s = some (t, left)) : left.length < s.length := by
  unfold keyword at h
  split at h
  all_goals simp only [Option.some.injEq, Prod.mk.injEq, reduceCtorEq] at h
  all_goals rw [← h.2]; simp only [List.length_cons]; omega

theorem numeral_length {s left : List Char} {t : Token} (h : numeral s = some (t, left)) : left.length < s.length := by
  unfold numeral at h
  split at h
  · obtain ⟨l, hr, he⟩ := Option.map_eq_some_iff.1 h
    have := dropUnsigned_length hr
    simp only [Prod.mk.injEq] at he
    rw [← he.2]; simp only [List.length_cons]; omega
  · obtain ⟨l, hr, he⟩ := Option.map_eq_some_iff.1 h
    have := dropUnsigned_length hr
    simp only [Prod.mk.injEq] at he
    rw [← he.2]; exact this

theorem first_length {c : Char} {rest left : List Char} {t : Token} (h : first c rest = some (t, left)) :
    left.length < (c :: rest).length := by
  unfold first at h
  split at h
  · simp only [Option.some.injEq, Prod.mk.injEq] at h; simp [← h.2]
  · split at h
    · obtain ⟨⟨ps, l⟩, hr, he⟩ := Option.map_eq_some_iff.1 h
      have := stringRest_length rest hr
      simp only [Prod.mk.injEq] at he
      rw [← he.2]; simp only [List.length_cons]; omega
    · rcases Option.or_eq_some_iff.1 h with hk | ⟨_, hn⟩
      · exact keyword_length hk
      · exact numeral_length hn

def isSpace (c : Char) : Bool := c = ' ' || c = '\n' || c = '\r' || c = '\t'

/-- **The tokens of a JSON text**; none if some part of it is no token. -/
def ofText? (s : List Char) : Option (List Token) :=
  match s with
  | [] => some []
  | c :: rest =>
    if isSpace c then ofText? rest
    else
      match _h : first c rest with
      | some (t, left) => (ofText? left).map (t :: ·)
      | none => none
termination_by s.length
decreasing_by
  · simp
  · exact first_length (by assumption)

end Token

/-! ## Skipping a value

A value that nobody looks at is skipped token by token.  The arrays and objects that are open make a stack, so that a
value may be of any depth. -/

inductive Enclosure
  | array
  | object

/-- What may stand next: a value; a value or the end of an array; a key; a key or the end of an object; a colon; a comma
or the end of what is open. -/
inductive Demand
  | value
  | valueOrEnd
  | key
  | keyOrEnd
  | colon
  | commaOrEnd

/-- What is demanded once a value is complete; nothing if no array or object is open. -/
def afterValue : List Enclosure → Option (Demand × List Enclosure)
  | [] => none
  | stack => some (.commaOrEnd, stack)

def startValue (stack : List Enclosure) : Token → Option (Option (Demand × List Enclosure))
  | .openBracket => some (some (.valueOrEnd, .array :: stack))
  | .openBrace => some (some (.keyOrEnd, .object :: stack))
  | .string _ | .number | .bool _ | .null => some (afterValue stack)
  | _ => none

/-- What is demanded after a token; the outer answer is none if the token is not what was demanded, the inner one if it
completes the value. -/
def demandAfter (stack : List Enclosure) : Demand → Token → Option (Option (Demand × List Enclosure))
  | .value, t => startValue stack t
  | .valueOrEnd, .closeBracket => some (afterValue stack.tail)
  | .valueOrEnd, t => startValue stack t
  | .key, .string _ => some (some (.colon, stack))
  | .keyOrEnd, .string _ => some (some (.colon, stack))
  | .keyOrEnd, .closeBrace => some (afterValue stack.tail)
  | .colon, .colon => some (some (.value, stack))
  | .commaOrEnd, t =>
    match stack, t with
    | .array :: _, .comma => some (some (.value, stack))
    | .array :: rest, .closeBracket => some (afterValue rest)
    | .object :: _, .comma => some (some (.key, stack))
    | .object :: rest, .closeBrace => some (afterValue rest)
    | _, _ => none
  | _, _ => none

def skip (demand : Demand) (stack : List Enclosure) : List Token → Option (List Token)
  | [] => none
  | t :: rest =>
    match demandAfter stack demand t with
    | none => none
    | some none => some rest
    | some (some (demand, stack)) => skip demand stack rest

theorem skip_length : ∀ (ts : List Token) {demand : Demand} {stack : List Enclosure} {left : List Token},
    skip demand stack ts = some left → left.length < ts.length
  | [], _, _, _, h => by simp [skip] at h
  | t :: rest, demand, stack, left, h => by
    simp only [skip] at h
    split at h
    · cases h
    · simp only [Option.some.injEq] at h; rw [← h]; simp
    · have := skip_length rest h; simp only [List.length_cons]; omega

end Stencil.Json
