import Stencil.Toml.Scalar
/-!
# TOML strings

The four ways of writing a string.  Each function is given what follows the opening quotes, and splits off the text up to
the closing ones.  Line breaks stand only in strings of three quotes, and are a line feed in the text however they are
written.
-/
namespace Stencil.Toml.Text

def isControl (c : Char) : Bool := (c.toNat < 0x20 && c ≠ '\t') || c.toNat = 0x7f

def codePoint (width : Nat) (s : List Char) : Option (Char × List Char) :=
  let digits := s.take width
  if digits.length = width ∧ digits.all Scalar.isHex then
    let n := Scalar.positional 16 digits
    if n.isValidChar then some (Char.ofNat n, s.drop width) else none
  else none

def escape (s : List Char) : Option (Char × List Char) :=
  match s with
  | 'b' :: rest => some ('\x08', rest)
  | 't' :: rest => some ('\t', rest)
  | 'n' :: rest => some ('\n', rest)
  | 'f' :: rest => some ('\x0c', rest)
  | 'r' :: rest => some ('\r', rest)
  | 'e' :: rest => some ('\x1b', rest)
  | '"' :: rest => some ('"', rest)
  | '\\' :: rest => some ('\\', rest)
  | 'x' :: rest => codePoint 2 rest
  | 'u' :: rest => codePoint 4 rest
  | 'U' :: rest => codePoint 8 rest
  | _ => none

theorem codePoint_length {width : Nat} {s left : List Char} {c : Char} (h : codePoint width s = some (c, left)) :
    left.length ≤ s.length := by
  unfold codePoint at h
  simp only at h
  split at h
  · split at h
    · simp only [Option.some.injEq, Prod.mk.injEq] at h; simp [← h.2]
    · cases h
  · cases h

theorem escape_length {s left : List Char} {c : Char} (h : escape s = some (c, left)) : left.length < s.length := by
  have inner : ∀ {width : Nat} {rest : List Char}, codePoint width rest = some (c, left) →
      left.length < (rest.length + 1) := fun h => Nat.lt_succ_of_le (codePoint_length h)
  unfold escape at h
  split at h
  all_goals first
    | exact inner h
    | (cases h; exact Nat.lt_succ_self _)
    | cases h

def literal : List Char → Option (List Char × List Char)
  | [] => none
  | c :: rest =>
    if c = '\'' then some ([], rest)
    else if isControl c then none
    else (literal rest).map fun (text, left) => (c :: text, left)

def basic (s : List Char) : Option (List Char × List Char) :=
  match s with
  | [] => none
  | c :: rest =>
    if c = '"' then some ([], rest)
    else if c = '\\' then
      match _h : escape rest with
      | some (e, rest) => (basic rest).map fun (text, left) => (e :: text, left)
      | none => none
    else if isControl c then none
    else (basic rest).map fun (text, left) => (c :: text, left)
termination_by s.length
decreasing_by
  · have := escape_length (by assumption); simp only [List.length_cons]; omega
  · simp

def lineBreak : List Char → Option (List Char)
  | '\n' :: rest => some rest
  | '\r' :: '\n' :: rest => some rest
  | _ => none

theorem lineBreak_length {s left : List Char} (h : lineBreak s = some left) : left.length < s.length := by
  unfold lineBreak at h
  split at h
  · simp only [Option.some.injEq] at h; simp [← h]
  · simp only [Option.some.injEq] at h; rw [← h]; simp only [List.length_cons]; omega
  · cases h

/-- The quotes that close a text of three: up to two more before them belong to the text. -/
def closing (quote : Char) (s : List Char) : Option (List Char × List Char) :=
  let quotes := min 5 (s.takeWhile (· = quote)).length
  if 3 ≤ quotes then some (List.replicate (quotes - 3) quote, s.drop quotes) else none

def dropGap : List Char → List Char
  | '\r' :: '\n' :: rest => dropGap rest
  | c :: rest => if c = ' ' || c = '\t' || c = '\n' then dropGap rest else c :: rest
  | [] => []

theorem dropGap_length (s : List Char) : (dropGap s).length ≤ s.length := by
  fun_induction dropGap s with
  | case1 _ ih => exact Nat.le_succ_of_le (Nat.le_succ_of_le ih)
  | case2 _ _ _ _ ih => exact Nat.le_succ_of_le ih
  | case3 => exact Nat.le_refl _
  | case4 => exact Nat.le_refl _

/-- What follows a backslash at the end of a line: the break and all blanks and breaks after it are dropped. -/
def continuation (s : List Char) : Option (List Char) :=
  (lineBreak (s.dropWhile fun c => c = ' ' || c = '\t')).map dropGap

theorem continuation_length {s left : List Char} (h : continuation s = some left) : left.length < s.length := by
  obtain ⟨t, ht, rfl⟩ := Option.map_eq_some_iff.1 h
  have h₁ := lineBreak_length ht
  have h₂ := (List.dropWhile_suffix (fun c => c = ' ' || c = '\t') (l := s)).length_le
  have h₃ := dropGap_length t
  omega

/-- A text in three quotes; only one in double quotes has escapes. -/
def block (quote : Char) (s : List Char) : Option (List Char × List Char) :=
  match s with
  | [] => none
  | c :: rest =>
    match closing quote (c :: rest) with
    | some found => some found
    | none =>
      match _hb : lineBreak (c :: rest) with
      | some rest => (block quote rest).map fun (text, left) => ('\n' :: text, left)
      | none =>
        if c = '\\' && quote = '"' then
          match _hc : continuation rest with
          | some rest => block quote rest
          | none =>
            match _he : escape rest with
            | some (e, rest) => (block quote rest).map fun (text, left) => (e :: text, left)
            | none => none
        else if isControl c then none
        else (block quote rest).map fun (text, left) => (c :: text, left)
termination_by s.length
decreasing_by
  · exact lineBreak_length (by assumption)
  · have := continuation_length (by assumption); simp only [List.length_cons]; omega
  · have := escape_length (by assumption); simp only [List.length_cons]; omega
  · simp

theorem literal_length : ∀ {s text left : List Char}, literal s = some (text, left) → left.length ≤ s.length
  | [], _, _, h => by simp [literal] at h
  | c :: rest, text, left, h => by
    simp only [literal] at h
    split at h
    · simp only [Option.some.injEq, Prod.mk.injEq] at h; simp [← h.2]
    · split at h
      · cases h
      · obtain ⟨⟨t, l⟩, hr, he⟩ := Option.map_eq_some_iff.1 h
        have := literal_length hr
        simp only [Prod.mk.injEq] at he
        rw [← he.2]; simp only [List.length_cons]; omega

theorem basic_length (s : List Char) : ∀ {text left}, basic s = some (text, left) → left.length ≤ s.length := by
  fun_induction basic s with
  | case1 => intro _ _ h; cases h
  | case2 => intro _ _ h; simp only [Option.some.injEq, Prod.mk.injEq] at h; simp [← h.2]
  | case3 _ e rest _ _ ih =>
    intro _ _ h
    obtain ⟨⟨t, l⟩, hr, he⟩ := Option.map_eq_some_iff.1 h
    have h₁ := ih hr
    have h₂ := escape_length (by assumption)
    simp only [Prod.mk.injEq] at he
    rw [← he.2]; simp only [List.length_cons]; omega
  | case4 => intro _ _ h; cases h
  | case5 => intro _ _ h; cases h
  | case6 _ _ _ _ _ ih =>
    intro _ _ h
    obtain ⟨⟨t, l⟩, hr, he⟩ := Option.map_eq_some_iff.1 h
    have := ih hr
    simp only [Prod.mk.injEq] at he
    rw [← he.2]; simp only [List.length_cons]; omega

theorem block_length (quote : Char) (s : List Char) :
    ∀ {text left}, block quote s = some (text, left) → left.length ≤ s.length := by
  fun_induction block quote s with
  | case1 => intro _ _ h; cases h
  | case2 c rest found hf =>
    intro _ _ h
    simp only [Option.some.injEq] at h
    subst h
    unfold closing at hf
    simp only at hf
    split at hf
    · simp only [Option.some.injEq, Prod.mk.injEq] at hf; simp [← hf.2]
    · cases hf
  | case3 c rest _ rest' hb ih =>
    intro _ _ h
    obtain ⟨⟨t, l⟩, hr, he⟩ := Option.map_eq_some_iff.1 h
    have h₁ := ih hr
    have h₂ := lineBreak_length hb
    simp only [Prod.mk.injEq] at he
    rw [← he.2]; simp only [List.length_cons] at h₂ ⊢; omega
  | case4 =>
    rename_i ih
    intro _ _ h
    have h₁ := ih h
    have h₂ := continuation_length (by assumption)
    simp only [List.length_cons]; omega
  | case5 =>
    rename_i ih
    intro _ _ h
    obtain ⟨⟨t, l⟩, hr, he⟩ := Option.map_eq_some_iff.1 h
    have h₁ := ih hr
    have h₂ := escape_length (by assumption)
    simp only [Prod.mk.injEq] at he
    rw [← he.2]; simp only [List.length_cons]; omega
  | case6 => intro _ _ h; cases h
  | case7 => intro _ _ h; cases h
  | case8 =>
    rename_i ih
    intro _ _ h
    obtain ⟨⟨t, l⟩, hr, he⟩ := Option.map_eq_some_iff.1 h
    have := ih hr
    simp only [Prod.mk.injEq] at he
    rw [← he.2]; simp only [List.length_cons]; omega

end Stencil.Toml.Text
