import Stencil.Parameter
import Stencil.Text.Blank
import Stencil.Text.Bytes
/-!
# Placeholders

A placeholder is two opening braces, a body of at least one placeholder character, and two closing braces.  It is lazy:
it ends at the first two closing braces that begin after the first character of the body.  That first character may be
any placeholder character, a closing brace too.  Where two opening braces begin no placeholder, the search goes on at the
next character.

The body is `key` or `key:default`.  Blanks around the body are dropped, then those around the key.
-/
namespace Stencil

/-- A placeholder found in a text: what it is written as, the bytes from `start` up to `stop` that it takes there, and
what it asks for. -/
structure Placeholder where
  text : String
  start : Nat
  stop : Nat
  parameter : Parameter
deriving DecidableEq

namespace Placeholder

def isBodyChar (c : Char) : Bool :=
  c.isAlphanum || Text.isBlank c ||
    c ∈ ['_', ':', '{', '}', '\'', '"', '[', ']', '-', '+', '.', ',', '@', '/', '(', ')', '?', '=', '*', '$']

/-- Splits off the rest of a body and the two braces that close it. -/
def closing : List Char → Option (List Char × List Char)
  | [] => none
  | c :: rest =>
    if c = '}' && rest.head? = some '}' then some ([], rest.tail)
    else if isBodyChar c then (closing rest).map fun (body, left) => (c :: body, left)
    else none

/-- Splits off the body of a placeholder that begins the text, and the text after it. -/
def opening : List Char → Option (List Char × List Char)
  | '{' :: '{' :: c :: rest =>
    if isBodyChar c then (closing rest).map fun (body, left) => (c :: body, left) else none
  | _ => none

def written (body : List Char) : List Char := '{' :: '{' :: (body ++ ['}', '}'])

theorem eq_of_closing : ∀ {s body left : List Char}, closing s = some (body, left) → s = body ++ '}' :: '}' :: left
  | [], body, left, h => by simp [closing] at h
  | c :: rest, body, left, h => by
    simp only [closing] at h
    split at h
    · rename_i hc
      simp only [Bool.and_eq_true, decide_eq_true_eq] at hc
      obtain ⟨t, ht⟩ := List.head?_eq_some_iff.1 hc.2
      cases h
      simp [hc.1, ht]
    · split at h
      · obtain ⟨⟨b, l⟩, hr, he⟩ := Option.map_eq_some_iff.1 h
        cases he
        rw [eq_of_closing hr, List.cons_append]
      · cases h

/-- **A placeholder takes off the text just what it is written as.** -/
theorem eq_of_opening {s body left : List Char} (h : opening s = some (body, left)) : s = written body ++ left := by
  unfold opening at h
  split at h
  · split at h
    · obtain ⟨⟨b, l⟩, hr, he⟩ := Option.map_eq_some_iff.1 h
      cases he
      rw [eq_of_closing hr]
      simp [written]
    · cases h
  · cases h

theorem opening_length {s body left : List Char} (h : opening s = some (body, left)) : left.length < s.length := by
  rw [eq_of_opening h]
  simp only [written, List.length_append, List.length_cons]; omega

/-! ## The pieces of a text -/

/-- A piece of a text: a character by itself, or a placeholder with a body. -/
inductive Piece
  | plain (c : Char)
  | hole (body : List Char)
deriving DecidableEq

def Piece.written : Piece → List Char
  | .plain c => [c]
  | .hole body => Placeholder.written body

def pieces (s : List Char) : List Piece :=
  match s with
  | [] => []
  | c :: rest =>
    match _h : opening (c :: rest) with
    | some (body, left) => .hole body :: pieces left
    | none => .plain c :: pieces rest
termination_by s.length
decreasing_by
  · exact opening_length (by assumption)
  · exact Nat.lt_succ_self _

theorem flatMap_written_pieces (s : List Char) : (pieces s).flatMap Piece.written = s := by
  fun_induction pieces s with
  | case1 => rfl
  | case2 c rest body left h ih => rw [List.flatMap_cons, ih, eq_of_opening h]; rfl
  | case3 c rest h ih => rw [List.flatMap_cons, ih]; rfl

/-! ## The placeholders of a text -/

def parameterOf (body : List Char) : Parameter :=
  let trimmed := Text.trim body
  let key := trimmed.takeWhile (· ≠ ':')
  match trimmed.dropWhile (· ≠ ':') with
  | [] => ⟨String.ofList trimmed, none⟩
  | _ :: default => ⟨String.ofList (Text.trim key), some (String.ofList default)⟩

def ofBody (start : Nat) (body : List Char) : Placeholder where
  text := String.ofList (written body)
  start := start
  stop := start + Text.byteLength (written body)
  parameter := parameterOf body

def locate (start : Nat) : List Piece → List Placeholder
  | [] => []
  | .plain c :: rest => locate (start + c.utf8Size) rest
  | .hole body :: rest => ofBody start body :: locate (start + Text.byteLength (written body)) rest

/-- **The placeholders of a text**, from left to right and without overlap. -/
def scan (input : String) : List Placeholder := locate 0 (pieces input.toList)

end Placeholder
end Stencil
