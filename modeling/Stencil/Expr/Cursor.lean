import Stencil.Expr.Lexer
/-!
# Reading tokens

Readers of the tokens of one source.  They also count the binary operators of the whole source and fail at one too many.
-/
namespace Stencil

/-- The most binary operators that one source may have; comparisons do not count. -/
def maxOperators : Nat := 1024

/-- Where reading stands: the tokens to come and the binary operators counted so far. -/
structure Cursor where
  feed : Feed
  operators : Nat

namespace Cursor

def size (c : Cursor) : Nat := c.feed.size

def head? (c : Cursor) : Option Token := c.feed.head?

def error (fault : Fault) (c : Cursor) : SyntaxError := ⟨fault, c.feed.position, ""⟩

def tail (c : Cursor) : Except SyntaxError Cursor := c.feed.tail.map fun feed => { c with feed }

theorem size_tail {c d : Cursor} (h : c.tail = .ok d) : d.size ≤ c.size := by
  obtain ⟨feed, hf, rfl⟩ := ok_of_map_ok h
  exact Feed.size_tail hf

theorem size_tail_lt {c d : Cursor} {t : Token} (ht : c.head? = some t) (h : c.tail = .ok d) : d.size < c.size := by
  obtain ⟨feed, hf, rfl⟩ := ok_of_map_ok h
  exact Feed.size_tail_lt ht hf

end Cursor

abbrev TokenReader := Reader Cursor.size SyntaxError

namespace TokenReader

def fail {α : Type} (fault : Fault) : TokenReader α := .failWith (Cursor.error fault)

def head : TokenReader (Option Token) := .look Cursor.head?

def advance : TokenReader Unit where
  run c := c.tail.map ((), ·)
  size_le {c d a} h := by
    obtain ⟨e, he, hd⟩ := ok_of_map_ok h
    cases hd
    exact Cursor.size_tail he

def expect (s : Symbol) : TokenReader Unit := do
  let found ← head
  if found = some (.symbol s) then advance else fail (.expected s found)

def count : TokenReader Unit where
  run c :=
    let counted : Cursor := { c with operators := c.operators + 1 }
    if maxOperators < counted.operators then .error (counted.error .tooManyOperators) else .ok ((), counted)
  size_le {c d a} h := by
    simp only at h
    split at h
    · cases h
    · cases h; exact Nat.le_refl _

def opening {β : Type} (starts : Token → Option β) : Reader.Opening Cursor.size SyntaxError β where
  run c := (c.head?.bind starts).map fun b => c.tail.map (b, ·)
  size_lt {c d b} h := by
    obtain ⟨b', hb, ht⟩ := Option.map_eq_some_iff.1 h
    obtain ⟨t, hc, _⟩ := Option.bind_eq_some_iff.1 hb
    obtain ⟨e, he, hd⟩ := ok_of_map_ok ht
    cases hd
    exact Cursor.size_tail_lt hc he

end TokenReader
end Stencil
