/-!
# Byte lengths

Positions in a text are counted in bytes of its UTF-8 form.
-/
namespace Stencil.Text

def byteLength : List Char → Nat
  | [] => 0
  | c :: rest => c.utf8Size + byteLength rest

@[simp] theorem byteLength_nil : byteLength [] = 0 := rfl

@[simp] theorem byteLength_cons (c : Char) (s : List Char) : byteLength (c :: s) = c.utf8Size + byteLength s := rfl

@[simp] theorem byteLength_append : ∀ s t : List Char, byteLength (s ++ t) = byteLength s + byteLength t
  | [], t => by simp
  | c :: s, t => by simp [byteLength_append s t, Nat.add_assoc]

end Stencil.Text
