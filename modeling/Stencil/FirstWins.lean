/-!
# First wins

`firstWins` keeps, of all items with one key, the first, and keeps the order of what it keeps.
-/
namespace Stencil

variable {α κ : Type} [DecidableEq κ]

/-- The items whose key is neither among `seen` nor the key of an earlier item. -/
def firstWinsFrom (key : α → κ) : List κ → List α → List α
  | _, [] => []
  | seen, x :: xs =>
    if key x ∈ seen then firstWinsFrom key seen xs else x :: firstWinsFrom key (key x :: seen) xs

def firstWins (key : α → κ) (xs : List α) : List α := firstWinsFrom key [] xs

end Stencil
