/-!
# Parameters

What a placeholder asks for: a path into the context, and the text to fall back on if the path leads to nothing.
-/
namespace Stencil

structure Parameter where
  key : String
  default? : Option String
deriving DecidableEq

end Stencil
