/-!
# Replacing one occurrence

`replaceFirst` puts a text in place of the leftmost occurrence of another and leaves everything else alone.
-/
namespace Stencil.Text

/-- The text with the leftmost occurrence of `old` replaced by `new`; unchanged if there is none. -/
def replaceFirst (old new : List Char) : List Char → List Char
  | [] => if old.isEmpty then new else []
  | c :: rest =>
    if old.isPrefixOf (c :: rest) then new ++ (c :: rest).drop old.length
    else c :: replaceFirst old new rest

end Stencil.Text
