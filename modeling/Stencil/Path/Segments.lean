/-!
# Segments of a path

A path is written as bare names set apart by dots and as brackets: `user.name`, `items[0].id`, `meta["content-type"]`.
A bare name runs up to the next dot or opening bracket; an empty one is no segment, but a dot at the very start gives an
empty first segment.  A bracket holds either a quoted name, in which a backslash takes the next character as it is and
after which everything up to the closing bracket is skipped, or all the characters up to the closing bracket.  What is
left open at the end of the text closes there.
-/
namespace Stencil.Path

def isBare (c : Char) : Bool := c ≠ '.' && c ≠ '['

def afterBracket (s : List Char) : List Char := (s.dropWhile (· ≠ ']')).tail

/-- Splits off a quoted name and the rest of its bracket; the opening quote has been read. -/
def quoted (quote : Char) : List Char → List Char × List Char
  | [] => ([], [])
  | c :: rest =>
    if c = quote then ([], afterBracket rest)
    else if c = '\\' then
      match rest with
      | [] => ([], [])
      | d :: rest => let (name, left) := quoted quote rest; (d :: name, left)
    else let (name, left) := quoted quote rest; (c :: name, left)

def unquoted (s : List Char) : List Char × List Char := (s.takeWhile (· ≠ ']'), afterBracket s)

def bracketed : List Char → List Char × List Char
  | '"' :: rest => quoted '"' rest
  | '\'' :: rest => quoted '\'' rest
  | rest => unquoted rest

theorem afterBracket_length (s : List Char) : (afterBracket s).length ≤ s.length := by
  have := (List.dropWhile_suffix (· ≠ ']') (l := s)).length_le
  simp only [afterBracket, List.length_tail]; omega

theorem quoted_length (quote : Char) (s : List Char) : (quoted quote s).2.length ≤ s.length := by
  fun_induction quoted quote s with
  | case1 => simp
  | case2 rest => have := afterBracket_length rest; simp only [List.length_cons]; omega
  | case3 => simp
  | case4 => simp_all; omega
  | case5 => simp_all; omega

theorem bracketed_length (s : List Char) : (bracketed s).2.length ≤ s.length := by
  unfold bracketed
  split
  · have := quoted_length '"' (by assumption); simp only [List.length_cons]; omega
  · have := quoted_length '\'' (by assumption); simp only [List.length_cons]; omega
  · exact afterBracket_length s

/-- The segments of a text, with no regard to a dot at its start. -/
def segmentsFrom (s : List Char) : List (List Char) :=
  match s with
  | [] => []
  | c :: rest =>
    if c = '.' then segmentsFrom rest
    else if c = '[' then (bracketed rest).1 :: segmentsFrom (bracketed rest).2
    else (c :: rest.takeWhile isBare) :: segmentsFrom (rest.dropWhile isBare)
termination_by s.length
decreasing_by
  · simp
  · have := bracketed_length rest; simp only [List.length_cons]; omega
  · have := (List.dropWhile_suffix isBare (l := rest)).length_le; simp only [List.length_cons]; omega

def segments (path : String) : List String :=
  let found := segmentsFrom path.toList
  ((if path.toList.head? = some '.' then [[]] else []) ++ found).map String.ofList

end Stencil.Path
