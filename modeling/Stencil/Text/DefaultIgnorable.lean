import Stencil.Text.Ranges
/-!
# Characters that leave no mark

The Unicode property Default_Ignorable_Code_Point: characters that leave no mark where a font has no form for them, such
as joiners, selectors of a variant and the fillers of Hangul syllables.  The fillers are letters by their category.
-/
namespace Stencil.Text

/-- Code points with the property Default_Ignorable_Code_Point; there are none in ASCII. -/
def defaultIgnorableRanges : Ranges :=
  [(0xad, 0xad), (0x34f, 0x34f), (0x61c, 0x61c), (0x115f, 0x1160), (0x17b4, 0x17b5), (0x180b, 0x180f), (0x200b, 0x200f),
   (0x202a, 0x202e), (0x2060, 0x206f), (0x3164, 0x3164), (0xfe00, 0xfe0f), (0xfeff, 0xfeff), (0xffa0, 0xffa0),
   (0xfff0, 0xfff8), (0x1bca0, 0x1bca3), (0x1d173, 0x1d17a), (0xe0000, 0xe0fff)]

theorem defaultIgnorableRanges_ascending : defaultIgnorableRanges.ascendingFrom 0x7f = true := by decide +kernel

def isDefaultIgnorable (c : Char) : Bool := defaultIgnorableRanges.mem c.toNat

theorem isDefaultIgnorable_iff {c : Char} :
    isDefaultIgnorable c = true ↔ ∃ r ∈ defaultIgnorableRanges, r.1 ≤ c.toNat ∧ c.toNat ≤ r.2 :=
  Ranges.mem_iff defaultIgnorableRanges_ascending

end Stencil.Text
