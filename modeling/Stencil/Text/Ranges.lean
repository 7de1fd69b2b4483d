/-!
# Ranges of code points

A character class beyond ASCII is a table of ranges.  The table is ascending and its ranges do not touch, so the first
range that does not end below a code point decides, and `mem` stops there.
-/
namespace Stencil.Text

/-- A table of inclusive ranges, ascending and disjoint. -/
abbrev Ranges := List (Nat × Nat)

namespace Ranges

def mem : Ranges → Nat → Bool
  | [], _ => false
  | (lo, hi) :: rest, n => if n ≤ hi then lo ≤ n else mem rest n

/-- Every range is well formed and starts above `floor`; the next one starts above its end. -/
def ascendingFrom : Nat → Ranges → Bool
  | _, [] => true
  | floor, (lo, hi) :: rest => floor < lo && lo ≤ hi && ascendingFrom hi rest

theorem mem_eq_false_of_le : ∀ {t : Ranges} {floor n : Nat}, t.ascendingFrom floor = true → n ≤ floor → t.mem n = false
  | [], _, _, _, _ => rfl
  | (lo, hi) :: rest, floor, n, h, hn => by
    simp only [ascendingFrom, Bool.and_eq_true, decide_eq_true_eq] at h
    have h₁ : n ≤ hi := by omega
    have h₂ : ¬ lo ≤ n := by omega
    simp [mem, h₁, h₂]

/-- **In an ascending table `mem` finds every range**: a code point is a member if and only if some range holds it. -/
theorem mem_iff : ∀ {t : Ranges} {floor n : Nat}, t.ascendingFrom floor = true →
    (t.mem n = true ↔ ∃ r ∈ t, r.1 ≤ n ∧ n ≤ r.2)
  | [], _, _, _ => by simp [mem]
  | (lo, hi) :: rest, floor, n, h => by
    simp only [ascendingFrom, Bool.and_eq_true, decide_eq_true_eq] at h
    have ih := mem_iff (n := n) h.2
    by_cases hn : n ≤ hi
    · have hr := mem_eq_false_of_le h.2 hn
      rw [hr] at ih
      simp only [mem, hn, if_true, decide_eq_true_eq, List.mem_cons, exists_eq_or_imp, and_true]
      exact ⟨Or.inl, fun o => o.elim id fun o => absurd (ih.2 o) (by decide)⟩
    · simp only [mem, hn, if_false, ih, List.mem_cons, exists_eq_or_imp, and_false, false_or]

end Ranges
end Stencil.Text
