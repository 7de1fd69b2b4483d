import Stencil.Text.Splice
/-!
# The first occurrence

`Puts` says what it is to put a text in place of the first occurrence of another, without searching for it;
`Text.replaceFirst` does just that.
-/
namespace Stencil.Text

/-- The second text is the first with `new` in place of the first occurrence of `old`, or the first if there is none. -/
inductive Puts (old new : List Char) : List Char → List Char → Prop
  | first {before after : List Char}
      (h : ∀ before' after', before ++ (old ++ after) = before' ++ (old ++ after') → before.length ≤ before'.length) :
      Puts old new (before ++ (old ++ after)) (before ++ (new ++ after))
  | absent {s : List Char} (h : ¬ old <:+: s) : Puts old new s s

variable {old new : List Char}

theorem Puts.nil : Puts old new [] (replaceFirst old new []) := by
  by_cases hold : old = []
  · subst hold
    have h : Puts [] new ([] ++ ([] ++ [])) ([] ++ (new ++ [])) := .first fun _ _ _ => Nat.zero_le _
    simpa only [replaceFirst, List.isEmpty_nil, if_true, List.nil_append, List.append_nil] using h
  · rw [replaceFirst, if_neg (by rwa [List.isEmpty_iff])]
    exact .absent fun h => hold (List.infix_nil.1 h)

theorem Puts.cons {c : Char} {s t : List Char} (hc : ¬ old <+: c :: s) (h : Puts old new s t) :
    Puts old new (c :: s) (c :: t) := by
  cases h with
  | @first before after h =>
    refine @Puts.first old new (c :: before) after fun before' after' he => ?_
    cases before' with
    | nil => exact absurd ⟨after', he.symm⟩ hc
    | cons d before' =>
      rw [List.cons_append, List.cons_append] at he
      exact Nat.succ_le_succ (h before' after' (List.cons.inj he).2)
  | absent h =>
    refine .absent fun hin => ?_
    rcases List.infix_cons_iff.1 hin with hpre | hin
    · exact hc hpre
    · exact h hin

theorem puts_replaceFirst (old new : List Char) : ∀ s : List Char, Puts old new s (replaceFirst old new s)
  | [] => .nil
  | c :: s => by
    rw [replaceFirst]
    split
    · rename_i hp
      obtain ⟨after, hafter⟩ := List.isPrefixOf_iff_prefix.1 hp
      rw [← hafter, List.drop_left]
      exact @Puts.first old new [] after fun _ _ _ => Nat.zero_le _
    · rename_i hp
      rw [List.isPrefixOf_iff_prefix] at hp
      exact (puts_replaceFirst old new s).cons hp

theorem Puts.unique {s t u : List Char} (ht : Puts old new s t) (hu : Puts old new s u) : t = u := by
  generalize hs' : s = s' at hu
  cases ht with
  | @first before after h =>
    cases hu with
    | @first before' after' h' =>
      have hlen : before.length = before'.length := Nat.le_antisymm (h _ _ hs') (h' _ _ hs'.symm)
      obtain ⟨hbefore, hafter⟩ := List.append_inj hs' hlen
      rw [hbefore, List.append_cancel_left hafter]
    | absent hno => exact absurd ⟨before, after, by rw [List.append_assoc, hs']⟩ hno
  | absent hno =>
    subst hs'
    cases hu with
    | @first before' after' h' => exact absurd ⟨before', after', by rw [List.append_assoc]⟩ hno
    | absent => rfl

theorem puts_iff {s t : List Char} : Puts old new s t ↔ replaceFirst old new s = t := by
  constructor
  · exact fun h => (puts_replaceFirst old new s).unique h
  · rintro rfl
    exact puts_replaceFirst old new s

end Stencil.Text
