import Stencil.Proofs.Expr.Operands
/-!
# The parser accepts its grammar

The readers with some levels of nesting left are exact for what has at most so many levels, by induction on the levels.
From them: a source is parsed just if the grammar derives all of its tokens within the limits, and to the expression of
that derivation.
-/
namespace Stencil

open Grammar

namespace TokenReader

variable {reader nested : TokenReader Expr} {limit : Nat}

/-- **The reader of ternaries is exact** with one level more than the readers of what they consist of. -/
theorem Exact.ternary (h : reader.Exact .unary limit) (hnested : nested.Exact .ternary limit) :
    (TokenReader.ternary reader nested).Exact .ternary (limit + 1) where
  sound := by
    intro c d e hc hr
    obtain ⟨condition, s, hcond, hr⟩ := Reader.exists_of_run_bind hr
    obtain ⟨depth, n, ts, hlt, hd, hs⟩ := h.disjunction.sound hc hcond
    rw [run_head_bind] at hr
    split at hr
    · rename_i hh
      obtain ⟨_, t, ha, hr⟩ := Reader.exists_of_run_bind hr
      obtain ⟨yes, u, hyes, hr⟩ := Reader.exists_of_run_bind hr
      obtain ⟨_, v, hx, hr⟩ := Reader.exists_of_run_bind hr
      obtain ⟨no, w, hno, hr⟩ := Reader.exists_of_run_bind hr
      cases hr
      have hquestion := Cursor.Steps.of_tail hs.operators_le hh (tail_of_run_advance ha)
      obtain ⟨depth₁, n₁, us, hlt₁, hd₁, hus⟩ := hnested.sound hquestion.operators_le hyes
      have hcolon := steps_of_run_expect hus.operators_le hx
      obtain ⟨depth₂, n₂, vs, hlt₂, hd₂, hvs⟩ := hnested.sound hcolon.operators_le hno
      have hall := hs.trans (hquestion.trans (hus.trans (hcolon.trans hvs)))
      rw [Nat.zero_add, Nat.zero_add] at hall
      have hdepth : max depth (max depth₁ depth₂) < limit := Nat.max_lt.2 ⟨hlt, Nat.max_lt.2 ⟨hlt₁, hlt₂⟩⟩
      exact ⟨_, _, _, Nat.succ_lt_succ hdepth, .ternary hd hd₁ hd₂, hall⟩
    · cases hr
      exact ⟨depth + 1, n, ts, Nat.succ_lt_succ hlt, .disjunction hd, hs⟩
  complete := by
    intro c d depth n ts e hd hlt hs hend
    cases hd with
    | operand hp => cases hp
    | operator hp => cases hp
    | disjunction hd =>
      have hnot : d.head? ≠ some (.symbol .question) := fun hh => absurd (hend _ hh) (by decide)
      rw [TokenReader.ternary,
        Reader.run_bind_ok (h.disjunction.complete hd (Nat.lt_of_succ_lt_succ hlt) hs (hend.mono (by decide))),
        run_head_bind, if_neg hnot]
      rfl
    | ternary hc hyes hno =>
      obtain ⟨hlt, hlt'⟩ := Nat.max_lt.1 (Nat.lt_of_succ_lt_succ hlt)
      obtain ⟨hlt₁, hlt₂⟩ := Nat.max_lt.1 hlt'
      obtain ⟨s, hs, hrest⟩ := hs.split
      obtain ⟨hq, t, ht, hrest⟩ := hrest.cons
      obtain ⟨u, hus, hrest⟩ := hrest.split
      obtain ⟨hcolon, v, hv, hvs⟩ := hrest.cons
      have hends : Ends .disjunction s.head? := by
        rw [hq]
        exact ends_symbol (by decide)
      have hends₁ : Ends .ternary u.head? := by
        rw [hcolon]
        exact ends_symbol (by decide)
      rw [TokenReader.ternary, Reader.run_bind_ok (h.disjunction.complete hc hlt hs hends), run_head_bind, if_pos hq,
        run_advance_bind _ ht, Reader.run_bind_ok (hnested.complete hyes hlt₁ hus hends₁),
        Reader.run_bind_ok (run_expect hcolon hv), Reader.run_bind_ok (hnested.complete hno hlt₂ hvs hend)]
      rfl

end TokenReader

/-! ## Levels -/

theorem Grammar.Derives.pos_of_ternary {depth n : Nat} {ts : List Token} {e : Expr} (h : Derives .ternary depth n ts e) :
    1 ≤ depth := by
  cases h with
  | operand hp => cases hp
  | operator hp => cases hp
  | disjunction => exact Nat.succ_pos _
  | ternary => exact Nat.succ_pos _

/-- **The readers with some levels left are exact within one level more**, the one at which they are. -/
theorem Level.exact_ofRoom : ∀ room : Nat, (Level.ofRoom room).unary.Exact .unary (room + 1) ∧
    (Level.ofRoom room).ternary.Exact .ternary (room + 1)
  | 0 => by
    have hunary : (TokenReader.fail .tooDeep).Exact .unary 0 := TokenReader.exact_fail _ fun _ => Nat.zero_le _
    have hternary : (TokenReader.fail .tooDeep).Exact .ternary 1 := TokenReader.exact_fail _ fun h => h.pos_of_ternary
    exact ⟨hunary.unary hternary, hternary⟩
  | room + 1 => by
    obtain ⟨hunary, hternary⟩ := Level.exact_ofRoom room
    have hwithin := hunary.ternary hternary
    exact ⟨hunary.unary hwithin, hwithin⟩

/-! ## Whole sources -/

namespace Expr

theorem exists_of_run_whole {c d : Cursor} {e : Expr} (h : whole.run c = .ok (e, d)) :
    (Level.ofRoom maxDepth).ternary.run c = .ok (e, d) ∧ d.head? = none := by
  obtain ⟨e', s, he, h⟩ := Reader.exists_of_run_bind h
  rw [TokenReader.run_head_bind] at h
  split at h
  · rename_i hh
    cases h
    exact ⟨he, hh⟩
  · cases h

theorem run_whole {c d : Cursor} {e : Expr} (h : (Level.ofRoom maxDepth).ternary.run c = .ok (e, d))
    (hend : d.head? = none) : whole.run c = .ok (e, d) := by
  rw [whole, Reader.run_bind_ok h, TokenReader.run_head_bind, hend]
  rfl

theorem parse_eq_ok_iff_run {source : String} {e : Expr} :
    parse source = .ok e ↔
      (Feed.ofSource source).sound = .ok (Feed.ofSource source) ∧ ∃ d, whole.run ⟨Feed.ofSource source, 0⟩ = .ok (e, d) := by
  have hparse : parse source = (Feed.ofSource source).sound.bind fun feed => (whole.run ⟨feed, 0⟩).map Prod.fst := by
    unfold parse
    cases (Feed.ofSource source).sound with
    | error err => rfl
    | ok feed =>
      show (whole.run ⟨feed, 0⟩ >>= fun p => pure p.1) = (whole.run ⟨feed, 0⟩).map Prod.fst
      cases whole.run ⟨feed, 0⟩ <;> rfl
  rw [hparse]
  constructor
  · intro h
    cases hsound : (Feed.ofSource source).sound with
    | error err => rw [hsound] at h; cases h
    | ok feed =>
      have hfeed := Feed.eq_of_sound hsound
      subst hfeed
      rw [hsound] at h
      obtain ⟨⟨e', d⟩, hw, rfl⟩ := ok_of_map_ok h
      exact ⟨rfl, d, hw⟩
  · rintro ⟨hsound, d, hw⟩
    rw [hsound]
    show (whole.run ⟨Feed.ofSource source, 0⟩).map Prod.fst = .ok e
    rw [hw]
    rfl

/-- **An expression that is read from a source is derived from its tokens**, within the limits. -/
theorem exists_derives_of_parse {source : String} {e : Expr} (h : parse source = .ok e) :
    ∃ tokens depth operators, (Feed.ofSource source).tokens? = some tokens ∧
      Derives .ternary depth operators tokens e ∧ depth ≤ 64 ∧ operators ≤ 1024 := by
  obtain ⟨hsound, d, hw⟩ := parse_eq_ok_iff_run.1 h
  obtain ⟨hr, hend⟩ := exists_of_run_whole hw
  obtain ⟨depth, n, ts, hlt, hd, hs⟩ := (Level.exact_ofRoom maxDepth).2.sound (Nat.zero_le _) hr
  have hoperators : n ≤ maxOperators := by
    have hle := hs.operators_le
    rw [hs.operators_eq, Nat.zero_add] at hle
    exact hle
  have htokens := Feed.tokens?_eq_some_iff.2 ⟨hsound, d.feed, hs.gives, hs.gives.sound hsound, hend⟩
  exact ⟨ts, depth, n, htokens, hd, Nat.le_of_lt_succ hlt, hoperators⟩

/-- **What is derived from the tokens of a source is read from it**, if the limits allow it. -/
theorem parse_of_derives {source : String} {e : Expr} {tokens : List Token} {depth operators : Nat}
    (htokens : (Feed.ofSource source).tokens? = some tokens) (hd : Derives .ternary depth operators tokens e)
    (hdepth : depth ≤ 64) (hoperators : operators ≤ 1024) : parse source = .ok e := by
  obtain ⟨hsound, g, hg, -, hend⟩ := Feed.tokens?_eq_some_iff.1 htokens
  have hs : Cursor.Steps ⟨Feed.ofSource source, 0⟩ operators tokens ⟨g, operators⟩ :=
    ⟨hg, (Nat.zero_add operators).symm, hoperators⟩
  have hends : Ends .ternary (Cursor.head? ⟨g, operators⟩) := by
    intro s hh
    rw [show Cursor.head? ⟨g, operators⟩ = none from hend] at hh
    cases hh
  have hr := (Level.exact_ofRoom maxDepth).2.complete hd (Nat.lt_succ_of_le hdepth) hs hends
  exact parse_eq_ok_iff_run.2 ⟨hsound, ⟨g, operators⟩, run_whole hr hend⟩

/-- **A source is parsed to an expression just if the grammar derives it from the tokens of the source**, with at most 64
levels within each other and at most 1024 operators. -/
theorem parse_eq_ok_iff {source : String} {e : Expr} :
    parse source = .ok e ↔ ∃ tokens depth operators, (Feed.ofSource source).tokens? = some tokens ∧
      Derives .ternary depth operators tokens e ∧ depth ≤ 64 ∧ operators ≤ 1024 := by
  constructor
  · exact exists_derives_of_parse
  · rintro ⟨ts, depth, n, htokens, hd, hdepth, hn⟩
    exact parse_of_derives htokens hd hdepth hn

end Expr
end Stencil
