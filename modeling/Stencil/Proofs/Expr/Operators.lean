import Stencil.Proofs.Expr.Chained
/-!
# The levels of operators

Given a reader that is exact for unary phrases, the readers of products, sums, comparisons, choices, conjunctions and
disjunctions are exact as well.  Only the table of symbols distinguishes the levels that lean to the left (`Joins`).
-/
namespace Stencil.TokenReader

open Grammar

/-! ## Levels that lean to the left -/

def Joins {β : Type} (p : Phrase) (ops : Symbol → Option β) (combine : Expr → β → Expr → Expr) : Prop :=
  ∀ s node, Operator p s node ↔ ∃ b, ops s = some b ∧ node = fun l r => combine l b r

section Joined

variable {β : Type} {p q : Phrase} {ops : Symbol → Option β} {combine : Expr → β → Expr → Expr}

theorem derives_of_chained (hp : Chain p q) (hj : Joins p ops combine) {depth n : Nat} {ts : List Token} {e : Expr}
    (h : Chained q (fun | .symbol s => ops s | _ => none) combine id depth n ts e) : Derives p depth n ts e := by
  induction h with
  | first h => exact .operand hp h
  | @round _ _ _ _ _ _ t b _ _ _ hb h ih =>
    cases t with
    | symbol s => exact .operator hp ((hj s _).2 ⟨b, hb, rfl⟩) ih h
    | _ => cases hb

theorem chained_of_derives (hp : Chain p q) (hj : Joins p ops combine) {depth n : Nat} {ts : List Token} {e : Expr}
    (h : Derives p depth n ts e) : Chained q (fun | .symbol s => ops s | _ => none) combine id depth n ts e := by
  induction h with
  | operand hp' h =>
    cases hp.operand_eq hp'
    exact .first h
  | operator hp' hs hl hr ihl =>
    cases hp.operand_eq hp'
    obtain ⟨b, hb, rfl⟩ := (hj _ _).1 hs
    exact .round (ihl hp hj) hb hr
  | _ => cases hp

/-- **A level that leans to the left is exact if its operands are.** -/
theorem Exact.joined {operand : TokenReader Expr} {limit : Nat} (hp : Chain p q) (hj : Joins p ops combine)
    (hq : operand.Exact q limit) : (joined ops operand combine).Exact p limit where
  sound := by
    intro c d e hc hr
    obtain ⟨depth, n, ts, hlt, hg, hs⟩ := chained_of_run_chain hq hc hr
    exact ⟨depth, n, ts, hlt, derives_of_chained hp hj hg, hs⟩
  complete := by
    intro c d depth n ts e hd hlt hs hend
    have hloose : ∀ {s b}, ops s = some b → s.looseness = p.looseness := by
      intro s b hb
      exact ((hj s _).2 ⟨b, hb, rfl⟩).looseness_eq
    have hg := chained_of_derives hp hj hd
    refine run_chain hq ?_ hg hlt hs (hend.mono (Nat.le_of_lt hp.looseness_lt)) ?_
    · intro t b hb
      cases t with
      | symbol s => exact ends_symbol (by rw [hloose hb]; exact hp.looseness_lt)
      | _ => cases hb
    · intro t ht
      cases t with
      | symbol s =>
        have hlt := hend s ht
        refine Option.eq_none_iff_forall_ne_some.2 fun b hb => ?_
        rw [hloose hb] at hlt
        exact Nat.lt_irrefl _ hlt
      | _ => rfl

end Joined

theorem joins_product : Joins .product (fun | .star => some .mul | .slash => some .div | .percent => some .rem | _ => none)
    (fun left op right => .math op left right) := by
  intro s node
  constructor
  · rintro ⟨⟩ <;> exact ⟨_, rfl, rfl⟩
  · rintro ⟨op, hop, rfl⟩
    cases s <;> cases hop <;> constructor

theorem joins_sum : Joins .sum (fun | .plus => some .add | .minus => some .sub | _ => none)
    (fun left op right => .math op left right) := by
  intro s node
  constructor
  · rintro ⟨⟩ <;> exact ⟨_, rfl, rfl⟩
  · rintro ⟨op, hop, rfl⟩
    cases s <;> cases hop <;> constructor

theorem joins_one {p : Phrase} {sign : Symbol} {only : Expr → Expr → Expr}
    (h : ∀ s node, Operator p s node ↔ s = sign ∧ node = only) :
    Joins p (fun s => if s = sign then some () else none) (fun left _ right => only left right) := by
  intro s node
  rw [h]
  constructor
  · rintro ⟨rfl, rfl⟩
    exact ⟨(), if_pos rfl, rfl⟩
  · rintro ⟨op, hop, rfl⟩
    by_cases hs : s = sign
    · exact ⟨hs, rfl⟩
    · simp only [if_neg hs] at hop
      cases hop

theorem joins_conjunction : Joins .conjunction (fun s => if s = .and then some () else none)
    (fun left _ right => .logic .and left right) := by
  refine joins_one fun s node => ⟨?_, ?_⟩
  · rintro ⟨⟩
    exact ⟨rfl, rfl⟩
  · rintro ⟨rfl, rfl⟩
    exact .and

theorem joins_disjunction : Joins .disjunction (fun s => if s = .or then some () else none)
    (fun left _ right => .logic .or left right) := by
  refine joins_one fun s node => ⟨?_, ?_⟩
  · rintro ⟨⟩
    exact ⟨rfl, rfl⟩
  · rintro ⟨rfl, rfl⟩
    exact .or

variable {reader : TokenReader Expr} {limit : Nat}

theorem Exact.product (h : reader.Exact .unary limit) : (TokenReader.product reader).Exact .product limit :=
  .joined .product joins_product h

theorem Exact.sum (h : reader.Exact .unary limit) : (TokenReader.sum reader).Exact .sum limit :=
  .joined .sum joins_sum h.product

/-! ## Comparisons -/

theorem comparison?_eq_some_iff {t : Token} {op : CompareOp} :
    comparison? t = some op ↔ ∃ s, t = .symbol s ∧ Comparison s op := by
  constructor
  · intro h
    cases t with
    | symbol s => exact ⟨s, rfl, by cases s <;> cases h <;> constructor⟩
    | _ => cases h
  · rintro ⟨s, rfl, hs⟩
    cases hs <;> rfl

theorem Exact.comparison (h : reader.Exact .unary limit) :
    (TokenReader.comparison reader).Exact .comparison limit where
  sound := by
    intro c d e hc hr
    obtain ⟨left, s, hl, hr⟩ := Reader.exists_of_run_bind hr
    obtain ⟨depth, n, ts, hlt, hd, hs⟩ := h.sum.sound hc hl
    rw [run_head_bind] at hr
    split at hr
    · rename_i op hop
      obtain ⟨token, hh, ht⟩ := Option.bind_eq_some_iff.1 hop
      obtain ⟨sign, rfl, hsign⟩ := comparison?_eq_some_iff.1 ht
      obtain ⟨_, t, ha, hr⟩ := Reader.exists_of_run_bind hr
      obtain ⟨right, u, hright, hr⟩ := Reader.exists_of_run_bind hr
      cases hr
      have htoken := Cursor.Steps.of_tail hs.operators_le hh (tail_of_run_advance ha)
      obtain ⟨depth', n', us, hlt', hd', hus⟩ := h.sum.sound htoken.operators_le hright
      have hall := hs.trans (htoken.trans hus)
      rw [Nat.zero_add] at hall
      exact ⟨_, _, _, Nat.max_lt.2 ⟨hlt, hlt'⟩, .compare hsign hd hd', hall⟩
    · cases hr
      exact ⟨depth, n, ts, hlt, .sum hd, hs⟩
  complete := by
    intro c d depth n ts e hd hlt hs hend
    cases hd with
    | operand hp => cases hp
    | operator hp => cases hp
    | sum hd =>
      rw [TokenReader.comparison, Reader.run_bind_ok (h.sum.complete hd hlt hs (hend.mono (by decide))), run_head_bind]
      have hnone : d.head?.bind comparison? = none := by
        refine Option.bind_eq_none_iff.2 fun t ht => Option.eq_none_iff_forall_ne_some.2 fun op hop => ?_
        obtain ⟨sign, rfl, hsign⟩ := comparison?_eq_some_iff.1 hop
        have hlt := hend sign ht
        rw [hsign.looseness_eq] at hlt
        exact Nat.lt_irrefl _ hlt
      rw [hnone]
      rfl
    | @compare sign _ _ _ _ _ _ _ _ _ hsign hl hr =>
      obtain ⟨hlt, hlt'⟩ := Nat.max_lt.1 hlt
      obtain ⟨s, hs, hrest⟩ := hs.split
      obtain ⟨hh, t, ht, hus⟩ := hrest.cons
      have hends : Ends .sum s.head? := by
        rw [hh]
        exact ends_symbol (by rw [hsign.looseness_eq]; decide)
      have hsome : s.head?.bind comparison? = some _ :=
        Option.bind_eq_some_iff.2 ⟨_, hh, comparison?_eq_some_iff.2 ⟨sign, rfl, hsign⟩⟩
      rw [TokenReader.comparison, Reader.run_bind_ok (h.sum.complete hl hlt hs hends), run_head_bind, hsome]
      simp only
      rw [run_advance_bind _ ht, Reader.run_bind_ok (h.sum.complete hr hlt' hus (hend.mono (by decide)))]
      rfl

/-! ## Choices -/

abbrev Choices : Nat → Nat → List Token → List Expr → Prop :=
  Chained .comparison (fun t => if t = .symbol .coalesce then some () else none)
    (fun operands _ right => operands ++ [right]) (fun e => [e])

theorem derives_coalesced {depth n : Nat} {ts : List Token} {es : List Expr} (h : Choices depth n ts es) :
    Derives .coalesce depth n ts (coalesced es) := by
  suffices hes : (∃ e, es = [e] ∧ Derives .comparison depth n ts e) ∨
      ∃ x y zs, es = x :: y :: zs ∧ Derives .choices depth n ts (.coalesce es) by
    obtain ⟨e, rfl, hd⟩ | ⟨x, y, zs, rfl, hd⟩ := hes
    · exact .comparison hd
    · exact .choices hd
  induction h with
  | first h => exact .inl ⟨_, rfl, h⟩
  | round hg hb h ih =>
    split at hb
    · rename_i ht
      subst ht
      obtain ⟨e, rfl, hd⟩ | ⟨x, y, zs, rfl, hd⟩ := ih
      · exact .inr ⟨e, _, [], rfl, .firstChoices hd h⟩
      · exact .inr ⟨x, y, _, rfl, .nextChoice hd h⟩
    · cases hb

theorem chained_of_choices {depth n : Nat} {ts : List Token} {e : Expr} (h : Derives .choices depth n ts e) :
    ∃ x y zs, e = .coalesce (x :: y :: zs) ∧ Choices depth n ts (x :: y :: zs) := by
  generalize hp : Phrase.choices = p at h
  induction h with
  | firstChoices hl hr => exact ⟨_, _, [], rfl, .round (.first hl) rfl hr⟩
  | nextChoice hl hr ih =>
    obtain ⟨x, y, zs, he, hg⟩ := ih rfl
    cases he
    exact ⟨x, y, _, rfl, .round hg rfl hr⟩
  | operand hc => cases hp; cases hc
  | operator hc => cases hp; cases hc
  | _ => cases hp

theorem chained_of_coalesce {depth n : Nat} {ts : List Token} {e : Expr} (h : Derives .coalesce depth n ts e) :
    ∃ es, e = coalesced es ∧ Choices depth n ts es := by
  cases h with
  | operand hc => cases hc
  | operator hc => cases hc
  | comparison h => exact ⟨[e], rfl, .first h⟩
  | choices h =>
    obtain ⟨x, y, zs, rfl, hg⟩ := chained_of_choices h
    exact ⟨x :: y :: zs, rfl, hg⟩

theorem Exact.coalesce (h : reader.Exact .unary limit) : (TokenReader.coalesce reader).Exact .coalesce limit where
  sound := by
    intro c d e hc hr
    obtain ⟨first, s, hf, hr⟩ := Reader.exists_of_run_bind hr
    obtain ⟨es, u, hl, hr⟩ := Reader.exists_of_run_bind hr
    cases hr
    have hchain : (chain (fun t => if t = .symbol .coalesce then some () else none)
        (fun operands _ right => operands ++ [right]) (fun e => [e]) (TokenReader.comparison reader)).run c
          = .ok (es, d) := by
      rw [chain, Reader.run_bind_ok hf]
      exact hl
    obtain ⟨depth, n, ts, hlt, hg, hs⟩ := chained_of_run_chain h.comparison hc hchain
    exact ⟨depth, n, ts, hlt, derives_coalesced hg, hs⟩
  complete := by
    intro c d depth n ts e hd hlt hs hend
    obtain ⟨es, rfl, hg⟩ := chained_of_coalesce hd
    have hchain := run_chain h.comparison ?_ hg hlt hs (hend.mono (by decide)) ?_
    · obtain ⟨first, s, hf, hl⟩ := Reader.exists_of_run_bind hchain
      rw [TokenReader.coalesce, Reader.run_bind_ok hf, Reader.run_bind_ok hl]
      rfl
    · intro t b hb
      split at hb
      · rename_i ht
        rw [ht]
        exact ends_symbol (by decide)
      · cases hb
    · intro t ht
      refine if_neg fun hc => ?_
      rw [hc] at ht
      exact Nat.lt_irrefl _ (hend _ ht)

theorem Exact.conjunction (h : reader.Exact .unary limit) :
    (TokenReader.conjunction reader).Exact .conjunction limit :=
  .joined .conjunction joins_conjunction h.coalesce

theorem Exact.disjunction (h : reader.Exact .unary limit) :
    (TokenReader.disjunction reader).Exact .disjunction limit :=
  .joined .disjunction joins_disjunction h.conjunction

end Stencil.TokenReader
