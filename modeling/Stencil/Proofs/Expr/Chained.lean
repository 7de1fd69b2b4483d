import Stencil.Proofs.Expr.Grammar
import Stencil.Proofs.Expr.Steps
/-!
# Readers that are exact

A reader is *exact* for a phrase within a limit of levels if it reads what the grammar derives and nothing else
(`TokenReader.Exact`): what it reads off is a derivation, and of a derivation it reads all tokens, provided that none
stands next that would make it go on (`Ends`).

The five kinds of operators are read by the same loop.  What a loop takes in is *chained* (`Chained`): an operand, and
then any number of rounds, each a token that starts a round and another operand.
-/
namespace Stencil

open Grammar

/-! ## What makes a reader go on -/

/-- How loosely a symbol binds what comes before it; as loosely as can be if it cannot come after an operand. -/
def Symbol.looseness : Symbol → Nat
  | .dot | .openBracket => 0
  | .star | .slash | .percent => 1
  | .plus | .minus => 2
  | .equal | .notEqual | .less | .lessEqual | .greater | .greaterEqual => 3
  | .coalesce => 4
  | .and => 5
  | .or => 6
  | .question => 7
  | .colon | .bang | .openParen | .closeParen | .closeBracket => 8

def Phrase.looseness : Phrase → Nat
  | .primary | .unary => 0
  | .product => 1
  | .sum => 2
  | .comparison => 3
  | .choices | .coalesce => 4
  | .conjunction => 5
  | .disjunction => 6
  | .ternary => 7

/-- The token that stands next, if any, is too loose for a phrase to take in. -/
def Ends (p : Phrase) (next : Option Token) : Prop := ∀ s, next = some (.symbol s) → p.looseness < s.looseness

theorem Ends.mono {p q : Phrase} {next : Option Token} (h : Ends p next) (hq : q.looseness ≤ p.looseness) :
    Ends q next := fun s hs => Nat.lt_of_le_of_lt hq (h s hs)

theorem ends_symbol {p : Phrase} {s : Symbol} (h : p.looseness < s.looseness) : Ends p (some (.symbol s)) := by
  intro s' hs
  cases hs
  exact h

namespace Grammar

theorem Chain.looseness_lt {p q : Phrase} (h : Chain p q) : q.looseness < p.looseness := by
  cases h <;> decide

theorem Chain.operand_eq {p q q' : Phrase} (h : Chain p q) (h' : Chain p q') : q' = q := by
  cases h <;> cases h' <;> rfl

theorem Operator.looseness_eq {p : Phrase} {s : Symbol} {node : Expr → Expr → Expr} (h : Operator p s node) :
    s.looseness = p.looseness := by
  cases h <;> rfl

theorem Comparison.looseness_eq {s : Symbol} {op : CompareOp} (h : Comparison s op) :
    s.looseness = Phrase.comparison.looseness := by
  cases h <;> rfl

end Grammar

/-! ## Exact readers -/

namespace TokenReader

/-- **A reader reads just what derives a phrase** within a limit of levels. -/
structure Exact (reader : TokenReader Expr) (p : Phrase) (limit : Nat) : Prop where
  sound : ∀ {c d : Cursor} {e : Expr}, c.operators ≤ maxOperators → reader.run c = .ok (e, d) →
    ∃ depth n ts, depth < limit ∧ Derives p depth n ts e ∧ c.Steps n ts d
  complete : ∀ {c d : Cursor} {depth n : Nat} {ts : List Token} {e : Expr}, Derives p depth n ts e → depth < limit →
    c.Steps n ts d → Ends p d.head? → reader.run c = .ok (e, d)

theorem exact_fail {p : Phrase} {limit : Nat} (fault : Fault)
    (h : ∀ {depth n ts e}, Derives p depth n ts e → limit ≤ depth) : (fail fault).Exact p limit where
  sound := by
    intro c d e _ hr
    cases hr
  complete := by
    intro c d depth n ts e hd hlt
    exact absurd (h hd) (Nat.not_le.2 hlt)

/-! ## Loops of operands -/

theorem exists_of_run_counted {operand : TokenReader Expr} {c d : Cursor} {e : Expr}
    (h : (do let right ← operand; count; return right : TokenReader Expr).run c = .ok (e, d)) :
    ∃ u, operand.run c = .ok (e, u) ∧ u.Steps 1 [] d := by
  obtain ⟨right, u, ho, h⟩ := Reader.exists_of_run_bind h
  obtain ⟨_, v, hc, h⟩ := Reader.exists_of_run_bind h
  cases h
  exact ⟨u, ho, steps_of_run_count hc⟩

theorem run_counted {operand : TokenReader Expr} {c u d : Cursor} {e : Expr} (ho : operand.run c = .ok (e, u))
    (hu : u.Steps 1 [] d) : (do let right ← operand; count; return right : TokenReader Expr).run c = .ok (e, d) := by
  rw [Reader.run_bind_ok ho, Reader.run_bind_ok (run_count hu)]
  rfl

section Chained

variable {β γ : Type} (q : Phrase) (starts : Token → Option β) (combine : γ → β → Expr → γ) (start : Expr → γ)

/-- What a loop takes in: the tokens of a first operand, and then of any number of rounds. -/
inductive Chained : Nat → Nat → List Token → γ → Prop
  | first {d n : Nat} {ts : List Token} {e : Expr} (h : Derives q d n ts e) : Chained d n ts (start e)
  | round {d d' n n' : Nat} {ts us : List Token} {t : Token} {b : β} {g : γ} {e : Expr} (hg : Chained d n ts g)
      (hb : starts t = some b) (h : Derives q d' n' us e) :
      Chained (max d d') (n + (n' + 1)) (ts ++ t :: us) (combine g b e)

def chain (operand : TokenReader Expr) : TokenReader γ := do
  let first ← operand
  Reader.loop (opening starts) (fun _ => do let right ← operand; count; return right) combine (start first)

variable {q starts combine start} {operand : TokenReader Expr} {limit : Nat}

theorem chained_of_run_chain (hq : operand.Exact q limit) {c d : Cursor} {g : γ} (hc : c.operators ≤ maxOperators)
    (h : (chain starts combine start operand).run c = .ok (g, d)) :
    ∃ depth n ts, depth < limit ∧ Chained q starts combine start depth n ts g ∧ c.Steps n ts d := by
  obtain ⟨first, s, hf, hl⟩ := Reader.exists_of_run_bind h
  obtain ⟨depth, n, ts, hlt, hd, hs⟩ := hq.sound hc hf
  refine Reader.loopFrom_invariant
    (P := fun g s => ∃ depth n ts, depth < limit ∧ Chained q starts combine start depth n ts g ∧ c.Steps n ts s)
    ?_ ⟨depth, n, ts, hlt, .first hd, hs⟩ hl
  -- one round more: the token, the operand and its count go to the end of what was read
  rintro g b e s t v ⟨depth, n, ts, hlt, hg, hs⟩ ho hi
  obtain ⟨token, hb, hh, ht⟩ := exists_of_opening ho
  obtain ⟨u, he, hu⟩ := exists_of_run_counted hi
  have htoken := Cursor.Steps.of_tail hs.operators_le hh ht
  obtain ⟨depth', n', us, hlt', hd', hus⟩ := hq.sound htoken.operators_le he
  have hround := hs.trans (htoken.trans (hus.trans hu))
  simp only [List.append_nil, Nat.zero_add, List.singleton_append] at hround
  exact ⟨max depth depth', _, _, Nat.max_lt.2 ⟨hlt, hlt'⟩, .round hg hb hd', hround⟩

theorem run_chain_eq_loopFrom (hq : operand.Exact q limit)
    (hstarts : ∀ {t b}, starts t = some b → Ends q (some t)) {depth n : Nat} {ts : List Token} {g : γ}
    (h : Chained q starts combine start depth n ts g) : ∀ {c d : Cursor}, depth < limit → c.Steps n ts d →
      Ends q d.head? → (chain starts combine start operand).run c = Reader.loopFrom (opening starts)
        (fun _ => do let right ← operand; count; return right) combine g d := by
  induction h with
  | first h =>
    intro c d hlt hs hend
    rw [chain, Reader.run_bind_ok (hq.complete h hlt hs hend)]
    rfl
  | round hg hb h ih =>
    intro c d hlt hs hend
    obtain ⟨hlt, hlt'⟩ := Nat.max_lt.1 hlt
    obtain ⟨s, hs, hround⟩ := hs.split
    obtain ⟨hh, t, ht, hus⟩ := hround.cons
    obtain ⟨u, hus, hu⟩ := hus.split_counted
    have hendu : Ends q u.head? := by rw [← hu.head?_eq]; exact hend
    rw [ih hlt hs (by rw [hh]; exact hstarts hb)]
    exact Reader.loopFrom_of_round (run_opening hb hh ht) (run_counted (hq.complete h hlt' hus hendu) hu)

/-- **What is chained is read by a loop**, up to a token that starts no round. -/
theorem run_chain (hq : operand.Exact q limit) (hstarts : ∀ {t b}, starts t = some b → Ends q (some t))
    {depth n : Nat} {ts : List Token} {g : γ} (h : Chained q starts combine start depth n ts g) {c d : Cursor}
    (hlt : depth < limit) (hs : c.Steps n ts d) (hend : Ends q d.head?)
    (hstop : ∀ t, d.head? = some t → starts t = none) :
    (chain starts combine start operand).run c = .ok (g, d) := by
  rw [run_chain_eq_loopFrom hq hstarts h hlt hs hend]
  exact Reader.loopFrom_of_none (opening_eq_none hstop)

end Chained

end TokenReader
end Stencil
