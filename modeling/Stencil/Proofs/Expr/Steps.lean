import Stencil.Expr.Cursor
/-!
# Steps over tokens

`Feed.tokens?` is all tokens of a source, if none is faulty.  A cursor *steps* over tokens when they stand next and
nothing faulty follows one of them; on the way some operators are counted, and never too many (`Cursor.Steps`).  The
readers that take single tokens do just such steps.
-/
namespace Stencil

/-! ## Loops -/

namespace Reader

variable {σ ε α β γ : Type} {size : σ → Nat}

theorem exists_of_run_bind {r : Reader size ε α} {f : α → Reader size ε β} {s u : σ} {b : β}
    (h : (r >>= f).run s = .ok (b, u)) : ∃ a t, r.run s = .ok (a, t) ∧ (f a).run t = .ok (b, u) := by
  rw [run_bind] at h
  split at h
  · cases h
  · rename_i a t hr; exact ⟨a, t, hr, h⟩

theorem run_bind_ok {r : Reader size ε α} {f : α → Reader size ε β} {s t : σ} {a : α} (h : r.run s = .ok (a, t)) :
    (r >>= f).run s = (f a).run t := by
  rw [run_bind, h]

theorem run_bind_error {r : Reader size ε α} {f : α → Reader size ε β} {s : σ} {e : ε} (h : r.run s = .error e) :
    (r >>= f).run s = .error e := by
  rw [run_bind, h]

variable {opening : Opening size ε β} {item : β → Reader size ε α} {combine : γ → β → α → γ}

theorem loopFrom_of_none {acc : γ} {s : σ} (h : opening.run s = none) :
    loopFrom opening item combine acc s = .ok (acc, s) := by
  rw [loopFrom]
  split
  · rfl
  · rename_i h'; rw [h] at h'; cases h'
  · rename_i h'; rw [h] at h'; cases h'

theorem loopFrom_of_fault {acc : γ} {s : σ} {e : ε} (h : opening.run s = some (.error e)) :
    loopFrom opening item combine acc s = .error e := by
  rw [loopFrom]
  split
  · rename_i h'; rw [h] at h'; cases h'
  · rename_i h'; rw [h] at h'; cases h'; rfl
  · rename_i h'; rw [h] at h'; cases h'

theorem loopFrom_of_round {acc : γ} {s t u : σ} {b : β} {a : α} (ho : opening.run s = some (.ok (b, t)))
    (hi : (item b).run t = .ok (a, u)) :
    loopFrom opening item combine acc s = loopFrom opening item combine (combine acc b a) u := by
  rw [loopFrom]
  split
  · rename_i h'; rw [ho] at h'; cases h'
  · rename_i h'; rw [ho] at h'; cases h'
  · rename_i b' t' h'
    rw [ho] at h'
    cases h'
    split
    · rename_i hi'; rw [hi] at hi'; cases hi'
    · rename_i hi'; rw [hi] at hi'; cases hi'; rfl

theorem loopFrom_of_error {acc : γ} {s t : σ} {b : β} {e : ε} (ho : opening.run s = some (.ok (b, t)))
    (hi : (item b).run t = .error e) : loopFrom opening item combine acc s = .error e := by
  rw [loopFrom]
  split
  · rename_i h'; rw [ho] at h'; cases h'
  · rename_i h'; rw [ho] at h'; cases h'
  · rename_i b' t' h'
    rw [ho] at h'
    cases h'
    split
    · rename_i hi'; rw [hi] at hi'; cases hi'; rfl
    · rename_i hi'; rw [hi] at hi'; cases hi'

/-- **What holds before a loop and is kept by every round holds after it.** -/
theorem loopFrom_invariant {P : γ → σ → Prop} {acc g : γ} {s u : σ}
    (hstep : ∀ {g b a s t u}, P g s → opening.run s = some (.ok (b, t)) → (item b).run t = .ok (a, u) →
      P (combine g b a) u) (h : P acc s) (hr : loopFrom opening item combine acc s = .ok (g, u)) : P g u := by
  fun_induction loopFrom opening item combine acc s with
  | case1 => cases hr; exact h
  | case2 => cases hr
  | case3 => cases hr
  | case4 acc s b t ho a v hi ih => exact ih (hstep h ho hi) hr

end Reader

/-! ## Feeds -/

namespace Feed

def tokens? : Feed → Option (List Token)
  | .done _ => some []
  | .broken _ => none
  | .next token _ rest => rest.tokens?.map (token :: ·)

/-- The tokens stand next, no fault follows one of them, and another feed comes after them. -/
def Gives : Feed → List Token → Feed → Prop
  | f, [], g => f = g
  | f, t :: ts, g => ∃ rest, f.head? = some t ∧ f.tail = .ok rest ∧ Gives rest ts g

theorem gives_append : ∀ {f : Feed} {ts us : List Token} {g : Feed},
    f.Gives (ts ++ us) g ↔ ∃ m, f.Gives ts m ∧ m.Gives us g
  | f, [], us, g => ⟨fun h => ⟨f, rfl, h⟩, fun ⟨_, hm, h⟩ => hm ▸ h⟩
  | f, t :: ts, us, g => by
    constructor
    · rintro ⟨rest, hh, ht, h⟩
      obtain ⟨m, hm, h⟩ := gives_append.1 h
      exact ⟨m, ⟨rest, hh, ht, hm⟩, h⟩
    · rintro ⟨m, ⟨rest, hh, ht, hm⟩, h⟩
      exact ⟨rest, hh, ht, gives_append.2 ⟨m, hm, h⟩⟩

theorem sound_of_tail {f g : Feed} (h : f.tail = .ok g) : g.sound = .ok g := by
  cases f with
  | next token stop rest =>
    have hg : g = rest := eq_of_sound h
    subst hg
    exact h
  | done p => cases h; rfl
  | broken e => cases h

theorem Gives.sound : ∀ {f : Feed} {ts : List Token} {g : Feed}, f.Gives ts g → f.sound = .ok f → g.sound = .ok g
  | f, [], g, h, hf => by cases h; exact hf
  | f, t :: ts, g, h, _ => by
    obtain ⟨rest, -, ht, h⟩ := h
    exact h.sound (sound_of_tail ht)

/-- **A source has tokens exactly if it can be gone through**, from a sound start to an end. -/
theorem tokens?_eq_some_iff : ∀ {f : Feed} {ts : List Token},
    f.tokens? = some ts ↔ f.sound = .ok f ∧ ∃ g, f.Gives ts g ∧ g.sound = .ok g ∧ g.head? = none
  | .done p, ts => by
    constructor
    · intro h
      cases h
      exact ⟨rfl, _, rfl, rfl, rfl⟩
    · rintro ⟨-, g, hg, -⟩
      cases ts with
      | nil => rfl
      | cons t ts => obtain ⟨rest, hh, -⟩ := hg; cases hh
  | .broken e, ts => by
    constructor
    · intro h; cases h
    · rintro ⟨h, -⟩; cases h
  | .next t stop rest, ts => by
    constructor
    · intro h
      obtain ⟨us, hus, rfl⟩ := Option.map_eq_some_iff.1 h
      obtain ⟨hsound, g, hg, hend⟩ := tokens?_eq_some_iff.1 hus
      exact ⟨rfl, g, ⟨rest, rfl, hsound, hg⟩, hend⟩
    · rintro ⟨-, g, hg, hend⟩
      cases ts with
      | nil => cases hg; cases hend.2
      | cons u us =>
        obtain ⟨rest', hh, ht, hg⟩ := hg
        cases hh
        have hrest : rest' = rest := eq_of_sound ht
        subst hrest
        exact Option.map_eq_some_iff.2 ⟨us, tokens?_eq_some_iff.2 ⟨ht, g, hg, hend⟩, rfl⟩

end Feed

/-! ## Cursors -/

namespace Cursor

/-- Going over the tokens leads from the first place to the second, and the operators counted on the way are not too
many. -/
structure Steps (c : Cursor) (operators : Nat) (ts : List Token) (d : Cursor) : Prop where
  gives : c.feed.Gives ts d.feed
  operators_eq : d.operators = c.operators + operators
  operators_le : d.operators ≤ maxOperators

namespace Steps

theorem refl {c : Cursor} (h : c.operators ≤ maxOperators) : c.Steps 0 [] c := ⟨rfl, rfl, h⟩

theorem trans {c d e : Cursor} {m n : Nat} {ts us : List Token} (h : c.Steps m ts d) (h' : d.Steps n us e) :
    c.Steps (m + n) (ts ++ us) e :=
  ⟨Feed.gives_append.2 ⟨_, h.gives, h'.gives⟩, by rw [h'.operators_eq, h.operators_eq, Nat.add_assoc], h'.operators_le⟩

theorem split {c e : Cursor} {m n : Nat} {ts us : List Token} (h : c.Steps (m + n) (ts ++ us) e) :
    ∃ d, c.Steps m ts d ∧ d.Steps n us e := by
  obtain ⟨f, hts, hus⟩ := Feed.gives_append.1 h.gives
  have heq := h.operators_eq
  have hle := h.operators_le
  exact ⟨⟨f, c.operators + m⟩, ⟨hts, rfl, by simp only; omega⟩, hus, by simp only; omega, hle⟩

theorem split_counted {c e : Cursor} {n : Nat} {ts : List Token} (h : c.Steps (n + 1) ts e) :
    ∃ d, c.Steps n ts d ∧ d.Steps 1 [] e := by
  rw [← List.append_nil ts] at h
  exact h.split

theorem of_tail {c d : Cursor} {t : Token} (hc : c.operators ≤ maxOperators) (hh : c.head? = some t)
    (ht : c.tail = .ok d) : c.Steps 0 [t] d := by
  obtain ⟨feed, hf, rfl⟩ := ok_of_map_ok ht
  exact ⟨⟨feed, hh, hf, rfl⟩, rfl, hc⟩

theorem head?_eq {c d : Cursor} {n : Nat} (h : c.Steps n [] d) : d.head? = c.head? := by
  rw [Cursor.head?, Cursor.head?, h.gives]

theorem eq_of_nil {c d : Cursor} (h : c.Steps 0 [] d) : c = d := by
  obtain ⟨hfeed, heq, -⟩ := h
  cases c
  cases d
  cases hfeed
  cases heq
  rfl

theorem cons {c d : Cursor} {n : Nat} {t : Token} {ts : List Token} (h : c.Steps n (t :: ts) d) :
    c.head? = some t ∧ ∃ e, c.tail = .ok e ∧ e.Steps n ts d := by
  obtain ⟨rest, hh, ht, hrest⟩ := h.gives
  refine ⟨hh, { c with feed := rest }, ?_, hrest, h.operators_eq, h.operators_le⟩
  rw [Cursor.tail, ht]; rfl

end Steps
end Cursor

namespace TokenReader

variable {α β : Type}

theorem run_head_bind (f : Option Token → TokenReader α) (c : Cursor) : (head >>= f).run c = (f c.head?).run c := rfl

theorem run_advance {c d : Cursor} (h : c.tail = .ok d) : advance.run c = .ok ((), d) := by
  show c.tail.map _ = _
  rw [h]
  rfl

theorem run_advance_bind {c d : Cursor} (f : TokenReader α) (h : c.tail = .ok d) :
    (advance >>= fun _ => f).run c = f.run d :=
  Reader.run_bind_ok (run_advance h)

theorem tail_of_run_advance {c d : Cursor} {u : Unit} (h : advance.run c = .ok (u, d)) : c.tail = .ok d := by
  obtain ⟨e, he, hd⟩ := ok_of_map_ok h
  cases hd
  exact he

theorem steps_of_run_expect {c d : Cursor} {s : Symbol} {u : Unit} (hc : c.operators ≤ maxOperators)
    (h : (expect s).run c = .ok (u, d)) : c.Steps 0 [.symbol s] d := by
  rw [expect, run_head_bind] at h
  split at h
  · rename_i hs
    exact .of_tail hc hs (tail_of_run_advance h)
  · cases h

theorem run_expect {c d : Cursor} {s : Symbol} (hh : c.head? = some (.symbol s)) (ht : c.tail = .ok d) :
    (expect s).run c = .ok ((), d) := by
  rw [expect, run_head_bind, if_pos hh]
  exact run_advance ht

theorem steps_of_run_count {c d : Cursor} {u : Unit} (h : count.run c = .ok (u, d)) : c.Steps 1 [] d := by
  simp only [count] at h
  split at h
  · cases h
  · rename_i hle
    cases h
    exact ⟨rfl, rfl, Nat.le_of_not_lt hle⟩

theorem run_count {c d : Cursor} (h : c.Steps 1 [] d) : count.run c = .ok ((), d) := by
  obtain ⟨hfeed, heq, hle⟩ := h
  have hd : d = { c with operators := c.operators + 1 } := by
    cases d; cases hfeed; rw [← heq]
  subst hd
  simp only [count, if_neg (Nat.not_lt.2 hle)]

theorem opening_eq_none {starts : Token → Option β} {c : Cursor} (h : ∀ t, c.head? = some t → starts t = none) :
    (opening starts).run c = none := by
  simp only [opening, Option.map_eq_none_iff, Option.bind_eq_none_iff]
  exact h

theorem exists_of_opening {starts : Token → Option β} {c d : Cursor} {b : β}
    (h : (opening starts).run c = some (.ok (b, d))) : ∃ t, starts t = some b ∧ c.head? = some t ∧ c.tail = .ok d := by
  obtain ⟨b', hb, ht⟩ := Option.map_eq_some_iff.1 h
  obtain ⟨t, hc, hs⟩ := Option.bind_eq_some_iff.1 hb
  obtain ⟨e, he, hd⟩ := ok_of_map_ok ht
  cases hd
  exact ⟨t, hs, hc, he⟩

theorem run_opening {starts : Token → Option β} {c d : Cursor} {b : β} {t : Token} (hs : starts t = some b)
    (hh : c.head? = some t) (ht : c.tail = .ok d) : (opening starts).run c = some (.ok (b, d)) := by
  simp only [opening, hh, Option.bind_some, hs, Option.map_some, ht, Except.map]

end TokenReader
end Stencil
