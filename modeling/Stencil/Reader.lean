/-!
# Readers

A reader takes something off the front of a source and gives what it means, or fails.  A source is whatever has a size:
the characters of a text or the tokens of an expression.  A reader comes with the law that it never leaves more than it
found.  `Reader.loop` rests on that law: it goes on as long as an opening stands next, and since every opening takes
something off the source, it ends.
-/
namespace Stencil

theorem ok_of_map_ok {ε α β : Type} {x : Except ε α} {f : α → β} {b : β} (h : x.map f = .ok b) :
    ∃ a, x = .ok a ∧ f a = b := by
  cases x with
  | error e => cases h
  | ok a => exact ⟨a, rfl, Except.ok.inj h⟩

/-- What can be read off a source of type `σ`, which `size` measures. -/
structure Reader {σ : Type} (size : σ → Nat) (ε α : Type) where
  run : σ → Except ε (α × σ)
  size_le : ∀ {s t : σ} {a : α}, run s = .ok (a, t) → size t ≤ size s

namespace Reader

variable {σ ε α β γ : Type} {size : σ → Nat}

def pure (a : α) : Reader size ε α where
  run s := .ok (a, s)
  size_le h := by cases h; exact Nat.le_refl _

def bind (r : Reader size ε α) (f : α → Reader size ε β) : Reader size ε β where
  run s :=
    match r.run s with
    | .error e => .error e
    | .ok (a, t) => (f a).run t
  size_le {s u b} h := by
    split at h
    · cases h
    · rename_i a t hr
      exact Nat.le_trans ((f a).size_le h) (r.size_le hr)

instance : Monad (Reader size ε) where
  pure := pure
  bind := bind

@[ext] theorem ext {r s : Reader size ε α} (h : ∀ c, r.run c = s.run c) : r = s := by
  cases r; cases s; congr; exact funext h

theorem run_pure (a : α) (s : σ) : (Pure.pure a : Reader size ε α).run s = .ok (a, s) := rfl

theorem run_bind (r : Reader size ε α) (f : α → Reader size ε β) (s : σ) :
    (r >>= f).run s = match r.run s with
      | .error e => .error e
      | .ok (a, t) => (f a).run t := rfl

def failWith (error : σ → ε) : Reader size ε α where
  run s := .error (error s)
  size_le h := by cases h

def look (f : σ → α) : Reader size ε α where
  run s := .ok (f s, s)
  size_le h := by cases h; exact Nat.le_refl _

/-- What starts a round of a loop: it may stand next or not, may fail, and takes something off the source. -/
structure Opening {σ : Type} (size : σ → Nat) (ε β : Type) where
  run : σ → Option (Except ε (β × σ))
  size_lt : ∀ {s t : σ} {b : β}, run s = some (.ok (b, t)) → size t < size s

/-- Starting from `acc`: while an opening stands next, reads it and the item that belongs to it and takes that in. -/
def loopFrom (opening : Opening size ε β) (item : β → Reader size ε α) (combine : γ → β → α → γ) (acc : γ) (s : σ) :
    Except ε (γ × σ) :=
  match _ho : opening.run s with
  | none => .ok (acc, s)
  | some (.error e) => .error e
  | some (.ok (b, t)) =>
    match _hi : (item b).run t with
    | .error e => .error e
    | .ok (a, u) => loopFrom opening item combine (combine acc b a) u
termination_by size s
decreasing_by exact Nat.lt_of_le_of_lt ((item b).size_le (by assumption)) (opening.size_lt (by assumption))

theorem loopFrom_size (opening : Opening size ε β) (item : β → Reader size ε α) (combine : γ → β → α → γ) (acc : γ)
    (s : σ) : ∀ {g t}, loopFrom opening item combine acc s = .ok (g, t) → size t ≤ size s := by
  fun_induction loopFrom opening item combine acc s with
  | case1 => intro _ _ h; cases h; exact Nat.le_refl _
  | case2 => intro _ _ h; cases h
  | case3 => intro _ _ h; cases h
  | case4 acc s b t ho a u hi ih =>
    intro _ _ h
    exact Nat.le_trans (ih h) (Nat.le_trans ((item b).size_le hi) (Nat.le_of_lt (opening.size_lt ho)))

def loop (opening : Opening size ε β) (item : β → Reader size ε α) (combine : γ → β → α → γ) (acc : γ) :
    Reader size ε γ where
  run := loopFrom opening item combine acc
  size_le := loopFrom_size opening item combine acc _

end Reader
end Stencil
