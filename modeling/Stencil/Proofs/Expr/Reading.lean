import Stencil.Proofs.Expr.Steps
import Stencil.Expr.Parser
/-!
# How far a source is read

The items of a feed are its tokens and at last the end of the source or a fault.  A reader goes through some items and no
further: what comes after them does not matter to it, and a fault in place of any of them would be noticed
(`TokenReader.ReadsOn`).  When it fails, then at the last of them (`Feed.Notices`).  All readers of the grammar are like
that, since the ones that they are made of are and since what one reader leaves is what the next one goes through.

So of every feed just so many items are read (`Feed.ReadsJust`), a number that the feed determines (`ReadsJust.unique`), and
an error is one at the last of them (`exists_readsJust`).
-/
namespace Stencil

def Fault.isLexical : Fault → Bool
  | .loneEqual | .loneAmpersand | .loneBar | .unclosedString | .integerTooLarge _ | .strangeCharacter _ => true
  | _ => false

namespace Feed

/-- The first items of a feed and then another feed, unless the feed ends among them. -/
def keep (f : Feed) (n : Nat) (rest : Feed) : Feed :=
  match n, f with
  | 0, _ => rest
  | n + 1, .next token stop f => .next token stop (f.keep n rest)
  | _ + 1, .done position => .done position
  | _ + 1, .broken e => .broken e
termination_by structural n

/-- What comes after the first items of a feed; the last item stays. -/
def drop (f : Feed) (n : Nat) : Feed :=
  match n, f with
  | 0, f => f
  | n + 1, .next _ _ f => f.drop n
  | _ + 1, .done position => .done position
  | _ + 1, .broken e => .broken e
termination_by structural n

theorem keep_add (f : Feed) (m n : Nat) (rest : Feed) : f.keep (m + n) rest = f.keep m ((f.drop m).keep n rest) := by
  induction m generalizing f with
  | zero => rw [Nat.zero_add]; rfl
  | succ m ih =>
    rw [Nat.succ_add]
    cases f with
    | next token stop f => rw [keep, keep, drop, ih]
    | _ => rfl

theorem drop_add (f : Feed) (m n : Nat) : f.drop (m + n) = (f.drop m).drop n := by
  induction m generalizing f with
  | zero => rw [Nat.zero_add]; rfl
  | succ m ih =>
    rw [Nat.succ_add]
    cases f with
    | next token stop f => rw [drop, drop, ih]
    | _ => cases n <;> rfl

theorem head?_keep (f : Feed) (n : Nat) (rest : Feed) : (f.keep (n + 1) rest).head? = f.head? := by
  cases f <;> rfl

theorem position_keep (f : Feed) (n : Nat) (rest : Feed) : (f.keep (n + 1) rest).position = f.position := by
  cases f <;> rfl

theorem sound_keep {f : Feed} (h : f.sound = .ok f) (n : Nat) (rest : Feed) :
    (f.keep (n + 1) rest).sound = .ok (f.keep (n + 1) rest) := by
  cases f with
  | broken e => cases h
  | _ => rfl

/-- **An error at the first item of a feed**: the fault that the item is, or a fault of the grammar, with the place at which
the item ends and no context. -/
inductive Notices : Feed → SyntaxError → Prop
  | broken (e : SyntaxError) : Notices (.broken e) e
  | grammar {f : Feed} (hf : f.sound = .ok f) (fault : Fault) (h : fault.isLexical = false) :
      Notices f ⟨fault, f.position, ""⟩

end Feed

def Cursor.keep (c : Cursor) (n : Nat) (rest : Feed) : Cursor := { c with feed := c.feed.keep n rest }

namespace TokenReader

variable {α β : Type}

/-- **A reader goes some items on from a cursor**, besides the one that stands next.  A fault in place of one of them is
noticed, and beyond them nothing matters. -/
structure ReadsOn (r : TokenReader α) (c : Cursor) (n : Nat) : Prop where
  needed : ∀ k < n, ∀ e, r.run (c.keep (k + 1) (.broken e)) = .error e
  ok : ∀ a d, r.run c = .ok (a, d) → d.feed = c.feed.drop n ∧ d.feed.sound = .ok d.feed ∧
    ∀ rest, r.run (c.keep (n + 1) rest) = .ok (a, d.keep 1 rest)
  error : ∀ e, r.run c = .error e → (c.feed.drop n).Notices e ∧ ∀ rest, r.run (c.keep (n + 1) rest) = .error e

def Tracked (r : TokenReader α) : Prop := ∀ c : Cursor, c.feed.sound = .ok c.feed → ∃ n, r.ReadsOn c n

theorem ReadsOn.run_keep {r : TokenReader α} {c d : Cursor} {n : Nat} {a : α} (h : r.ReadsOn c n)
    (hr : r.run c = .ok (a, d)) (k : Nat) (rest : Feed) :
    r.run (c.keep (n + k + 1) rest) = .ok (a, d.keep (k + 1) rest) := by
  obtain ⟨hfeed, -, hkeep⟩ := h.ok a d hr
  have hc : c.keep (n + k + 1) rest = c.keep (n + 1) ((c.feed.drop (n + 1)).keep k rest) := by
    rw [Cursor.keep, Cursor.keep, ← Feed.keep_add, Nat.add_right_comm]
  have hd : d.keep 1 ((c.feed.drop (n + 1)).keep k rest) = d.keep (k + 1) rest := by
    rw [Cursor.keep, Cursor.keep, Feed.drop_add, ← hfeed, ← Feed.keep_add, Nat.add_comm]
  rw [hc, hkeep, hd]

/-- **One reader after another goes on as many items as both.** -/
theorem ReadsOn.bind {r : TokenReader α} {f : α → TokenReader β} {c : Cursor} {n : Nat} (h : r.ReadsOn c n)
    (hf : ∀ a d, r.run c = .ok (a, d) → d.feed.sound = .ok d.feed → ∃ m, (f a).ReadsOn d m) :
    ∃ m, (r >>= f).ReadsOn c m := by
  cases hr : r.run c with
  | error e =>
    refine ⟨n, fun k hk e' => Reader.run_bind_error (h.needed k hk e'), fun b d hb => ?_, fun e' he => ?_⟩
    · rw [Reader.run_bind_error hr] at hb
      cases hb
    · rw [Reader.run_bind_error hr] at he
      cases he
      obtain ⟨hnotices, hkeep⟩ := h.error e hr
      exact ⟨hnotices, fun rest => Reader.run_bind_error (hkeep rest)⟩
  | ok p =>
    obtain ⟨a, d⟩ := p
    obtain ⟨hfeed, hsound, -⟩ := h.ok a d hr
    obtain ⟨m, hm⟩ := hf a d hr hsound
    have hdrop : c.feed.drop (n + m) = d.feed.drop m := by rw [Feed.drop_add, hfeed]
    have hrun : ∀ k rest, (r >>= f).run (c.keep (n + k + 1) rest) = (f a).run (d.keep (k + 1) rest) :=
      fun k rest => Reader.run_bind_ok (h.run_keep hr k rest)
    refine ⟨n + m, fun k hk e => ?_, fun b d' hb => ?_, fun e he => ?_⟩
    · by_cases hkn : k < n
      · exact Reader.run_bind_error (h.needed k hkn e)
      · obtain ⟨j, rfl⟩ := Nat.exists_eq_add_of_le (Nat.le_of_not_lt hkn)
        rw [hrun]
        exact hm.needed j (by omega) e
    · rw [Reader.run_bind_ok hr] at hb
      obtain ⟨hfeed', hsound', hkeep⟩ := hm.ok b d' hb
      exact ⟨hdrop ▸ hfeed', hsound', fun rest => (hrun m rest).trans (hkeep rest)⟩
    · rw [Reader.run_bind_ok hr] at he
      obtain ⟨hnotices, hkeep⟩ := hm.error e he
      exact ⟨hdrop ▸ hnotices, fun rest => (hrun m rest).trans (hkeep rest)⟩

theorem Tracked.bind {r : TokenReader α} {f : α → TokenReader β} (h : Tracked r) (hf : ∀ a, Tracked (f a)) :
    Tracked (r >>= f) := fun c hc => by
  obtain ⟨n, hn⟩ := h c hc
  exact hn.bind fun a d _ hd => hf a d hd

/-! ## Single tokens -/

theorem readsOn_zero {r : TokenReader α} {c : Cursor} (hc : c.feed.sound = .ok c.feed)
    (hok : ∀ a d, r.run c = .ok (a, d) → d.feed = c.feed ∧ ∀ rest, r.run (c.keep 1 rest) = .ok (a, d.keep 1 rest))
    (herror : ∀ e, r.run c = .error e → c.feed.Notices e ∧ ∀ rest, r.run (c.keep 1 rest) = .error e) : r.ReadsOn c 0 where
  needed k hk := absurd hk (Nat.not_lt_zero k)
  ok a d h := by
    obtain ⟨hfeed, hkeep⟩ := hok a d h
    exact ⟨hfeed, hfeed ▸ hc, hkeep⟩
  error e h := herror e h

theorem tracked_pure (a : α) : Tracked (pure a : TokenReader α) := fun c hc => by
  refine ⟨0, readsOn_zero hc (fun b d h => ?_) fun e h => nomatch h⟩
  cases h
  exact ⟨rfl, fun rest => rfl⟩

theorem tracked_head : Tracked head := fun c hc => by
  refine ⟨0, readsOn_zero hc (fun b d h => ?_) fun e h => nomatch h⟩
  cases h
  refine ⟨rfl, fun rest => ?_⟩
  show Except.ok ((c.feed.keep 1 rest).head?, _) = _
  rw [Feed.head?_keep]
  rfl

theorem error_keep (fault : Fault) (c : Cursor) (rest : Feed) : (c.keep 1 rest).error fault = c.error fault := by
  rw [Cursor.error, Cursor.keep, Feed.position_keep]
  rfl

theorem tracked_fail {fault : Fault} (h : fault.isLexical = false) : Tracked (fail fault : TokenReader α) := fun c hc => by
  refine ⟨0, readsOn_zero hc (fun a d h => nomatch h) fun e he => ?_⟩
  cases he
  exact ⟨.grammar hc fault h, fun rest => congrArg Except.error (error_keep fault c rest)⟩

theorem tracked_count : Tracked count := fun c hc => by
  refine ⟨0, readsOn_zero hc (fun a d hd => ?_) fun e he => ?_⟩
  · simp only [count] at hd ⊢
    split at hd
    · cases hd
    · rename_i hle
      cases hd
      exact ⟨rfl, fun rest => if_neg hle⟩
  · simp only [count] at he ⊢
    split at he
    · rename_i hlt
      cases he
      exact ⟨.grammar hc _ rfl, fun rest => (if_pos hlt).trans (congrArg Except.error (error_keep _ c rest))⟩
    · cases he

theorem tracked_advance : Tracked advance := fun c hc => by
  obtain ⟨feed, operators⟩ := c
  cases feed with
  | broken e => cases hc
  | done position =>
    refine ⟨0, readsOn_zero hc (fun a d h => ?_) fun e h => nomatch h⟩
    cases h
    exact ⟨rfl, fun rest => rfl⟩
  | next token stop f =>
    have hneeded : ∀ k < 1, ∀ e, advance.run (Cursor.keep ⟨.next token stop f, operators⟩ (k + 1) (.broken e)) = .error e := by
      intro k hk e
      obtain rfl := Nat.lt_one_iff.1 hk
      rfl
    cases f with
    | broken e =>
      refine ⟨1, hneeded, fun a d h => (nomatch h), fun e' he => ?_⟩
      cases he
      exact ⟨.broken e, fun rest => rfl⟩
    | _ =>
      refine ⟨1, hneeded, fun a d h => ?_, fun e' he => nomatch he⟩
      cases h
      exact ⟨rfl, rfl, fun rest => rfl⟩

theorem tracked_expect (s : Symbol) : Tracked (expect s) := tracked_head.bind fun found => by
  split
  · exact tracked_advance
  · exact tracked_fail rfl

/-! ## Loops -/

theorem loop_eq {γ : Type} (starts : Token → Option β) (item : β → TokenReader α) (combine : γ → β → α → γ) (acc : γ) :
    Reader.loop (opening starts) item combine acc = head >>= fun found =>
      match found.bind starts with
      | none => pure acc
      | some b => advance >>= fun _ => item b >>= fun a => Reader.loop (opening starts) item combine (combine acc b a) := by
  ext c : 1
  rw [run_head_bind]
  show Reader.loopFrom (opening starts) item combine acc c = _
  cases hb : c.head?.bind starts with
  | none =>
    have ho : (opening starts).run c = none := by simp only [opening, hb, Option.map_none]
    rw [Reader.loopFrom_of_none ho]
    rfl
  | some b =>
    have ho : (opening starts).run c = some (c.tail.map (b, ·)) := by simp only [opening, hb, Option.map_some]
    show _ = (advance >>= _).run c
    rw [Reader.run_bind, advance]
    simp only
    cases ht : c.tail with
    | error e =>
      rw [ht] at ho
      rw [Reader.loopFrom_of_fault ho]
      rfl
    | ok d =>
      rw [ht] at ho
      show _ = (item b >>= _).run d
      cases hi : (item b).run d with
      | error e => rw [Reader.run_bind_error hi, Reader.loopFrom_of_error ho hi]
      | ok p => rw [Reader.run_bind_ok hi, Reader.loopFrom_of_round ho hi]; rfl

theorem tracked_loop {γ : Type} (starts : Token → Option β) {item : β → TokenReader α} (combine : γ → β → α → γ)
    (hitem : ∀ b, Tracked (item b)) (acc : γ) : Tracked (Reader.loop (opening starts) item combine acc) := by
  intro c hc
  induction hsize : c.size using Nat.strongRecOn generalizing c acc with
  | ind size ih =>
    rw [loop_eq]
    obtain ⟨n, hn⟩ := tracked_head c hc
    refine hn.bind fun found d hfound hd => ?_
    cases hfound
    cases hb : c.head?.bind starts with
    | none => exact tracked_pure acc c hc
    | some b =>
      obtain ⟨t, ht, -⟩ := Option.bind_eq_some_iff.1 hb
      obtain ⟨m, hm⟩ := tracked_advance c hc
      refine hm.bind fun _ d hadvance hd => ?_
      obtain ⟨k, hk⟩ := hitem b d hd
      refine hk.bind fun a e hitem he => ih e.size ?_ _ e he rfl
      have hlt := Cursor.size_tail_lt ht (tail_of_run_advance hadvance)
      have hle := (item b).size_le hitem
      omega

/-! ## The readers of the grammar -/

theorem Tracked.joined {ops : Symbol → Option β} {operand : TokenReader Expr} {combine : Expr → β → Expr → Expr}
    (h : Tracked operand) : Tracked (joined ops operand combine) :=
  h.bind fun first => tracked_loop _ _ (fun _ => h.bind fun right => tracked_count.bind fun _ => tracked_pure right) first

variable {reader deeper nested : TokenReader Expr}

theorem Tracked.sum (h : Tracked reader) : Tracked (TokenReader.sum reader) := h.joined.joined

theorem Tracked.comparison (h : Tracked reader) : Tracked (TokenReader.comparison reader) := by
  refine h.sum.bind fun left => tracked_head.bind fun found => ?_
  split
  · exact tracked_advance.bind fun _ => h.sum.bind fun right => tracked_pure _
  · exact tracked_pure left

theorem Tracked.coalesce (h : Tracked reader) : Tracked (TokenReader.coalesce reader) := by
  have hround : Tracked (do let right ← TokenReader.comparison reader; count; return right) :=
    h.comparison.bind fun right => tracked_count.bind fun _ => tracked_pure right
  exact h.comparison.bind fun first => (tracked_loop _ _ (fun _ => hround) [first]).bind fun es => tracked_pure _

theorem Tracked.disjunction (h : Tracked reader) : Tracked (TokenReader.disjunction reader) := h.coalesce.joined.joined

theorem Tracked.ternary (h : Tracked reader) (hnested : Tracked nested) : Tracked (TokenReader.ternary reader nested) := by
  refine h.disjunction.bind fun condition => tracked_head.bind fun found => ?_
  split
  · exact tracked_advance.bind fun _ => hnested.bind fun yes => (tracked_expect _).bind fun _ =>
      hnested.bind fun no => tracked_pure _
  · exact tracked_pure condition

theorem tracked_segment (step : PathStep) : Tracked (segment step) := by
  cases step with
  | field =>
    refine tracked_head.bind fun found => ?_
    split
    · exact tracked_advance.bind fun _ => tracked_pure _
    · exact tracked_fail rfl
  | bracket =>
    refine tracked_head.bind fun found => ?_
    split
    · exact tracked_advance.bind fun _ => (tracked_expect _).bind fun _ => tracked_pure _
    · exact tracked_fail rfl

theorem Tracked.primary (h : Tracked nested) : Tracked (TokenReader.primary nested) := by
  refine tracked_head.bind fun found => ?_
  split
  · exact tracked_advance.bind fun _ => tracked_pure _
  · split
    · exact tracked_advance.bind fun _ => h.bind fun e => (tracked_expect _).bind fun _ => tracked_pure e
    · exact tracked_advance.bind fun _ => (tracked_loop _ _ tracked_segment _).bind fun segments => tracked_pure _
    · exact tracked_fail rfl

theorem Tracked.unary (hdeeper : Tracked deeper) (hnested : Tracked nested) :
    Tracked (TokenReader.unary deeper nested) := by
  refine tracked_head.bind fun found => ?_
  split
  · exact tracked_advance.bind fun _ => hdeeper.bind fun e => tracked_pure _
  · exact tracked_advance.bind fun _ => hdeeper.bind fun e => tracked_pure _
  · exact hnested.primary

end TokenReader

open TokenReader

theorem Level.tracked_ofRoom : ∀ room : Nat, Tracked (Level.ofRoom room).unary ∧ Tracked (Level.ofRoom room).ternary
  | 0 => ⟨(tracked_fail rfl).unary (tracked_fail rfl), tracked_fail rfl⟩
  | room + 1 => by
    obtain ⟨hunary, hternary⟩ := Level.tracked_ofRoom room
    exact ⟨hunary.unary (hunary.ternary hternary), hunary.ternary hternary⟩

namespace Expr

theorem tracked_whole : Tracked whole := by
  refine (Level.tracked_ofRoom maxDepth).2.bind fun e => tracked_head.bind fun found => ?_
  split
  · exact tracked_pure e
  · exact tracked_fail rfl

/-! ## Whole sources -/

def parseFeed (feed : Feed) : Except SyntaxError Expr := do
  let feed ← feed.sound
  let (e, _) ← whole.run ⟨feed, 0⟩
  return e

theorem parse_eq_parseFeed (source : String) : parse source = parseFeed (Feed.ofSource source) := rfl

theorem parseFeed_of_sound {f : Feed} (h : f.sound = .ok f) : parseFeed f = (whole.run ⟨f, 0⟩).map Prod.fst := by
  rw [parseFeed, h]
  show (whole.run ⟨f, 0⟩ >>= fun p => pure p.1) = _
  cases whole.run ⟨f, 0⟩ <;> rfl

end Expr

namespace Feed

open Stencil.Expr

/-- **Parsing reads just the first items of a feed**: what comes after them does not matter, and a fault in place of any of
them would be the error. -/
structure ReadsJust (f : Feed) (n : Nat) : Prop where
  enough : ∀ rest, parseFeed (f.keep n rest) = parseFeed f
  needed : ∀ k < n, ∀ e, parseFeed (f.keep k (.broken e)) = .error e

theorem ReadsJust.le {f : Feed} {m n : Nat} (hm : f.ReadsJust m) (hn : f.ReadsJust n) : n ≤ m := by
  refine Nat.le_of_not_lt fun hlt => ?_
  have herror : ∀ e, parseFeed f = .error e := fun e => (hm.enough (.broken e)).symm.trans (hn.needed m hlt e)
  have heq := (herror ⟨.tooDeep, 0, ""⟩).symm.trans (herror ⟨.tooDeep, 1, ""⟩)
  cases heq

theorem ReadsJust.unique {f : Feed} {m n : Nat} (hm : f.ReadsJust m) (hn : f.ReadsJust n) : m = n :=
  Nat.le_antisymm (hn.le hm) (hm.le hn)

/-- **Of every feed some items are read, and an error is noticed at the last of them.** -/
theorem exists_readsJust (f : Feed) :
    ∃ n, f.ReadsJust (n + 1) ∧ ∀ e, parseFeed f = .error e → (f.drop n).Notices e := by
  cases hf : f.sound with
  | error e =>
    cases f with
    | broken e =>
      refine ⟨0, ⟨fun rest => rfl, fun k hk e' => ?_⟩, fun e' he => ?_⟩
      · obtain rfl := Nat.lt_one_iff.1 hk
        rfl
      · cases he
        exact .broken e
    | _ => cases hf
  | ok g =>
    obtain rfl := eq_of_sound hf
    obtain ⟨n, hn⟩ := tracked_whole ⟨g, 0⟩ hf
    refine ⟨n, ⟨fun rest => ?_, fun k hk e => ?_⟩, fun e he => ?_⟩
    · rw [parseFeed_of_sound (sound_keep hf n rest), parseFeed_of_sound hf]
      cases hr : whole.run ⟨g, 0⟩ with
      | error e => exact congrArg _ ((hn.error e hr).2 rest)
      | ok p =>
        have hkeep := (hn.ok _ _ hr).2.2 rest
        exact (congrArg (Except.map Prod.fst) hkeep :)
    · cases k with
      | zero => rfl
      | succ k =>
        rw [parseFeed_of_sound (sound_keep hf k _)]
        exact congrArg _ (hn.needed k (Nat.lt_of_succ_lt_succ hk) e)
    · rw [parseFeed_of_sound hf] at he
      cases hr : whole.run ⟨g, 0⟩ with
      | error e' =>
        rw [hr] at he
        cases he
        exact (hn.error _ hr).1
      | ok p => rw [hr] at he; cases he

end Feed
end Stencil
