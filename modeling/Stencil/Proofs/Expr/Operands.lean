import Stencil.Proofs.Expr.Operators
/-!
# Operands

Literals, paths and parentheses, the signs before them, and the ternary that a parenthesis encloses.  Given readers that
are exact with some levels left, the readers of these are exact with one level more.
-/
namespace Stencil.TokenReader

open Grammar

/-! ## Paths -/

theorem literal?_eq_some_iff {t : Token} {v : Value} : literal? t = some v ↔ Literal t v := by
  constructor
  · intro h
    cases t with
    | name s => cases h
    | symbol s => cases h
    | _ => cases h; constructor
  · intro h
    cases h <;> rfl

/-- **A round of a path, unpacked:** the opening and the rest of a segment. -/
theorem segment_of_run {c s d : Cursor} {step : PathStep} {name : String} (hc : c.operators ≤ maxOperators)
    (ho : (opening pathStep?).run c = some (.ok (step, s))) (hr : (segment step).run s = .ok (name, d)) :
    ∃ ts, Segment ts name ∧ c.Steps 0 ts d := by
  obtain ⟨t, hstep, hh, ht⟩ := exists_of_opening ho
  have hopening := Cursor.Steps.of_tail hc hh ht
  cases step with
  | field =>
    rw [segment, run_head_bind] at hr
    split at hr
    · rename_i found hfound
      obtain ⟨u, hu, hname⟩ := Option.bind_eq_some_iff.1 hfound
      obtain ⟨_, e, ha, hr⟩ := Reader.exists_of_run_bind hr
      cases hr
      have hall := hopening.trans (.of_tail hopening.operators_le hu (tail_of_run_advance ha))
      have hdot : t = .symbol .dot := by
        unfold pathStep? at hstep
        split at hstep <;> first | rfl | cases hstep
      subst hdot
      cases u <;> cases hname
      · exact ⟨_, .name _, hall⟩
      · exact ⟨_, .position _ _, hall⟩
    · cases hr
  | bracket =>
    rw [segment, run_head_bind] at hr
    split at hr
    · rename_i found hfound
      obtain ⟨u, hu, hkey⟩ := Option.bind_eq_some_iff.1 hfound
      obtain ⟨_, e, ha, hr⟩ := Reader.exists_of_run_bind hr
      obtain ⟨_, f, hx, hr⟩ := Reader.exists_of_run_bind hr
      cases hr
      have hinside := hopening.trans (.of_tail hopening.operators_le hu (tail_of_run_advance ha))
      have hall := hinside.trans (steps_of_run_expect hinside.operators_le hx)
      have hbracket : t = .symbol .openBracket := by
        unfold pathStep? at hstep
        split at hstep <;> first | rfl | cases hstep
      subst hbracket
      cases u <;> cases hkey
      · exact ⟨_, .index _ _, hall⟩
      · exact ⟨_, .key _, hall⟩
    · cases hr

theorem run_segment {ts : List Token} {name : String} (h : Segment ts name) {c d : Cursor} (hs : c.Steps 0 ts d) :
    ∃ step s, (opening pathStep?).run c = some (.ok (step, s)) ∧ (segment step).run s = .ok (name, d) := by
  have hinside : ∀ {t u : Token} {us : List Token}, ts = t :: u :: us → ∃ s e, c.head? = some t ∧ c.tail = .ok s ∧
      s.head? = some u ∧ s.tail = .ok e ∧ e.Steps 0 us d := by
    rintro t u us rfl
    obtain ⟨hh, s, ht, hs⟩ := hs.cons
    obtain ⟨hu, e, he, hus⟩ := hs.cons
    exact ⟨s, e, hh, ht, hu, he, hus⟩
  obtain hdot | hbracket : (∃ u, ts = [.symbol .dot, u] ∧ fieldName? u = some name) ∨
      ∃ u, ts = [.symbol .openBracket, u, .symbol .closeBracket] ∧ bracketKey? u = some name := by
    cases h with
    | name s => exact .inl ⟨_, rfl, rfl⟩
    | position n fits => exact .inl ⟨_, rfl, rfl⟩
    | index n fits => exact .inr ⟨_, rfl, rfl⟩
    | key s => exact .inr ⟨_, rfl, rfl⟩
  · obtain ⟨u, hts, hname⟩ := hdot
    obtain ⟨s, e, hh, ht, hu, he, hend⟩ := hinside hts
    refine ⟨.field, s, run_opening rfl hh ht, ?_⟩
    rw [segment, run_head_bind, hu, Option.bind_some, hname]
    simp only
    rw [run_advance_bind _ he, hend.eq_of_nil]
    rfl
  · obtain ⟨u, hts, hkey⟩ := hbracket
    obtain ⟨s, e, hh, ht, hu, he, hrest⟩ := hinside hts
    obtain ⟨hclose, f, hf, hend⟩ := hrest.cons
    refine ⟨.bracket, s, run_opening rfl hh ht, ?_⟩
    rw [segment, run_head_bind, hu, Option.bind_some, hkey]
    simp only
    rw [run_advance_bind _ he, Reader.run_bind_ok (run_expect hclose hf), hend.eq_of_nil]
    rfl

def segmentsFrom (root : String) : TokenReader (List String) :=
  Reader.loop (opening pathStep?) segment (fun path _ s => path ++ [s]) [root]

theorem path_of_run {c s d : Cursor} {root : String} {segments : List String} (hs : c.Steps 0 [.name root] s)
    (hr : (segmentsFrom root).run s = .ok (segments, d)) : ∃ ts, Path ts segments ∧ c.Steps 0 ts d := by
  refine Reader.loopFrom_invariant (P := fun segments s => ∃ ts, Path ts segments ∧ c.Steps 0 ts s) ?_
    ⟨_, .root root, hs⟩ hr
  rintro path step name s t u ⟨ts, hpath, hs⟩ ho hi
  obtain ⟨us, hsegment, hus⟩ := segment_of_run hs.operators_le ho hi
  exact ⟨_, .segment hpath hsegment, hs.trans hus⟩

theorem run_segments_eq_loopFrom {ts : List Token} {segments : List String} (h : Path ts segments) :
    ∀ {c d : Cursor}, c.Steps 0 ts d → ∃ root s, c.head? = some (.name root) ∧ c.tail = .ok s ∧
      (segmentsFrom root).run s
        = Reader.loopFrom (opening pathStep?) segment (fun path _ s => path ++ [s]) segments d := by
  induction h with
  | root name =>
    intro c d hs
    obtain ⟨hh, s, ht, hend⟩ := hs.cons
    cases hend.eq_of_nil
    exact ⟨name, _, hh, ht, rfl⟩
  | segment h hsegment ih =>
    intro c d hs
    obtain ⟨u, hu, hrest⟩ := Cursor.Steps.split (m := 0) (n := 0) hs
    obtain ⟨root, s, hh, ht, hloop⟩ := ih hu
    obtain ⟨step, v, ho, hi⟩ := run_segment hsegment hrest
    exact ⟨root, s, hh, ht, hloop.trans (Reader.loopFrom_of_round ho hi)⟩

theorem run_path {ts : List Token} {segments : List String} (h : Path ts segments) {c d : Cursor}
    (hs : c.Steps 0 ts d) (hend : Ends .primary d.head?) :
    ∃ root s, c.head? = some (.name root) ∧ c.tail = .ok s ∧ (segmentsFrom root).run s = .ok (segments, d) := by
  obtain ⟨root, s, hh, ht, hloop⟩ := run_segments_eq_loopFrom h hs
  refine ⟨root, s, hh, ht, ?_⟩
  rw [hloop]
  refine Reader.loopFrom_of_none (opening_eq_none fun t hnext => ?_)
  unfold pathStep?
  split
  · exact absurd (hend _ hnext) (by decide)
  · exact absurd (hend _ hnext) (by decide)
  · rfl

/-! ## Primaries and signs -/

variable {deeper nested conditions : TokenReader Expr} {limit : Nat}

/-- **The reader of literals, paths and parentheses is exact** if that of what parentheses enclose is. -/
theorem Exact.primary (h : nested.Exact .ternary (limit + 1)) :
    (TokenReader.primary nested).Exact .primary (limit + 1) where
  sound := by
    intro c d e hc hr
    rw [TokenReader.primary, run_head_bind] at hr
    split at hr
    · rename_i v hv
      obtain ⟨t, hh, hlit⟩ := Option.bind_eq_some_iff.1 hv
      obtain ⟨_, s, ha, hr⟩ := Reader.exists_of_run_bind hr
      cases hr
      exact ⟨0, 0, [t], Nat.succ_pos _, .literal (literal?_eq_some_iff.1 hlit), .of_tail hc hh (tail_of_run_advance ha)⟩
    · split at hr
      · rename_i hh
        obtain ⟨_, s, ha, hr⟩ := Reader.exists_of_run_bind hr
        obtain ⟨e', t, hn, hr⟩ := Reader.exists_of_run_bind hr
        obtain ⟨_, u, hx, hr⟩ := Reader.exists_of_run_bind hr
        cases hr
        have hopen := Cursor.Steps.of_tail hc hh (tail_of_run_advance ha)
        obtain ⟨depth, n, ts, hlt, hd, hs⟩ := h.sound hopen.operators_le hn
        have hall := hopen.trans (hs.trans (steps_of_run_expect hs.operators_le hx))
        rw [Nat.zero_add] at hall
        exact ⟨depth, n, _, hlt, .paren hd, hall⟩
      · rename_i root hh
        obtain ⟨_, s, ha, hr⟩ := Reader.exists_of_run_bind hr
        obtain ⟨segments, u, hp, hr⟩ := Reader.exists_of_run_bind hr
        cases hr
        obtain ⟨ts, hpath, hs⟩ := path_of_run (.of_tail hc hh (tail_of_run_advance ha)) hp
        exact ⟨0, 0, ts, Nat.succ_pos _, .path hpath, hs⟩
      · cases hr
  complete := by
    intro c d depth n ts e hd hlt hs hend
    rw [TokenReader.primary, run_head_bind]
    cases hd with
    | operand hp => cases hp
    | operator hp => cases hp
    | literal hlit =>
      obtain ⟨hh, s, ht, hend⟩ := hs.cons
      rw [hh, Option.bind_some, literal?_eq_some_iff.2 hlit]
      simp only
      rw [run_advance_bind _ ht, hend.eq_of_nil]
      rfl
    | path hpath =>
      obtain ⟨root, s, hh, ht, hsegments⟩ := run_path hpath hs hend
      rw [hh]
      show (advance >>= fun _ => segmentsFrom root >>= fun segments => pure (Expr.path segments)).run c = _
      rw [run_advance_bind _ ht, Reader.run_bind_ok hsegments]
      rfl
    | paren hd =>
      obtain ⟨hh, s, ht, hrest⟩ := hs.cons
      obtain ⟨t, hinside, hclose⟩ := Cursor.Steps.split (n := 0) hrest
      obtain ⟨hc, u, hu, hend⟩ := hclose.cons
      have hends : Ends .ternary t.head? := by
        rw [hc]
        exact ends_symbol (by decide)
      rw [hh]
      show (advance >>= fun _ => nested >>= fun e => expect .closeParen >>= fun _ => pure e).run c = _
      rw [run_advance_bind _ ht, Reader.run_bind_ok (h.complete hd hlt hinside hends),
        Reader.run_bind_ok (run_expect hc hu), hend.eq_of_nil]
      rfl

theorem head?_ne_sign_of_primary {c d : Cursor} {depth n : Nat} {ts : List Token} {e : Expr}
    (h : Derives .primary depth n ts e) (hs : c.Steps n ts d) :
    c.head? ≠ some (.symbol .minus) ∧ c.head? ≠ some (.symbol .bang) := by
  cases h with
  | operand hp => cases hp
  | operator hp => cases hp
  | literal hlit =>
    obtain ⟨hh, -⟩ := hs.cons
    rw [hh]
    cases hlit <;> simp
  | path hpath =>
    obtain ⟨root, s, hh, -⟩ := run_segments_eq_loopFrom hpath hs
    rw [hh]
    simp
  | paren h =>
    obtain ⟨hh, -⟩ := hs.cons
    rw [hh]
    simp

theorem exists_of_run_sign {sign : Symbol} {node : Expr → Expr} {c d : Cursor} {e : Expr}
    (h : deeper.Exact .unary limit) (hc : c.operators ≤ maxOperators) (hh : c.head? = some (.symbol sign))
    (hr : (do advance; return node (← deeper) : TokenReader Expr).run c = .ok (e, d)) :
    ∃ depth n ts operand, depth < limit ∧ Derives .unary depth n ts operand ∧ node operand = e ∧
      c.Steps n (.symbol sign :: ts) d := by
  obtain ⟨_, s, ha, hr⟩ := Reader.exists_of_run_bind hr
  obtain ⟨operand, t, hn, hr⟩ := Reader.exists_of_run_bind hr
  cases hr
  have hsign := Cursor.Steps.of_tail hc hh (tail_of_run_advance ha)
  obtain ⟨depth, n, ts, hlt, hd, hs⟩ := h.sound hsign.operators_le hn
  have hall := hsign.trans hs
  rw [Nat.zero_add] at hall
  exact ⟨depth, n, ts, operand, hlt, hd, rfl, hall⟩

theorem run_sign {sign : Symbol} {node : Expr → Expr} {c d : Cursor} {depth n : Nat} {ts : List Token} {e : Expr}
    (h : deeper.Exact .unary limit) (hd : Derives .unary depth n ts e) (hlt : depth < limit)
    (hs : c.Steps n (.symbol sign :: ts) d) (hend : Ends .unary d.head?) :
    (do advance; return node (← deeper) : TokenReader Expr).run c = .ok (node e, d) := by
  obtain ⟨-, s, ht, hs⟩ := hs.cons
  rw [run_advance_bind _ ht, Reader.run_bind_ok (h.complete hd hlt hs hend)]
  rfl

/-- **The reader of signs is exact** with one level more than the reader of what they stand before. -/
theorem Exact.unary (hdeeper : deeper.Exact .unary limit) (hnested : nested.Exact .ternary (limit + 1)) :
    (TokenReader.unary deeper nested).Exact .unary (limit + 1) where
  sound := by
    intro c d e hc hr
    rw [TokenReader.unary, run_head_bind] at hr
    split at hr
    · rename_i hh
      obtain ⟨depth, n, ts, operand, hlt, hd, rfl, hs⟩ := exists_of_run_sign hdeeper hc hh hr
      exact ⟨depth + 1, n, _, Nat.succ_lt_succ hlt, .negate hd, hs⟩
    · rename_i hh
      obtain ⟨depth, n, ts, operand, hlt, hd, rfl, hs⟩ := exists_of_run_sign hdeeper hc hh hr
      exact ⟨depth + 1, n, _, Nat.succ_lt_succ hlt, .not hd, hs⟩
    · obtain ⟨depth, n, ts, hlt, hd, hs⟩ := hnested.primary.sound hc hr
      exact ⟨depth, n, ts, hlt, .primary hd, hs⟩
  complete := by
    intro c d depth n ts e hd hlt hs hend
    cases hd with
    | operand hp => cases hp
    | operator hp => cases hp
    | primary hd =>
      have hfirst := head?_ne_sign_of_primary hd hs
      rw [TokenReader.unary, run_head_bind]
      split
      · rename_i hh; exact absurd hh hfirst.1
      · rename_i hh; exact absurd hh hfirst.2
      · exact hnested.primary.complete hd hlt hs hend
    | negate hd =>
      rw [TokenReader.unary, run_head_bind, hs.cons.1]
      exact run_sign hdeeper hd (Nat.lt_of_succ_lt_succ hlt) hs hend
    | not hd =>
      rw [TokenReader.unary, run_head_bind, hs.cons.1]
      exact run_sign hdeeper hd (Nat.lt_of_succ_lt_succ hlt) hs hend

end Stencil.TokenReader
