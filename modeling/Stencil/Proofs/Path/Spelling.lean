import Stencil.Path.Lookup
/-!
# Spelling paths

A list of segments can be written as a path in many ways: each segment bare, in brackets as it stands, or quoted in
brackets, where the quote and the backslash stand behind a backslash (`Writes`, `Spells`).  Splitting the path gives the
segments back, whichever way each of them is written (`segments_of_spells`).

So a path can be written to every value that is nested in another: what an address of keys and indexes leads to
(`Value.Leads`) is what the path leads to, if no key of the outermost value reads like the whole path.
-/
namespace Stencil

theorem Text.run_append {p : Char → Bool} {s u : List Char} (hs : ∀ c ∈ s, p c = true)
    (hu : ∀ c, u.head? = some c → p c = false) : (s ++ u).takeWhile p = s ∧ (s ++ u).dropWhile p = u := by
  rw [List.takeWhile_append_of_pos hs, List.dropWhile_append_of_pos hs]
  cases u with
  | nil => exact ⟨List.append_nil s, rfl⟩
  | cons d u => simp [hu d rfl]

namespace Path

/-! ## Writing segments -/

def escaped (quote : Char) (s : List Char) : List Char :=
  s.flatMap fun c => if c = quote ∨ c = '\\' then ['\\', c] else [c]

/-- The ways to write a segment, as the first of a path or behind others. -/
inductive Writes (first : Bool) : String → List Char → Prop
  | bare {s : String} (hne : s ≠ "") (h : ∀ c ∈ s.toList, c ≠ '.' ∧ c ≠ '[') :
      Writes first s (if first then s.toList else '.' :: s.toList)
  | unquoted {s : String} (hclose : ']' ∉ s.toList) (hquote : s.toList.head? ≠ some '"' ∧ s.toList.head? ≠ some '\'') :
      Writes first s ('[' :: (s.toList ++ [']']))
  | quoted {s : String} {quote : Char} (hq : quote = '"' ∨ quote = '\'') :
      Writes first s ('[' :: quote :: (escaped quote s.toList ++ [quote, ']']))

inductive Spells : Bool → List String → List Char → Prop
  | nil {first : Bool} : Spells first [] []
  | cons {first : Bool} {s : String} {rest : List String} {t u : List Char} (h : Writes first s t)
      (hrest : Spells false rest u) : Spells first (s :: rest) (t ++ u)

theorem exists_spells : ∀ (first : Bool) (segments : List String), ∃ t, Spells first segments t
  | _, [] => ⟨_, .nil⟩
  | _, _ :: rest =>
    have ⟨_, hu⟩ := exists_spells false rest
    ⟨_, .cons (.quoted (.inl rfl)) hu⟩

/-! ## Splitting what is written -/

theorem segmentsFrom_nil : segmentsFrom [] = [] := by rw [segmentsFrom]

theorem segmentsFrom_dot (s : List Char) : segmentsFrom ('.' :: s) = segmentsFrom s := by
  rw [segmentsFrom, if_pos rfl]

theorem segmentsFrom_bracket {s name left : List Char} (h : bracketed s = (name, left)) :
    segmentsFrom ('[' :: s) = name :: segmentsFrom left := by
  rw [segmentsFrom, if_neg (by decide), if_pos rfl, h]

theorem segmentsFrom_bare {s u : List Char} (hne : s ≠ []) (h : ∀ c ∈ s, isBare c = true)
    (hu : ∀ c, u.head? = some c → isBare c = false) : segmentsFrom (s ++ u) = s :: segmentsFrom u := by
  cases s with
  | nil => exact absurd rfl hne
  | cons c s =>
    obtain ⟨hc, hs⟩ := List.forall_mem_cons.1 h
    simp only [isBare, ne_eq, decide_not, Bool.and_eq_true, Bool.not_eq_true', decide_eq_false_iff_not] at hc
    obtain ⟨htake, hdrop⟩ := Text.run_append hs hu
    rw [List.cons_append, segmentsFrom, if_neg hc.1, if_neg hc.2, htake, hdrop]

theorem afterBracket_append {s : List Char} (h : ']' ∉ s) (left : List Char) :
    afterBracket (s ++ ']' :: left) = left := by
  have hs : ∀ c ∈ s, decide (c ≠ ']') = true := fun c hc => decide_eq_true fun e => h (e ▸ hc)
  rw [afterBracket, List.dropWhile_append_of_pos hs, List.dropWhile_cons]
  rfl

theorem unquoted_append {s : List Char} (h : ']' ∉ s) (left : List Char) : unquoted (s ++ ']' :: left) = (s, left) := by
  have hs : ∀ c ∈ s, decide (c ≠ ']') = true := fun c hc => decide_eq_true fun e => h (e ▸ hc)
  rw [unquoted, afterBracket_append h, List.takeWhile_append_of_pos hs, List.takeWhile_cons]
  simp

theorem bracketed_unquoted {s : List Char} (h : ']' ∉ s) (hq : s.head? ≠ some '"' ∧ s.head? ≠ some '\'')
    (left : List Char) : bracketed (s ++ ']' :: left) = (s, left) := by
  have hread : bracketed (s ++ ']' :: left) = unquoted (s ++ ']' :: left) := by
    cases s with
    | nil => rfl
    | cons c s =>
      simp only [List.head?_cons, ne_eq, Option.some.injEq] at hq
      unfold bracketed
      split
      · rename_i he; exact absurd (List.cons.inj he).1 hq.1
      · rename_i he; exact absurd (List.cons.inj he).1 hq.2
      · rfl
  rw [hread, unquoted_append h]

theorem quoted_escaped {quote : Char} (hq : quote ≠ '\\') (left : List Char) : ∀ s : List Char,
    quoted quote (escaped quote s ++ quote :: ']' :: left) = (s, left)
  | [] => by
    rw [escaped, List.flatMap_nil, List.nil_append, quoted, if_pos rfl]
    exact congrArg _ (afterBracket_append List.not_mem_nil left)
  | c :: s => by
    -- behind `c`, escaped or not, the reader stands before the rest of the name
    have ih := quoted_escaped hq left s
    unfold escaped at ih ⊢
    rw [List.flatMap_cons]
    by_cases hc : c = quote ∨ c = '\\'
    · rw [if_pos hc, List.append_assoc, List.cons_append, List.singleton_append, quoted, if_neg hq.symm, if_pos rfl]
      simp only [ih]
    · obtain ⟨hcq, hcb⟩ := not_or.1 hc
      rw [if_neg hc, List.append_assoc, List.singleton_append, quoted.eq_def]
      simp only [if_neg hcq, if_neg hcb, ih]

theorem bracketed_quoted {quote : Char} (hq : quote = '"' ∨ quote = '\'') (s left : List Char) :
    bracketed (quote :: (escaped quote s ++ quote :: ']' :: left)) = (s, left) := by
  rcases hq with rfl | rfl
  · exact quoted_escaped (by decide) left s
  · exact quoted_escaped (by decide) left s

/-- **A written segment is split off**, if what follows does not go on with a bare name. -/
theorem Writes.segmentsFrom_append {first : Bool} {s : String} {t u : List Char} (h : Writes first s t)
    (hu : ∀ c, u.head? = some c → isBare c = false) : segmentsFrom (t ++ u) = s.toList :: segmentsFrom u := by
  cases h with
  | bare hne h =>
    have hne' : s.toList ≠ [] := fun e => hne (String.toList_eq_nil_iff.1 e)
    have hbare : ∀ c ∈ s.toList, isBare c = true := fun c hc => by simpa [isBare] using h c hc
    cases first with
    | true => exact segmentsFrom_bare hne' hbare hu
    | false =>
      rw [if_neg (by decide), List.cons_append, segmentsFrom_dot]
      exact segmentsFrom_bare hne' hbare hu
  | unquoted hclose hquote =>
    rw [List.cons_append, List.append_assoc, List.singleton_append]
    exact segmentsFrom_bracket (bracketed_unquoted hclose hquote u)
  | quoted hq =>
    rw [List.cons_append, List.cons_append, List.append_assoc, List.cons_append, List.singleton_append]
    exact segmentsFrom_bracket (bracketed_quoted hq s.toList u)

theorem Spells.isBare_head {segments : List String} {u : List Char} (h : Spells false segments u) :
    ∀ c, u.head? = some c → isBare c = false := by
  cases h with
  | nil => exact fun c hc => nomatch hc
  | cons h =>
    intro c hc
    cases h with
    | bare => cases hc; decide
    | unquoted => cases hc; decide
    | quoted => cases hc; decide

theorem Spells.segmentsFrom_eq {first : Bool} {segments : List String} {t : List Char} (h : Spells first segments t) :
    segmentsFrom t = segments.map String.toList := by
  induction h with
  | nil => exact segmentsFrom_nil
  | cons h hrest ih => rw [h.segmentsFrom_append hrest.isBare_head, ih, List.map_cons]

theorem Writes.head_ne_dot {s : String} {t : List Char} (h : Writes true s t) : ∃ c rest, t = c :: rest ∧ c ≠ '.' := by
  cases h with
  | bare hne h =>
    rw [if_pos rfl]
    cases hs : s.toList with
    | nil => exact absurd (String.toList_eq_nil_iff.1 hs) hne
    | cons c rest => exact ⟨c, rest, rfl, (h c (by rw [hs]; exact List.mem_cons_self)).1⟩
  | unquoted => exact ⟨_, _, rfl, by decide⟩
  | quoted => exact ⟨_, _, rfl, by decide⟩

theorem Spells.head?_ne_dot {segments : List String} {t : List Char} (h : Spells true segments t) :
    t.head? ≠ some '.' := by
  cases h with
  | nil => exact fun h => nomatch h
  | cons h =>
    obtain ⟨c, rest, rfl, hc⟩ := h.head_ne_dot
    exact fun he => hc (Option.some.inj he)

/-- **Splitting a path gives back the segments that it was written with.** -/
theorem segments_of_spells {names : List String} {path : String} (h : Spells true names path.toList) :
    segments path = names := by
  have hmap : names.map (String.ofList ∘ String.toList) = names := by simp [Function.comp_def]
  rw [segments, if_neg h.head?_ne_dot, List.nil_append, h.segmentsFrom_eq, List.map_map, hmap]

/-! ## Decimal indexes -/

structure IsDecimal (s : String) (n : Nat) : Prop where
  ne_nil : s.toList ≠ []
  isDigit : ∀ c ∈ s.toList, c.isDigit = true
  value : Nat.ofDigitChars 10 s.toList 0 = n

theorem isDecimal_toString (n : Nat) : IsDecimal (toString n) n := by
  rw [Nat.toString_eq_repr]
  refine ⟨?_, ?_, ?_⟩
  · rw [Nat.toList_repr]; exact Nat.toDigits_ne_nil
  · rw [Nat.toList_repr]; exact fun c hc => Nat.isDigit_of_mem_toDigits (by decide) (by decide) hc
  · rw [Nat.toList_repr]; exact Nat.ofDigitChars_toDigits (by decide) (by decide)

theorem digitsValue?_eq_ofDigitChars : ∀ {s : List Char} (n : Nat), (∀ c ∈ s, c.isDigit = true) →
    digitsValue? n s = some (Nat.ofDigitChars 10 s n)
  | [], n, _ => by rw [digitsValue?, Nat.ofDigitChars_nil]
  | c :: s, n, h => by
    obtain ⟨hc, hs⟩ := List.forall_mem_cons.1 h
    rw [digitsValue?, digit?, if_pos hc, Option.bind_some, digitsValue?_eq_ofDigitChars _ hs, Nat.ofDigitChars_cons]

theorem index?_of_isDecimal {s : String} {n : Nat} (h : IsDecimal s n) (hn : n < 2 ^ 64) : index? s = some n := by
  have hempty : s.toList.isEmpty = false := List.isEmpty_eq_false_iff.2 h.ne_nil
  have hvalue : (digitsValue? 0 s.toList).filter (· < 2 ^ 64) = some n := by
    rw [digitsValue?_eq_ofDigitChars 0 h.isDigit, h.value, Option.filter_some, if_pos (decide_eq_true hn)]
  unfold index?
  simp only
  split
  · rename_i rest he
    exact absurd (h.isDigit '+' (by rw [he]; exact List.mem_cons_self)) (by decide)
  · rw [hempty, if_neg (by decide), hvalue]

end Path

/-! ## Addresses -/

namespace Value

/-- An address of keys and decimal indexes leads from a value to one that is nested in it. -/
inductive Leads : Value → List String → Value → Prop
  | here {v : Value} : Leads v [] v
  | key {es : List (String × Value)} {key : String} {v w : Value} {rest : List String}
      (h : Entries.get? es key = some v) (hrest : Leads v rest w) : Leads (.object es) (key :: rest) w
  | index {items : List Value} {text : String} {i : Nat} {v w : Value} {rest : List String}
      (ht : Path.IsDecimal text i) (hi : i < 2 ^ 64) (h : items[i]? = some v) (hrest : Leads v rest w) :
      Leads (.array items) (text :: rest) w

theorem Leads.follow?_eq {v w : Value} {address : List String} (h : Leads v address w) : v.follow? address = some w := by
  induction h with
  | here => rfl
  | key h hrest ih => rw [follow?, child?, h, Option.bind_some, ih]
  | index ht hi h hrest ih => rw [follow?, child?, Path.index?_of_isDecimal ht hi, Option.bind_some, h, Option.bind_some, ih]

/-- **A path leads where its segments do**, if no key of the outermost value reads like the whole path. -/
theorem get?_of_leads {v w : Value} {address : List String} {path : String}
    (hpath : Path.Spells true address path.toList) (hne : address ≠ []) (h : v.Leads address w) :
    v.get? path = (v.entry? path).or (some w) := by
  have hnonempty : ¬ path.isEmpty = true := by
    intro he
    rw [String.isEmpty_iff.1 he] at hpath
    have hmap := hpath.segmentsFrom_eq
    rw [String.toList_empty, Path.segmentsFrom_nil] at hmap
    exact hne (List.map_eq_nil_iff.1 hmap.symm)
  have hdescend : v.descend? (Path.segments path) = some w := by
    rw [Path.segments_of_spells hpath, descend?, if_neg (by simpa using hne), h.follow?_eq]
  rw [get?, if_neg hnonempty, hdescend]

end Value

namespace Path

/-- **Every nested value has a path.**  Every list of segments can be written, and whichever way each of them is written,
splitting the path gives the list back.  The path leads to what is nested at that address; only an entry whose key reads
like the whole path comes before it. -/
theorem segments_spells (names : List String) : (∃ path : String, Spells true names path.toList) ∧
    ∀ path : String, Spells true names path.toList → segments path = names ∧
      ∀ v w : Value, names ≠ [] → v.Leads names w →
        (v.entry? path = none → v.get? path = some w) ∧ (∀ u, v.entry? path = some u → v.get? path = some u) := by
  constructor
  · obtain ⟨t, ht⟩ := exists_spells true names
    exact ⟨String.ofList t, by rwa [String.toList_ofList]⟩
  intro path hpath
  refine ⟨segments_of_spells hpath, fun v w hne hleads => ?_⟩
  rw [Value.get?_of_leads hpath hne hleads]
  constructor
  · intro hentry
    rw [hentry, Option.none_or]
  · intro u hu
    rw [hu, Option.some_or]

/-- All four ways to write a segment, and an index, an empty key and a key with a quote. -/
theorem segments_spells_mixed : segments "a[0].b[]['it\\'s']" = ["a", "0", "b", "", "it's"] ∧
    (Value.object [("a", .array [.object [("b", .object [("", .object [("it's", .bool true)])])]])]).get?
      "a[0].b[]['it\\'s']" = some (.bool true) := by
  have hpath : "a[0].b[]['it\\'s']".toList = "a".toList ++ ('[' :: ("0".toList ++ [']']) ++ ('.' :: "b".toList ++
      ('[' :: ("".toList ++ [']']) ++ ('[' :: '\'' :: (escaped '\'' "it's".toList ++ ['\'', ']']) ++ [])))) := by decide
  have hspells : Spells true ["a", "0", "b", "", "it's"] "a[0].b[]['it\\'s']".toList := by
    rw [hpath]
    exact .cons (.bare (by decide) (by simp)) (.cons (.unquoted (by decide) (by decide))
      (.cons (.bare (by decide) (by simp)) (.cons (.unquoted (by decide) (by decide))
        (.cons (.quoted (.inr rfl)) .nil))))
  obtain ⟨hsegments, hleads⟩ := (segments_spells ["a", "0", "b", "", "it's"]).2 _ hspells
  refine ⟨hsegments, (hleads _ (.bool true) (by decide) ?_).1 rfl⟩
  exact .key rfl (.index (isDecimal_toString 0) (by decide) rfl (.key rfl (.key rfl (.key rfl .here))))

end Path
end Stencil
