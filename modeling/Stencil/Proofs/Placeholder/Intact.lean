import Mathlib
import Stencil.Proofs.Placeholder.Splicing
import Stencil.Proofs.Text.Puts
/-!
# What replacing leaves intact

Replacing the placeholders of a source one by one keeps what stands to the right of them, whatever texts are put in: the
first place that reads like a placeholder may lie in a text that was put in before, but never to the right of the
placeholder's own.  So before each replacement the text ends as the source does from the placeholder on
(`replaceAll_eq_append`).  To the left of the first placeholder nothing is replaced either, since the text there is quiet
before everything (`takeBytes_prefix_replaceAll`).
-/
namespace Stencil

open Text (dropBytes takeBytes byteLength)

theorem Text.exists_replaceFirst (old new a rest : List Char) : ∃ left right,
    a ++ (old ++ rest) = left ++ (old ++ right) ∧ Text.replaceFirst old new (a ++ (old ++ rest)) = left ++ (new ++ right) ∧
      rest <:+ right := by
  have hputs := Text.puts_replaceFirst old new (a ++ (old ++ rest))
  generalize hs : a ++ (old ++ rest) = s at hputs ⊢
  generalize Text.replaceFirst old new s = t at hputs ⊢
  cases hputs with
  | @first left right hfirst =>
    refine ⟨left, right, rfl, rfl, ?_⟩
    have hlen := hfirst a rest hs.symm
    have hall := congrArg List.length hs
    simp only [List.length_append] at hall
    have hrest : rest <:+ left ++ (old ++ right) := hs ▸ ⟨a ++ old, List.append_assoc ..⟩
    have hright : right <:+ left ++ (old ++ right) := ⟨left ++ old, List.append_assoc ..⟩
    exact List.suffix_of_suffix_length_le hrest hright (by omega)
  | absent hno => exact absurd ⟨a, rest, by rw [List.append_assoc, hs]⟩ hno

namespace Placeholder

theorem replaceAll_nil : ∀ (out : List Char) (ps : List Placeholder), replaceAll out ps [] = out
  | _, [] => rfl
  | _, _ :: _ => rfl

theorem replaceAll_append : ∀ (out : List Char) (before after : List Placeholder) (ts : List (List Char)),
    replaceAll out (before ++ after) ts = replaceAll (replaceAll out before ts) after (ts.drop before.length)
  | _, [], _, _ => rfl
  | _, _ :: _, _, [] => (replaceAll_nil ..).symm
  | _, _ :: before, after, _ :: ts => replaceAll_append _ before after ts

theorem text_ofBody (start : Nat) (body : List Char) : (ofBody start body).text.toList = written body :=
  String.toList_ofList

theorem exists_ofBody_of_mem_locate (start : Nat) (s : List Char) :
    ∀ p ∈ locate start (pieces s), ∃ first body, IsBody body ∧ p = ofBody first body := by
  fun_induction pieces s generalizing start with
  | case1 => exact fun _ hp => (List.not_mem_nil hp).elim
  | case2 c rest body left ho ih => exact List.forall_mem_cons.2 ⟨⟨start, body, isBody_of_opening ho, rfl⟩, ih _⟩
  | case3 c rest ho ih => exact ih _

/-! ## To the right -/

/-- **Before a placeholder is replaced the text ends as the source does from there on.**  Of the source `a ++ s` everything
up to `a` is done with, and `x` is what was made of it. -/
theorem replaceAll_eq_append (a x s : List Char) (ts : List (List Char)) {before after : List Placeholder} {p : Placeholder}
    (h : locate (byteLength a) (pieces s) = before ++ p :: after) (hlen : before.length ≤ ts.length) :
    dropBytes p.start (a ++ s) = p.text.toList ++ dropBytes p.stop (a ++ s) ∧
      ∃ y, replaceAll (x ++ s) before ts = y ++ dropBytes p.start (a ++ s) := by
  fun_induction pieces s generalizing a x ts before with
  | case1 => cases before <;> cases h
  | case2 c rest body left ho ih =>
    have hs := eq_of_opening ho
    have hstart : byteLength a + byteLength (written body) = byteLength (a ++ written body) :=
      (Text.byteLength_append ..).symm
    rw [locate, hstart] at h
    have hsource : a ++ c :: rest = (a ++ written body) ++ left := by rw [hs, List.append_assoc]
    cases before with
    | nil =>
      obtain ⟨rfl, -⟩ := List.cons.inj h
      have hdrop : dropBytes (byteLength a) (a ++ c :: rest) = c :: rest := Text.dropBytes_append ..
      have hstop : dropBytes (ofBody (byteLength a) body).stop (a ++ c :: rest) = left := by
        show dropBytes (byteLength a + byteLength (written body)) _ = left
        rw [hstart, hsource, Text.dropBytes_append]
      refine ⟨?_, x, ?_⟩
      · rw [hstop, text_ofBody, ← hs]
        exact hdrop
      · rw [replaceAll]
        exact congrArg (x ++ ·) hdrop.symm
    | cons q before =>
      obtain ⟨rfl, hrest⟩ := List.cons.inj h
      cases ts with
      | nil => cases hlen
      | cons t ts =>
        -- what the replacement makes still ends with all that stands behind the placeholder
        obtain ⟨l, r, -, hreplace, y, hy⟩ := Text.exists_replaceFirst (written body) t x left
        have hmade : Text.replaceFirst (written body) t (x ++ c :: rest) = (l ++ (t ++ y)) ++ left := by
          rw [hs, hreplace, ← hy]
          simp only [List.append_assoc]
        have hnext := ih (a ++ written body) (l ++ (t ++ y)) ts hrest (Nat.le_of_succ_le_succ hlen)
        rw [replaceAll, text_ofBody, hmade, hsource]
        exact hnext
  | case3 c rest ho ih =>
    have hstart : byteLength a + c.utf8Size = byteLength (a ++ [c]) := by
      rw [Text.byteLength_append, Text.byteLength_cons, Text.byteLength_nil, Nat.add_zero]
    have hsource : ∀ w : List Char, w ++ c :: rest = (w ++ [c]) ++ rest := fun w => by
      rw [List.append_assoc, List.singleton_append]
    rw [locate, hstart] at h
    rw [hsource a, hsource x]
    exact ih (a ++ [c]) (x ++ [c]) ts h hlen

section Source

variable {source : String} {ts : List (List Char)} {before after : List Placeholder} {p : Placeholder}

/-- **A placeholder is replaced once**: its text is found, and the first place that has it is given the new one. -/
theorem exists_replaced (h : scan source = before ++ p :: after) (hlen : before.length < ts.length) :
    ∃ t left right, ts[before.length]? = some t ∧
      replaceAll source.toList before ts = left ++ (p.text.toList ++ right) ∧
      replaceAll source.toList (before ++ [p]) ts = left ++ (t ++ right) ∧
      Text.Puts p.text.toList t (replaceAll source.toList before ts) (replaceAll source.toList (before ++ [p]) ts) ∧
      dropBytes p.stop source.toList <:+ right := by
  obtain ⟨htext, y, hy⟩ := replaceAll_eq_append [] [] source.toList ts h (Nat.le_of_lt hlen)
  rw [List.nil_append] at htext hy
  obtain ⟨t, us, hus⟩ : ∃ t us, ts.drop before.length = t :: us :=
    ⟨_, _, List.drop_eq_getElem_cons hlen⟩
  have ht : ts[before.length]? = some t := by
    rw [← List.head?_drop, hus]
    rfl
  have hmade : replaceAll source.toList (before ++ [p]) ts =
      Text.replaceFirst p.text.toList t (replaceAll source.toList before ts) := by
    rw [replaceAll_append, hus]
    rfl
  obtain ⟨l, r, hfound, hreplace, hright⟩ :=
    Text.exists_replaceFirst p.text.toList t y (dropBytes p.stop source.toList)
  rw [htext] at hy
  rw [← hy] at hfound hreplace
  refine ⟨t, l, r, ht, hfound, hmade.trans hreplace, ?_, hright⟩
  rw [hmade]
  exact Text.puts_replaceFirst ..

/-- **Behind the last placeholder nothing is replaced.** -/
theorem dropBytes_suffix_replaceAll (hlen : ts.length = (scan source).length) (hp : (scan source).getLast? = some p) :
    dropBytes p.stop source.toList <:+ replaceAll source.toList (scan source) ts := by
  obtain ⟨before, hlast⟩ := List.getLast?_eq_some_iff.1 hp
  have hshort : before.length < ts.length := by
    rw [hlen, hlast, List.length_append, List.length_singleton]
    exact Nat.lt_succ_self _
  obtain ⟨t, l, r, -, -, hmade, -, hright⟩ := exists_replaced hlast hshort
  rw [hlast, hmade]
  exact hright.trans ⟨l ++ t, List.append_assoc ..⟩

end Source

/-! ## To the left -/

theorem exists_leading {s : List Char} {start : Nat} {p : Placeholder} {ps : List Placeholder}
    (h : locate start (pieces s) = p :: ps) : ∃ a body left, IsBody body ∧ s = a ++ (written body ++ left) ∧
      Quiet a (written body ++ left) ∧ p.start = start + byteLength a := by
  fun_induction pieces s generalizing start with
  | case1 => cases h
  | case2 c rest body left ho ih =>
    obtain ⟨rfl, -⟩ := List.cons.inj h
    exact ⟨[], body, left, isBody_of_opening ho, eq_of_opening ho, trivial, rfl⟩
  | case3 c rest ho ih =>
    obtain ⟨a, body, left, hb, rfl, hq, hstart⟩ := ih h
    exact ⟨c :: a, body, left, hb, rfl, ⟨ho, hq⟩, by rw [hstart, Text.byteLength_cons, Nat.add_assoc]⟩

theorem replaceAll_append_of_inert {a : List Char} (ha : Inert a) : ∀ {ps : List Placeholder} (s : List Char)
    (ts : List (List Char)), (∀ p ∈ ps, ∃ body, IsBody body ∧ p.text.toList = written body) →
      replaceAll (a ++ s) ps ts = a ++ replaceAll s ps ts
  | [], _, _, _ => rfl
  | _ :: _, _, [], _ => rfl
  | p :: ps, s, t :: ts, h => by
    obtain ⟨⟨body, hb, hp⟩, hps⟩ := List.forall_mem_cons.1 h
    rw [replaceAll, replaceAll, hp, replaceFirst_append_of_quiet hb t s (ha.quiet s),
      replaceAll_append_of_inert ha _ ts hps]

theorem takeBytes_prefix_replaceAll {source : String} {p : Placeholder} (hp : (scan source).head? = some p)
    {before after : List Placeholder} (h : scan source = before ++ after) (ts : List (List Char)) :
    takeBytes p.start source.toList <+: replaceAll source.toList before ts := by
  obtain ⟨ps, hfirst⟩ := List.head?_eq_some_iff.1 hp
  obtain ⟨a, body, left, hb, hs, hq, hstart⟩ := exists_leading hfirst
  have hbodies : ∀ q ∈ before, ∃ body, IsBody body ∧ q.text.toList = written body := by
    intro q hq
    have hmem : q ∈ scan source := h ▸ List.mem_append_left after hq
    obtain ⟨first, body, hbody, rfl⟩ := exists_ofBody_of_mem_locate 0 source.toList q hmem
    exact ⟨body, hbody, text_ofBody first body⟩
  rw [Nat.zero_add] at hstart
  rw [hstart, hs, Text.takeBytes_append, replaceAll_append_of_inert (inert_of_quiet_written hb hq) _ ts hbodies]
  exact List.prefix_append ..

/-! ## Lengths -/

theorem byteLength_replaceAll {source : String} {ts : List (List Char)} (hlen : ts.length = (scan source).length) :
    ∀ {before after : List Placeholder}, scan source = before ++ after →
      byteLength (replaceAll source.toList before ts) + (before.map fun p => byteLength p.text.toList).sum =
        byteLength source.toList + ((ts.take before.length).map byteLength).sum := by
  intro before
  induction before using List.reverseRecOn with
  | nil => intro after _; simp [replaceAll]
  | append_singleton before p ih =>
    intro after h
    rw [List.append_assoc, List.singleton_append] at h
    have hshort : before.length < ts.length := by
      rw [hlen, h, List.length_append, List.length_cons]
      omega
    obtain ⟨t, l, r, ht, hfound, hmade, -, -⟩ := exists_replaced h hshort
    have hbefore := ih h
    have htake : ts.take (before ++ [p]).length = ts.take before.length ++ [t] := by
      rw [List.length_append, List.length_singleton, List.take_add_one, ht]
      rfl
    rw [hfound] at hbefore
    rw [hmade, htake]
    simp only [Text.byteLength_append, List.map_append, List.map_cons, List.map_nil, List.sum_append, List.sum_cons,
      List.sum_nil] at hbefore ⊢
    omega

end Placeholder
end Stencil
