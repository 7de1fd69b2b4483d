import Stencil.Proofs.Path.Spelling
import Stencil.Proofs.Placeholder.Spans
import Stencil.Proofs.Text.Trimming
/-!
# Writing placeholders

A parameter is written as its key between blanks, and if it has a default, as a colon, the default and more blanks behind
that (`Parameter.Writes`).  Reading what is written gives the parameter back (`parameterOf_of_writes`): only the blanks at
both ends and around the key are dropped, and the first colon is the one behind the key.  `scan_append_written` says where
in a text a placeholder is found.
-/
namespace Stencil

/-! ## Parameters -/

structure Parameter.IsKey (key : String) : Prop where
  colon : ':' ∉ key.toList
  left : Text.Flush key.toList
  right : Text.Flush key.toList.reverse

/-- The ways to write a parameter between the braces of a placeholder. -/
inductive Parameter.Writes : Parameter → List Char → Prop
  | key {key : String} {w u : List Char} (hkey : IsKey key) (hw : Text.AllBlank w) (hu : Text.AllBlank u) :
      Writes ⟨key, none⟩ (w ++ (key.toList ++ u))
  | withDefault {key default : String} {w u v : List Char} (hkey : IsKey key)
      (hdefault : Text.Flush default.toList.reverse) (hw : Text.AllBlank w) (hu : Text.AllBlank u)
      (hv : Text.AllBlank v) : Writes ⟨key, some default⟩ (w ++ (key.toList ++ u) ++ ':' :: (default.toList ++ v))

namespace Placeholder

theorem parameterOf_of_trim {body s : List Char} (h : Text.trim body = s) (hs : ':' ∉ s) :
    parameterOf body = ⟨String.ofList s, none⟩ := by
  have hdrop : s.dropWhile (· ≠ ':') = [] := by
    rw [List.dropWhile_eq_nil_iff]
    intro c hc
    exact decide_eq_true fun e => hs (e ▸ hc)
  unfold parameterOf
  simp only [h, hdrop]

theorem parameterOf_of_trim_colon {body s default : List Char} (h : Text.trim body = s ++ ':' :: default) (hs : ':' ∉ s) :
    parameterOf body = ⟨String.ofList (Text.trim s), some (String.ofList default)⟩ := by
  have hkey : ∀ c ∈ s, decide (c ≠ ':') = true := fun c hc => decide_eq_true fun e => hs (e ▸ hc)
  obtain ⟨htake, hdrop⟩ := Text.run_append hkey (u := ':' :: default) fun c hc => by cases hc; decide
  unfold parameterOf
  simp only [h, htake, hdrop]

theorem colon_not_mem {w s u : List Char} (hw : Text.AllBlank w) (hs : ':' ∉ s) (hu : Text.AllBlank u) :
    ':' ∉ w ++ (s ++ u) := by
  have hblank : ∀ {x : List Char}, Text.AllBlank x → ':' ∉ x := fun hx hm => absurd (hx _ hm) (by decide)
  simp [hblank hw, hs, hblank hu]

theorem parameterOf_of_writes {p : Parameter} {body : List Char} (h : p.Writes body) : parameterOf body = p := by
  cases h with
  | @key key w u hkey hw hu =>
    rw [parameterOf_of_trim (Text.trim_append hw hu hkey.left hkey.right) hkey.colon, String.ofList_toList]
  | @withDefault key default w u v hkey hdefault hw hu hv =>
    -- trimming stops at the colon on the left and at the default, or the colon, on the right
    have hflush : Text.Flush (Text.trimLeft (w ++ (key.toList ++ u)) ++ ':' :: default.toList).reverse := by
      intro c hc
      rw [List.reverse_append, List.reverse_cons, List.append_assoc] at hc
      cases hr : default.toList.reverse with
      | nil => rw [hr] at hc; cases hc; decide
      | cons d r => rw [hr] at hc; exact hdefault c (hr ▸ hc)
    have htrim : Text.trim (w ++ (key.toList ++ u) ++ ':' :: (default.toList ++ v)) =
        Text.trimLeft (w ++ (key.toList ++ u)) ++ ':' :: default.toList := by
      rw [Text.trim, Text.trimLeft_append_cons (by decide), ← List.cons_append, ← List.append_assoc,
        Text.trimRight_append hv hflush]
    have hcolon : ':' ∉ Text.trimLeft (w ++ (key.toList ++ u)) := fun hm =>
      colon_not_mem hw hkey.colon hu (List.dropWhile_subset _ hm)
    rw [parameterOf_of_trim_colon htrim hcolon, Text.trim_trimLeft, Text.trim_append hw hu hkey.left hkey.right,
      String.ofList_toList, String.ofList_toList]

/-! ## Placeholders in a text -/

theorem closesAtEnd_of_not_infix {a : List Char} (h : ¬ ['}', '}'] <:+: a) (hlast : a.getLast? ≠ some '}') :
    ClosesAtEnd a := by
  intro before after he
  rcases List.append_eq_append_iff.1 he with ⟨x, -, hx⟩ | ⟨x, rfl, hx⟩
  · -- the braces begin behind `a`
    have hlen := congrArg List.length hx
    simp only [List.length_append, List.length_cons, List.length_nil] at hlen
    exact List.length_eq_zero_iff.1 (by omega)
  · rcases x with _ | ⟨c, _ | ⟨d, x⟩⟩
    · exact (List.cons.inj (List.cons.inj hx).2).2
    · obtain ⟨rfl, -⟩ := List.cons.inj hx
      exact absurd (by simp) hlast
    · obtain ⟨rfl, htail⟩ := List.cons.inj hx
      obtain ⟨rfl, -⟩ := List.cons.inj htail
      exact absurd ⟨before, x, by simp⟩ h

/-- **A body of placeholder characters is well formed** if no two closing braces come before the ones behind it. -/
theorem wellFormed_of_not_infix {body : List Char} (hne : body ≠ []) (hchars : ∀ c ∈ body, isBodyChar c = true)
    (h : ¬ ['}', '}'] <:+: body) (hlast : body.getLast? ≠ some '}') : WellFormed body :=
  ⟨hne, hchars, fun before after _ => closesAtEnd_of_not_infix h hlast before after⟩

theorem pieces_written {body : List Char} (hb : WellFormed body) (left : List Char) :
    pieces (written body ++ left) = .hole body :: pieces left := by
  have hopen : opening (written body ++ left) = some (body, left) := opening_eq_some_iff.2 ⟨hb, rfl⟩
  obtain ⟨rest, hrest⟩ : ∃ rest, written body ++ left = '{' :: rest := ⟨_, rfl⟩
  rw [hrest] at hopen ⊢
  rw [pieces]
  split
  · rename_i ho
    rw [hopen] at ho
    cases ho
    rfl
  · rename_i ho
    rw [hopen] at ho
    cases ho

def shift (bytes : Nat) (p : Placeholder) : Placeholder := { p with start := bytes + p.start, stop := bytes + p.stop }

theorem locate_add (bytes start : Nat) (ps : List Piece) :
    locate (bytes + start) ps = (locate start ps).map (shift bytes) := by
  induction ps generalizing start with
  | nil => rfl
  | cons p ps ih =>
    cases p with
    | plain c => rw [locate, locate, Nat.add_assoc, ih]
    | hole body => rw [locate, locate, Nat.add_assoc, ih, List.map_cons]; simp [shift, ofBody, Nat.add_assoc]

/-- **Behind a quiet text a placeholder is found**, and those behind it are found where it ends. -/
theorem scan_append_written {pre body : List Char} {post : String} (hb : WellFormed body)
    (hq : Quiet pre (written body ++ post.toList)) : scan (String.ofList (pre ++ (written body ++ post.toList))) =
      ofBody (Text.byteLength pre) body :: (scan post).map (shift (Text.byteLength (pre ++ written body))) := by
  rw [scan, String.toList_ofList, locate_pieces_append 0 hq, pieces_written hb, Nat.zero_add, locate,
    Text.byteLength_append]
  exact congrArg _ (locate_add _ 0 _)

end Placeholder
end Stencil
