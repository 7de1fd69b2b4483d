import Stencil.Rendering
/-!
# Outcomes of renderings

The outcome of a rendering that starts with a journal is its result, or the call that failed, and the journal then.  A
rendering in steps is taken apart at the first step that fails.
-/
namespace Stencil.Rendering

variable {α β : Type}

def outcome (m : Rendering α) (j : Journal) : Except CallError α × Journal := m.run.run j

@[simp] theorem outcome_pure (a : α) (j : Journal) : (pure a : Rendering α).outcome j = (.ok a, j) := rfl

theorem outcome_bind (m : Rendering α) (f : α → Rendering β) (j : Journal) :
    outcome (m >>= f) j = match m.outcome j with
      | (.ok a, k) => (f a).outcome k
      | (.error e, k) => (.error e, k) := by
  rcases h : m.outcome j with ⟨_ | a, k⟩
  all_goals
    simp only [outcome, ExceptT.run_bind, StateT.run_bind] at h ⊢
    simp only [h]
    rfl

theorem outcome_bind_ok {m : Rendering α} {f : α → Rendering β} {j k : Journal} {a : α}
    (h : m.outcome j = (.ok a, k)) : outcome (m >>= f) j = (f a).outcome k := by
  rw [outcome_bind, h]

theorem outcome_bind_error {m : Rendering α} {f : α → Rendering β} {j k : Journal} {e : CallError}
    (h : m.outcome j = (.error e, k)) : outcome (m >>= f) j = (.error e, k) := by
  rw [outcome_bind, h]

theorem exists_of_outcome_bind {m : Rendering α} {f : α → Rendering β} {j k : Journal} {b : β}
    (h : outcome (m >>= f) j = (.ok b, k)) : ∃ a i, m.outcome j = (.ok a, i) ∧ (f a).outcome i = (.ok b, k) := by
  rw [outcome_bind] at h
  split at h
  · rename_i a i ha; exact ⟨a, i, ha, h⟩
  · cases h

theorem length_of_outcome_mapM {f : α → Rendering β} : ∀ {xs : List α} {ys : List β} {j k : Journal},
    outcome (xs.mapM f) j = (.ok ys, k) → ys.length = xs.length
  | [], ys, j, k, h => by
    rw [List.mapM_nil, outcome_pure] at h
    cases h
    rfl
  | x :: xs, ys, j, k, h => by
    rw [List.mapM_cons] at h
    obtain ⟨y, i, -, h⟩ := exists_of_outcome_bind h
    obtain ⟨zs, l, hzs, h⟩ := exists_of_outcome_bind h
    cases h
    rw [List.length_cons, List.length_cons, length_of_outcome_mapM hzs]

@[simp] theorem outcome_note (notes : List Note) (j : Journal) :
    (note notes).outcome j = (.ok (), { j with notes := notes.reverse ++ j.notes }) := rfl

@[simp] theorem outcome_call (host : Host) (key : String) (f : FunctionId) (j : Journal) :
    (call host key f).outcome j = ((host j.calls f).mapError (⟨key, ·⟩), { j with calls := f :: j.calls }) := by
  have hget : (getThe Journal : Rendering Journal).outcome j = (.ok j, j) := rfl
  have hset : (set { j with calls := f :: j.calls } : Rendering PUnit).outcome j =
      (.ok (), { j with calls := f :: j.calls }) := rfl
  rw [call, outcome_bind_ok hget, outcome_bind_ok hset]
  cases host j.calls f <;> rfl

/-! ## What is seen from outside -/

/-- The outcome without the notes: the result, and all calls made by then. -/
def seen (m : Rendering α) (j : Journal) : Except CallError α × List FunctionId := ((m.outcome j).1, (m.outcome j).2.calls)

theorem exists_of_seen {m : Rendering α} {j : Journal} {r : Except CallError α} {calls : List FunctionId}
    (h : m.seen j = (r, calls)) : ∃ k, m.outcome j = (r, k) ∧ k.calls = calls := by
  obtain ⟨hr, hcalls⟩ := Prod.mk.inj h
  exact ⟨(m.outcome j).2, by rw [← hr], hcalls⟩

theorem seen_of_outcome {m : Rendering α} {j k : Journal} {r : Except CallError α} (h : m.outcome j = (r, k)) :
    m.seen j = (r, k.calls) := by
  rw [seen, h]

theorem seen_bind_ok {m : Rendering α} {f : α → Rendering β} {j k : Journal} {a : α} (h : m.outcome j = (.ok a, k)) :
    seen (m >>= f) j = (f a).seen k := by
  rw [seen, outcome_bind_ok h]
  rfl

theorem seen_bind_error {m : Rendering α} {f : α → Rendering β} {j : Journal} {e : CallError}
    {calls : List FunctionId} (h : m.seen j = (.error e, calls)) : seen (m >>= f) j = (.error e, calls) := by
  obtain ⟨k, hk, rfl⟩ := exists_of_seen h
  rw [seen, outcome_bind_error hk]

/-- **What is seen of two steps**: the failure of the first, or what is seen of the second. -/
theorem seen_bind_iff {m : Rendering α} {f : α → Rendering β} {j : Journal} {r : Except CallError β}
    {calls : List FunctionId} : seen (m >>= f) j = (r, calls) ↔
      (∃ e, r = .error e ∧ m.seen j = (.error e, calls)) ∨ ∃ a k, m.outcome j = (.ok a, k) ∧ (f a).seen k = (r, calls) := by
  constructor
  · intro h
    rcases hm : m.outcome j with ⟨e | a, k⟩
    · have he := seen_of_outcome hm
      rw [seen_bind_error he] at h
      cases h
      exact .inl ⟨e, rfl, he⟩
    · rw [seen_bind_ok hm] at h
      exact .inr ⟨a, k, rfl, h⟩
  · rintro (⟨e, rfl, he⟩ | ⟨a, k, ha, h⟩)
    · exact seen_bind_error he
    · rw [seen_bind_ok ha, h]

theorem seen_bind_pure_iff {m : Rendering α} {f : α → β} {j : Journal} {r : Except CallError β}
    {calls : List FunctionId} : seen (m >>= fun a => pure (f a)) j = (r, calls) ↔
      ∃ q, m.seen j = (q, calls) ∧ r = q.map f := by
  rw [seen_bind_iff]
  constructor
  · rintro (⟨e, rfl, he⟩ | ⟨a, k, ha, h⟩)
    · exact ⟨.error e, he, rfl⟩
    · cases h
      exact ⟨.ok a, seen_of_outcome ha, rfl⟩
  · rintro ⟨e | a, hq, rfl⟩
    · exact .inl ⟨e, rfl, hq⟩
    · obtain ⟨k, hk, rfl⟩ := exists_of_seen hq
      exact .inr ⟨a, k, hk, rfl⟩

end Stencil.Rendering
