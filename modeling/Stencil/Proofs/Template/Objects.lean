import Mathlib.Data.List.Dedup
import Stencil.Proofs.Entries
import Stencil.Proofs.Rendering.Outcome
import Stencil.Template.Basic
/-!
# Rendering objects

The entries of an object render to pairs, one after the other and each key before its value (`Node.RendersPairs`).  The
pairs may have a key more than once: different key texts can render alike, and the text of a number, of null or of JSON
data is a key like any other.  The rendered object then has the key where it first came, with the value that came last
(`Template.outcome_render_object_iff`).
-/
namespace Stencil

namespace Node

/-- **The entries render to these pairs**, in order: a pair is the text of what the key renders to, and what the value
renders to after that. -/
inductive RendersPairs (s : Setting) : List (String × Value) → Journal → List (String × Value) → Journal → Prop
  | nil {j : Journal} : RendersPairs s [] j [] j
  | cons {key : String} {v kv w : Value} {rest pairs : List (String × Value)} {j i l k : Journal}
      (hk : ((ofValue (.string key)).render s).outcome j = (.ok kv, i)) (hv : ((ofValue v).render s).outcome i = (.ok w, l))
      (hrest : RendersPairs s rest l pairs k) : RendersPairs s ((key, v) :: rest) j ((kv.text, w) :: pairs) k

variable {s : Setting}

theorem outcome_renderEntries_iff : ∀ {es : List (String × Value)} {j k : Journal} {pairs : List (String × Value)},
    (renderEntries s (ofEntries es)).outcome j = (.ok pairs, k) ↔ RendersPairs s es j pairs k
  | [], j, k, pairs => by
    constructor
    · intro h; cases h; exact .nil
    · intro h; cases h; rfl
  | (key, v) :: rest, j, k, pairs => by
    rw [ofEntries, renderEntries]
    constructor
    · intro h
      obtain ⟨kv, i, hk, h⟩ := Rendering.exists_of_outcome_bind h
      obtain ⟨w, l, hv, h⟩ := Rendering.exists_of_outcome_bind h
      obtain ⟨more, m, hmore, h⟩ := Rendering.exists_of_outcome_bind h
      cases h
      exact .cons hk hv (outcome_renderEntries_iff.1 hmore)
    · intro h
      cases h with
      | cons hk hv hrest =>
        have hkey : ((Pattern.ofText key).render s).outcome j = _ := hk
        rw [Rendering.outcome_bind_ok hkey, Rendering.outcome_bind_ok hv,
          Rendering.outcome_bind_ok (outcome_renderEntries_iff.2 hrest)]
        rfl

theorem RendersPairs.exists_of_mem {es pairs : List (String × Value)} {j k : Journal} (h : RendersPairs s es j pairs k) :
    ∀ e ∈ pairs, ∃ f ∈ es, (∃ kv i l, ((ofValue (.string f.1)).render s).outcome i = (.ok kv, l) ∧ e.1 = kv.text) ∧
      ∃ i l, ((ofValue f.2).render s).outcome i = (.ok e.2, l) := by
  induction h with
  | nil => exact fun e he => (List.not_mem_nil he).elim
  | cons hk hv _ ih =>
    refine List.forall_mem_cons.2 ⟨⟨_, List.mem_cons_self, ⟨_, _, _, hk, rfl⟩, _, _, hv⟩, fun e he => ?_⟩
    obtain ⟨f, hf, hr⟩ := ih e he
    exact ⟨f, List.mem_cons_of_mem _ hf, hr⟩

end Node

theorem Entries.Collects.length_eq {α : Type} {pairs : List (String × α)} {es : Entries α} (h : Collects pairs es) :
    es.length = (Entries.keys pairs).dedup.length := by
  have hperm : es.keys.Perm (Entries.keys pairs).dedup :=
    (List.perm_ext_iff_of_nodup h.distinct (List.nodup_dedup _)).2 fun k => (h.keys k).trans List.mem_dedup.symm
  rw [← hperm.length_eq, Entries.keys, List.length_map]

/-- **An object renders to what its rendered pairs collect to**, and to nothing else: each key once, where it first came,
with the value that came last.  There are as many entries as different keys, and if no key comes twice they are the
pairs themselves. -/
theorem Template.outcome_render_object_iff (o : Options) (host : Host) (context : Value) (es : List (String × Value))
    (r : Value) (j k : Journal) : ((compile o (.object es)).render host context).outcome j = (.ok r, k) ↔
      ∃ pairs result, Node.RendersPairs ⟨host, o.active?, context⟩ es j pairs k ∧ r = .object result ∧
        Entries.Collects pairs result ∧ result.length = (Entries.keys pairs).dedup.length ∧
        ((Entries.keys pairs).Nodup → result = pairs) := by
  constructor
  · intro h
    obtain ⟨pairs, i, hpairs, h⟩ := Rendering.exists_of_outcome_bind h
    cases h
    have hcollects := Entries.collects_ofList pairs
    exact ⟨pairs, Entries.ofList pairs, Node.outcome_renderEntries_iff.1 hpairs, rfl, hcollects, hcollects.length_eq,
      Entries.ofList_of_nodup⟩
  · rintro ⟨pairs, result, hpairs, rfl, hcollects, -, -⟩
    rw [Entries.collects_iff.1 hcollects]
    exact Rendering.outcome_bind_ok (Node.outcome_renderEntries_iff.2 hpairs)

/-- A number, null and texts that read like them, with another key between. -/
example : ((Template.compile .default (.object [("\x7b\x7bn\x7d\x7d", .string "a"), ("\x7b\x7bnone\x7d\x7d", .string "b"),
    ("7", .string "c"), ("null", .string "d")])).render (fun _ _ => .error "") (.object [("n",
      .number (.int 7 (by decide)))])).outcome {} = (.ok (.object [("7", .string "c"), ("null", .string "d")]), {}) := by
  cbv

end Stencil
