/-!
# Entries in order

An object's entries are a list of pairs in the order in which their keys first came.  Looking up answers with the first
pair of a key.  Inserting writes into the place where the key already stands and adds at the end otherwise, so a
repeated key keeps its first place and takes its last value, and keys that were distinct stay distinct.
-/
namespace Stencil

/-- Pairs of a key and what is stored under it, in insertion order. -/
abbrev Entries (α : Type) := List (String × α)

namespace Entries

variable {α : Type}

def keys (es : Entries α) : List String := es.map Prod.fst

def get? : Entries α → String → Option α
  | [], _ => none
  | (k, v) :: rest, key => if k = key then some v else get? rest key

/-- Stores a value under a key, in place if the key is there and at the end if it is not. -/
def insert : Entries α → String → α → Entries α
  | [], key, v => [(key, v)]
  | (k, w) :: rest, key, v => if k = key then (k, v) :: rest else (k, w) :: insert rest key v

def insertAll (es : Entries α) : List (String × α) → Entries α
  | [] => es
  | (k, v) :: rest => insertAll (insert es k v) rest

def ofList (pairs : List (String × α)) : Entries α := insertAll [] pairs

theorem get?_insert_self : ∀ (es : Entries α) (k : String) (v : α), (es.insert k v).get? k = some v
  | [], k, v => by simp [insert, get?]
  | (j, w) :: rest, k, v => by
    by_cases h : j = k
    · simp [insert, get?, h]
    · simp [insert, get?, h, get?_insert_self rest k v]

theorem get?_insert_ne : ∀ (es : Entries α) {k l : String} (v : α), k ≠ l → (es.insert k v).get? l = es.get? l
  | [], k, l, v, h => by simp [insert, get?, h]
  | (j, w) :: rest, k, l, v, h => by
    by_cases hj : j = k
    · subst hj; simp [insert, get?, h]
    · simp [insert, get?, hj, get?_insert_ne rest v h]

/-- **Inserting adds a key only if it is new**, and then at the end. -/
theorem keys_insert : ∀ (es : Entries α) (k : String) (v : α),
    (es.insert k v).keys = if k ∈ es.keys then es.keys else es.keys ++ [k]
  | [], k, v => by simp [insert, keys]
  | (j, w) :: rest, k, v => by
    have ih := keys_insert rest k v
    unfold keys at ih ⊢
    by_cases h : j = k
    · simp [insert, h]
    · have h' : ¬ k = j := fun e => h e.symm
      simp only [insert, h, if_false, List.map_cons, ih, List.mem_cons, h', false_or]
      split <;> simp

end Entries
end Stencil
