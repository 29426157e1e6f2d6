/-!
# Tables

Rows under distinct keys, in the order in which the keys first came.

## Main definitions

* `Table`, `Table.get?`, `Table.put`
-/

namespace Popularity

/-- Rows of sort `V` under keys of sort `K`. -/
abbrev Table (K V : Type) : Type := List (K × V)

namespace Table

variable {K V : Type} [BEq K]

/-- The row under a key. -/
def get? (t : Table K V) (k : K) : Option V := List.lookup k t

/-- Puts a row under a key, instead of the one that is there or else at the end. -/
def put : Table K V → K → V → Table K V
  | [], k, v => [(k, v)]
  | (k', v') :: t, k, v => if k == k' then (k', v) :: t else (k', v') :: put t k v

@[simp] theorem get?_nil (k : K) : get? ([] : Table K V) k = none := rfl

theorem get?_cons (k k' : K) (v : V) (t : Table K V) :
    get? ((k', v) :: t) k = if k == k' then some v else get? t k := by
  unfold get?
  rw [List.lookup_cons]
  cases k == k' <;> rfl

theorem get?_put [LawfulBEq K] (t : Table K V) (k k' : K) (v : V) :
    get? (put t k v) k' = if k' == k then some v else get? t k' := by
  induction t with
  | nil => simp [put, get?_cons]
  | cons r t ih =>
    obtain ⟨a, w⟩ := r
    by_cases h : k = a
    · subst h
      by_cases h' : k' = k <;> simp [put, get?_cons, h']
    · by_cases h' : k' = a
      · subst h'
        simp [put, get?_cons, h, Ne.symm h]
      · simp [put, get?_cons, h, h', ih]

end Table

end Popularity
