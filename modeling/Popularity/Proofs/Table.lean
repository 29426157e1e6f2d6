import Popularity.Table
import Mathlib.Data.List.Basic

/-!
# What is gathered from a table

Something may be gathered from each row of a table. To put a row takes away what the old row gave
and adds what the new one gives, wherever the row stands.

## Main results

* `Table.get?_put_eq_some`, `Table.get?_eq_some_iff`, `Table.put_put`
* `Table.count_gather_put` — how often a thing is gathered after a row was put
* `Table.map_fst_put`, `Table.countP_put` — the keys and the number of rows of a sort after that
* `Table.foldl_put` — values that are put under distinct keys
-/

namespace Popularity.Table

variable {K V : Type} [BEq K] [LawfulBEq K]

/-- A row that is found after another was put is that one, or it was found before. -/
theorem get?_put_eq_some {t : Table K V} {k k' : K} {v v' : V}
    (h : (t.put k v).get? k' = some v') : k' = k ∧ v' = v ∨ k' ≠ k ∧ t.get? k' = some v' := by
  rw [get?_put] at h
  by_cases hk : k' = k
  · subst hk
    rw [beq_self_eq_true, if_pos rfl] at h
    exact .inl ⟨rfl, (Option.some.inj h).symm⟩
  · rw [if_neg (by simpa using hk)] at h
    exact .inr ⟨hk, h⟩

/-- Of two rows put under one key, the later one stays. -/
theorem put_put (t : Table K V) (k : K) (v v' : V) : (t.put k v).put k v' = t.put k v' := by
  induction t with
  | nil => simp [put]
  | cons r t ih =>
    obtain ⟨k', w⟩ := r
    by_cases h : k = k'
    · simp [put, h]
    · simp [put, h, ih]

/-- A row that is found is there, under its key. -/
theorem mem_of_get?_eq_some {t : Table K V} {k : K} {v : V} (h : t.get? k = some v) :
    (k, v) ∈ t := by
  induction t with
  | nil => cases h
  | cons r t ih =>
    obtain ⟨k', v'⟩ := r
    rw [get?_cons] at h
    split at h
    next heq => cases h; exact eq_of_beq heq ▸ List.mem_cons_self
    next => exact List.mem_cons_of_mem _ (ih h)

/-- Under distinct keys every row that is there is found. -/
theorem get?_eq_some_iff {t : Table K V} (h : (t.map (·.1)).Nodup) {k : K} {v : V} :
    t.get? k = some v ↔ (k, v) ∈ t := by
  refine ⟨mem_of_get?_eq_some, fun hmem => ?_⟩
  induction t with
  | nil => cases hmem
  | cons r t ih =>
    obtain ⟨k', v'⟩ := r
    rw [List.map_cons, List.nodup_cons] at h
    rw [get?_cons]
    rcases List.mem_cons.mp hmem with heq | hmem
    · cases heq
      rw [beq_self_eq_true, if_pos rfl]
    · have hmem' : k ∈ t.map (·.1) := List.mem_map_of_mem hmem
      have hne : k ≠ k' := fun heq => h.1 (heq ▸ hmem')
      rw [if_neg (by simpa using hne), ih h.2 hmem]

theorem count_gather_put {B : Type} [BEq B] (f : V → List B) (t : Table K V) (k : K) (v : V)
    (b : B) :
    ((t.put k v).flatMap fun r => f r.2).count b + ((t.get? k).elim [] f).count b
      = (t.flatMap fun r => f r.2).count b + (f v).count b := by
  induction t with
  | nil => simp [put]
  | cons r t ih =>
    obtain ⟨k', v'⟩ := r
    by_cases h : k = k'
    · subst h
      simp only [put, get?_cons, beq_self_eq_true, if_true, List.flatMap_cons, List.count_append,
        Option.elim_some]
      omega
    · have h' : (k == k') = false := by simpa using h
      simp only [put, get?_cons, h', Bool.false_eq_true, if_false, List.flatMap_cons,
        List.count_append]
      omega

/-- A key is found just if it has a row. -/
theorem isSome_get? (t : Table K V) (k : K) : (t.get? k).isSome ↔ k ∈ t.map (·.1) := by
  induction t with
  | nil => simp
  | cons r t ih =>
    obtain ⟨k', v'⟩ := r
    rw [get?_cons, List.map_cons, List.mem_cons, ← ih]
    by_cases h : k = k'
    · simp [h]
    · simp [h]

/-- A new key is put at the end. -/
theorem map_fst_put (t : Table K V) (k : K) (v : V) :
    (t.put k v).map (·.1) = t.map (·.1) ++ if (t.get? k).isSome then [] else [k] := by
  induction t with
  | nil => rfl
  | cons r t ih =>
    obtain ⟨k', v'⟩ := r
    rw [put, get?_cons]
    by_cases h : k = k'
    · subst h
      simp
    · have h' : (k == k') = false := by simpa using h
      simp only [h', Bool.false_eq_true, if_false, List.map_cons, ih, List.cons_append]

theorem put_of_notMem {t : Table K V} {k : K} (h : k ∉ t.map (·.1)) (v : V) :
    t.put k v = t ++ [(k, v)] := by
  induction t with
  | nil => rfl
  | cons r t ih =>
    obtain ⟨k', v'⟩ := r
    rw [List.map_cons, List.mem_cons, not_or] at h
    rw [put, if_neg (by simpa using h.1), ih h.2, List.cons_append]

/-- To put values under new and distinct keys is to list them. -/
theorem foldl_put (key : V → K) {vs : List V} {t : Table K V}
    (h : (t.map (·.1) ++ vs.map key).Nodup) :
    vs.foldl (fun t v => put t (key v) v) t = t ++ vs.map fun v => (key v, v) := by
  induction vs generalizing t with
  | nil => simp
  | cons v vs ih =>
    have hnew : key v ∉ t.map (·.1) := by
      intro hmem
      exact (List.nodup_append.mp h).2.2 _ hmem _ List.mem_cons_self rfl
    have hrest : ((t ++ [(key v, v)]).map (·.1) ++ vs.map key).Nodup := by simpa using h
    rw [List.foldl_cons, put_of_notMem hnew, ih hrest, List.append_assoc, List.map_cons,
      List.singleton_append]

theorem countP_put (p : K × V → Bool) (t : Table K V) (k : K) (v : V) :
    (t.put k v).countP p + ((t.get? k).elim 0 fun w => if p (k, w) then 1 else 0)
      = t.countP p + if p (k, v) then 1 else 0 := by
  induction t with
  | nil => simp [put, List.countP_cons]
  | cons r t ih =>
    obtain ⟨k', v'⟩ := r
    by_cases h : k = k'
    · subst h
      simp only [put, get?_cons, beq_self_eq_true, if_true, List.countP_cons, Option.elim_some]
      omega
    · have h' : (k == k') = false := by simpa using h
      simp only [put, get?_cons, h', Bool.false_eq_true, if_false, List.countP_cons]
      omega

end Popularity.Table
