import Popularity.Proofs.Database.Transaction
import Popularity.Proofs.Except
import Popularity.Proofs.Registry
import Popularity.Proofs.Table

/-!
# What a statement does to the rows

A statement that writes is of one of two sorts. It turns a mark: it puts it in force or takes it
back, if it is not so already. Or it moves a counter. Neither loses a row, makes one anew or gives a
key a second row.

This holds for items that the tables hold under their own kind. The database drops blanks at the end
of a kind that is too long, but only where a row is put and not where one is looked for; so a mark
on such an item is put on another item, and is not found again.

## Main definitions

* `Table.Grown`, `Tables.Grown` — a table before and after some work that loses nothing
* `Turn`, `Tables.Turned` — what is done to a mark
* `Tables.Counted` — what is done to the counts
* `Item.Exact` — an item whose kind is stored as it is

## Main results

* `Tables.turned_execMark`, `Tables.turned_execUnmark` — what the statements about marks do
* `Tables.counted_add`, `Tables.counted_of_execSubtract_true` — what the statements about counts do
-/

namespace Popularity

/-! ### Tables that grow -/

namespace Table

variable {K V : Type} [BEq K] {t t' t'' : Table K (Stamped V)}

/-- A table before and after some work. The keys that were there are there still, in their order,
and none has come twice; every row is as old as it was. -/
structure Grown (t t' : Table K (Stamped V)) : Prop where
  keys : t.map (·.1) <+: t'.map (·.1)
  nodup : (t.map (·.1)).Nodup → (t'.map (·.1)).Nodup
  made : ∀ k row, t.get? k = some row → ∃ row', t'.get? k = some row' ∧ row'.made = row.made

theorem Grown.refl : Grown t t := ⟨List.prefix_rfl, id, fun _ row h => ⟨row, h, rfl⟩⟩

theorem Grown.trans (h : Grown t t') (h' : Grown t' t'') : Grown t t'' where
  keys := h.keys.trans h'.keys
  nodup hn := h'.nodup (h.nodup hn)
  made k row hrow := by
    obtain ⟨row', hrow', hmade⟩ := h.made k row hrow
    obtain ⟨row'', hrow'', hmade'⟩ := h'.made k row' hrow'
    exact ⟨row'', hrow'', hmade'.trans hmade⟩

/-- To put a row is no loss if it is as old as the one that it replaces. -/
theorem grown_put [LawfulBEq K] {k : K} {row : Stamped V}
    (h : ∀ old, t.get? k = some old → row.made = old.made) : Grown t (t.put k row) where
  keys := by
    rw [map_fst_put]
    exact List.prefix_append _ _
  nodup hn := by
    rw [map_fst_put]
    cases hk : (t.get? k).isSome with
    | true => simpa using hn
    | false =>
      have hnew : k ∉ t.map (·.1) := by
        rw [← isSome_get?, hk]
        exact Bool.false_ne_true
      refine List.nodup_append.mpr ⟨hn, by simp, ?_⟩
      intro a ha b hb
      obtain rfl : b = k := by simpa using hb
      rintro rfl
      exact hnew ha
  made j old hold := by
    rw [get?_put]
    by_cases hj : j = k
    · subst hj
      exact ⟨row, by simp, h old hold⟩
    · exact ⟨old, by simp [hj, hold], rfl⟩

end Table

namespace Tables

variable {t t' t'' : Tables} {m n : Mark} {key : Item × Int64} {i : Item} {now : Nat}

/-- The three tables before and after some work that loses nothing. -/
structure Grown (t t' : Tables) : Prop where
  counts : t.counts.Grown t'.counts
  marks : ∀ m, (t.marks m).Grown (t'.marks m)

theorem Grown.refl : Grown t t := ⟨Table.Grown.refl, fun _ => Table.Grown.refl⟩

theorem Grown.trans (h : Grown t t') (h' : Grown t' t'') : Grown t t'' :=
  ⟨h.counts.trans h'.counts, fun m => (h.marks m).trans (h'.marks m)⟩

/-! ### Puts -/

@[simp] theorem counts_putMark {row : Stamped Placed} :
    (t.putMark m key row).counts = t.counts := by
  cases m <;> rfl

@[simp] theorem marks_putCounts {row : Stamped Counts} :
    (t.putCounts i row).marks m = t.marks m := by
  cases m <;> rfl

theorem marks_putMark (t : Tables) (m : Mark) (key : Item × Int64) (row : Stamped Placed)
    (n : Mark) :
    (t.putMark m key row).marks n = if n = m then (t.marks n).put key row else t.marks n := by
  cases m <;> cases n <;> rfl

theorem active?_putMark (t : Tables) (m : Mark) (key : Item × Int64) (row : Stamped Placed)
    (n : Mark) (key' : Item × Int64) :
    (t.putMark m key row).active? n key' = if n = m ∧ key' = key
      then (some row).filter (·.value.standing = .active) else t.active? n key' := by
  unfold active?
  rw [marks_putMark]
  by_cases hn : n = m
  · subst hn
    by_cases hkey : key' = key
    · simp [Table.get?_put, hkey]
    · simp [Table.get?_put, hkey]
  · simp [hn]

/-! ### Counting -/

/-- The counts of an item. -/
def row (t : Tables) (i : Item) : Option Counts := (t.counts.get? i).map (·.value)

/-- Tables before and after some adjustments. -/
structure Counted (as : List Adjustment) (t t' : Tables) : Prop where
  marks : ∀ m, t'.marks m = t.marks m
  grown : t.counts.Grown t'.counts
  moved : ∀ i, Row.Moved i as (t.row i) (t'.row i)

theorem Counted.refl : Counted [] t t := ⟨fun _ => rfl, Table.Grown.refl, fun _ => Row.Moved.refl⟩

theorem Counted.append {as bs : List Adjustment} (h : Counted as t t') (h' : Counted bs t' t'') :
    Counted (as ++ bs) t t'' where
  marks m := (h'.marks m).trans (h.marks m)
  grown := h.grown.trans h'.grown
  moved i := (h.moved i).append (h'.moved i)

theorem Counted.active? {as : List Adjustment} (h : Counted as t t') (m : Mark)
    (key : Item × Int64) : t'.active? m key = t.active? m key := by
  rw [Tables.active?, h.marks, Tables.active?]

/-- To put the counts of an item is to adjust them, if they say so. -/
theorem counted_putCounts {k : Counter} {by_ : Int64} {row : Stamped Counts}
    (hmade : ∀ old, t.counts.get? i = some old → row.made = old.made)
    (hadd : ((t.row i).getD .zero).add? k by_ = some row.value) :
    Counted [⟨i, k, by_⟩] t (t.putCounts i row) where
  marks m := marks_putCounts
  grown := Table.grown_put hmade
  moved j := by
    have hrow : (t.putCounts i row).row j = if j = i then some row.value else t.row j := by
      unfold Tables.row putCounts
      rw [Table.get?_put]
      by_cases hj : j = i <;> simp [hj]
    rw [hrow]
    by_cases hj : j = i
    · subst hj
      rw [if_pos rfl]
      refine ⟨by simp, fun c => ?_⟩
      rw [Adjustment.total_cons, Adjustment.total_nil, Int.add_zero]
      simpa [Row.amount] using Counts.get_of_add?_eq_some hadd c
    · rw [if_neg hj]
      exact ⟨by simp [Ne.symm hj], fun c => by simp [Ne.symm hj]⟩

end Tables

/-! ### Exact items -/

/-- The tables hold the item under its own kind, if they hold it at all. -/
def Item.Exact (i : Item) : Prop := ∀ kind, Statement.fit? i.kind = some kind → kind = i.kind

theorem Item.Exact.eq_of_fitItem {i j : Item} (h : i.Exact) (hj : Statement.fitItem i = .ok j) :
    j = i := by
  unfold Statement.fitItem at hj
  split at hj
  next kind hkind =>
    cases hj
    rw [h kind hkind]
  next => cases hj

/-- Kinds that are not too long are stored as they are. -/
theorem Item.exact_of_length_le {i : Item} (h : i.kind.length ≤ Statement.kindWidth) : i.Exact := by
  intro kind hkind
  rw [Statement.fit?, if_pos h] at hkind
  exact (Option.some.inj hkind).symm

/-! ### Steps and sums -/

theorem Counts.add?_zero (k : Counter) (by_ : Int64) :
    Counts.zero.add? k by_ = some (Counts.zero.put k by_) := by
  refine Counts.add?_eq_some ?_
  have hzero : (Counts.zero.get k).toInt = 0 := by cases k <;> rfl
  rw [hzero, Int.zero_add]

theorem Statement.add?_of_plus_eq_ok {n n' : Counts} {k : Counter} {by_ : Int64}
    (h : Statement.plus n k by_ = .ok n') : n.add? k by_ = some n' := by
  unfold Statement.plus at h
  split at h
  next n₁ hn₁ =>
    cases h
    exact hn₁
  next => cases h

/-! ### Turns -/

/-- What is wanted of a mark. -/
structure Turn where
  mark : Mark
  /-- The item and the user. -/
  key : Item × Int64
  /-- The folder in which the mark is put, if it is not taken back. -/
  folder : Option Int64
  deriving DecidableEq, Repr

namespace Tables

variable {t t' t₁ : Tables} {m : Mark} {i : Item} {user folder : Int64} {now : Nat} {b : Bool}
variable {key : Item × Int64} {x : Turn}

/-- What a turn does. Either the mark is so already and nothing happens, or a row is put that says
so; the row of a mark that is taken back keeps its folder. -/
inductive Turned (x : Turn) : Bool → Tables → Tables → Prop
  | still {t : Tables} (h : (t.active? x.mark x.key).isSome = x.folder.isSome) : Turned x false t t
  | put {t : Tables} (row : Stamped Placed)
    (h : (t.active? x.mark x.key).isSome = !x.folder.isSome)
    (standing : row.value.standing = if x.folder.isSome then .active else .inactive)
    (folder : ∀ f, x.folder = some f → row.value.folder = f)
    (made : ∀ old, (t.marks x.mark).get? x.key = some old → row.made = old.made) :
    Turned x true t (t.putMark x.mark x.key row)

theorem turned_execMark (hi : i.Exact)
    (h : Statement.execMark now m i user folder t = .ok (b, t')) :
    Turned ⟨m, (i, user), some folder⟩ b t t' := by
  unfold Statement.execMark at h
  obtain ⟨j, hfit, hput⟩ := exists_of_bind_eq_ok h
  obtain rfl := hi.eq_of_fitItem hfit
  dsimp only at hput
  cases hrow : (t.marks m).get? (j, user) with
  | none =>
    rw [hrow] at hput
    cases hput
    refine .put (.new ⟨folder, .active⟩ now) ?_ rfl (fun f hf => Option.some.inj hf) ?_
    · simp [active?, hrow]
    · intro old hold
      rw [hrow] at hold
      cases hold
  | some row =>
    rw [hrow] at hput
    dsimp only at hput
    split at hput
    next hactive =>
      cases hput
      exact .still (by simp [active?, hrow, hactive])
    next hactive =>
      cases hput
      refine .put (row.update ⟨folder, .active⟩ now) ?_ rfl (fun f hf => Option.some.inj hf) ?_
      · simp [active?, hrow, hactive]
      · intro old hold
        obtain rfl : old = row := Option.some.inj (hold.symm.trans hrow)
        rfl

theorem turned_execUnmark (h : Statement.execUnmark now m i user t = (b, t')) :
    Turned ⟨m, (i, user), none⟩ b t t' := by
  unfold Statement.execUnmark at h
  cases hrow : t.active? m (i, user) with
  | none =>
    rw [hrow] at h
    cases h
    exact .still (by rw [hrow]; rfl)
  | some row =>
    rw [hrow] at h
    cases h
    refine .put (row.update { row.value with standing := .inactive } now) ?_ rfl nofun ?_
    · rw [hrow]
      rfl
    · intro old hold
      obtain ⟨hget, -⟩ := Option.filter_eq_some_iff.mp hrow
      obtain rfl : old = row := Option.some.inj (hold.symm.trans hget)
      rfl

theorem row_of_get? {row : Stamped Counts} (h : t.counts.get? i = some row) :
    t.row i = some row.value := by
  rw [Tables.row, h]
  rfl

/-- To add to the row of an item is to adjust it. -/
theorem counted_update {k : Counter} {by_ : Int64} {row : Stamped Counts} {n : Counts}
    (hrow : t.counts.get? i = some row) (hsum : Statement.plus row.value k by_ = .ok n) :
    Counted [⟨i, k, by_⟩] t (t.putCounts i (row.update n now)) := by
  refine counted_putCounts (fun old hold => ?_) ?_
  · obtain rfl : old = row := Option.some.inj (hold.symm.trans hrow)
    rfl
  · rw [row_of_get? hrow]
    exact Statement.add?_of_plus_eq_ok hsum

/-- To add to an item is to adjust the item under which the tables hold it. -/
theorem counted_execAdd_of_fit {j : Item} {k : Counter} {by_ : Int64}
    (hfit : Statement.fitItem i = .ok j) (h : Statement.execAdd now i k by_ t = .ok t') :
    Counted [⟨j, k, by_⟩] t t' := by
  unfold Statement.execAdd at h
  obtain ⟨j', hfit', hput⟩ := exists_of_bind_eq_ok h
  obtain rfl : j' = j := Except.ok.inj (hfit'.symm.trans hfit)
  cases hrow : t.counts.get? j' with
  | none =>
    rw [hrow] at hput
    cases hput
    refine counted_putCounts (fun old hold => by rw [hrow] at hold; cases hold) ?_
    rw [Tables.row, hrow]
    exact Counts.add?_zero k by_
  | some row =>
    rw [hrow] at hput
    obtain ⟨n, hsum, hput⟩ := exists_of_bind_eq_ok hput
    cases hput
    exact counted_update hrow hsum

theorem counted_execAdd {k : Counter} {by_ : Int64} (hi : i.Exact)
    (h : Statement.execAdd now i k by_ t = .ok t') : Counted [⟨i, k, by_⟩] t t' := by
  obtain ⟨j, hfit, -⟩ := exists_of_bind_eq_ok h
  obtain rfl := hi.eq_of_fitItem hfit
  exact counted_execAdd_of_fit hfit h

theorem counted_add {k : Counter} {by_ : Int64} {u : Unit} (hi : i.Exact)
    (h : (Statement.add i k by_).effect now t = .ok (u, t')) : Counted [⟨i, k, by_⟩] t t' := by
  rw [Statement.effect, map_eq_pure_bind] at h
  obtain ⟨t₁, hadd, h⟩ := exists_of_bind_eq_ok h
  cases h
  exact counted_execAdd hi hadd

/-- To take one from a row that is there is to adjust it. -/
theorem counted_of_execSubtract_true {k : Counter}
    (h : Statement.execSubtract now i k t = .ok (true, t')) : Counted [⟨i, k, -1⟩] t t' := by
  unfold Statement.execSubtract at h
  cases hrow : t.counts.get? i with
  | none =>
    rw [hrow] at h
    cases h
  | some row =>
    rw [hrow] at h
    obtain ⟨n, hsum, h⟩ := exists_of_bind_eq_ok h
    cases h
    exact counted_update hrow hsum

end Tables

end Popularity
