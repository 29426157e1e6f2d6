import Popularity.Engine
import Popularity.Proofs.Cache.Entries
import Mathlib.Algebra.BigOperators.Group.List.Basic
import Mathlib.Algebra.Ring.Int.Defs

/-!
# Stores that keep the contract

The service relies on little of a store. A lookup changes nothing and tells the row that is there. A
write that is refused, or that finds nothing to change, leaves the rows alone; one that changes
something moves the counters of the rows by its adjustments, and makes the rows that were missing.
A `Registry` is a store of which this is known, and the ledger is one, in every state and for every
item. Everything proved about calls in the presence of a cache is proved for every registry.

## Scope

A database server is no registry. It keeps the contract only in part:

* Only for items that its tables hold under their own kind (`Item.Exact`). If a kind is too long by
  blanks, a write about the item changes the row of another item, and no lookup finds its own. A
  cache goes by the item that was asked for, so beside it an entry of that other item stays wrong
  until it dies.
* Only as far as its tables go. Its clock goes up with every request, and a lookup is a statement
  that is noted like any other.
* Only while nothing stops it. A fault may keep even a lookup from its answer, and a kind with the
  character U+0000 always does.

So nothing that is proved for every registry is said of a server. What is proved of a server is
weaker: that its rows last, for exact items (`Site.Lasting`), and that a write that the tables can
hold as it is (`Write.Plain`) does to them what it should.

## Main definitions

* `Adjustment.total` — by how much a list of adjustments moves one counter
* `Row.Moved` — a row before and after some adjustments
* `Registry`, and `Ledger.registry`

## Main results

* `Row.Moved.append`, `Row.eq_of_moved`
-/

namespace Popularity

/-! ### Adjustments -/

namespace Adjustment

/-- By how much some adjustments together move a counter of an item. -/
def total (i : Item) (k : Counter) (as : List Adjustment) : Int :=
  (as.map fun a => if a.item = i ∧ a.counter = k then a.by_.toInt else 0).sum

variable {i : Item} {k : Counter} {a : Adjustment} {as bs : List Adjustment}

@[simp] theorem total_nil : total i k [] = 0 := rfl

@[simp] theorem total_cons :
    total i k (a :: as)
      = (if a.item = i ∧ a.counter = k then a.by_.toInt else 0) + total i k as := by
  simp [total]

@[simp] theorem total_append : total i k (as ++ bs) = total i k as + total i k bs := by
  simp [total]

theorem total_eq_zero (h : ∀ a ∈ as, a.item ≠ i) : total i k as = 0 := by
  induction as with
  | nil => rfl
  | cons a as ih =>
    rw [total_cons, if_neg fun ha => h a List.mem_cons_self ha.1,
      ih fun b hb => h b (List.mem_cons_of_mem a hb), Int.add_zero]

theorem total_filter : total i k (as.filter (·.item = i)) = total i k as := by
  induction as with
  | nil => rfl
  | cons a as ih =>
    by_cases h : a.item = i
    · rw [List.filter_cons_of_pos (by simpa using h), total_cons, total_cons, ih]
    · rw [List.filter_cons_of_neg (by simpa using h), total_cons, ih, if_neg fun ha => h ha.1,
        Int.zero_add]

theorem total_perm (h : as.Perm bs) : total i k as = total i k bs :=
  (h.map _).sum_eq

end Adjustment

/-! ### Rows -/

namespace Row

/-- The value of a counter in a row; a row that is missing counts nothing. -/
def amount (r : Option Counts) (k : Counter) : Int := ((r.getD .zero).get k).toInt

/-- Whether a row of an item before and after some adjustments agrees with them. -/
structure Moved (i : Item) (as : List Adjustment) (before after : Option Counts) : Prop where
  /-- A row is never lost, and made only by an adjustment of its item. -/
  isSome_iff : after.isSome ↔ before.isSome ∨ ∃ a ∈ as, a.item = i
  amount : ∀ k, amount after k = amount before k + Adjustment.total i k as

variable {i : Item} {as bs : List Adjustment} {r r' r'' : Option Counts}

@[simp] theorem amount_some (n : Counts) (k : Counter) : amount (some n) k = (n.get k).toInt := rfl

theorem Moved.refl : Moved i [] r r := ⟨by simp, by simp⟩

theorem Moved.append (h : Moved i as r r') (h' : Moved i bs r' r'') : Moved i (as ++ bs) r r'' where
  isSome_iff := by
    rw [h'.isSome_iff, h.isSome_iff]
    simp only [List.mem_append, or_and_right, exists_or, or_assoc]
  amount k := by
    rw [h'.amount, h.amount, Adjustment.total_append, Int.add_assoc]

/-- It only matters which items are adjusted, and by how much. -/
theorem Moved.congr (h : Moved i as r r') (hi : (∃ a ∈ as, a.item = i) ↔ ∃ a ∈ bs, a.item = i)
    (hk : ∀ k, Adjustment.total i k as = Adjustment.total i k bs) : Moved i bs r r' where
  isSome_iff := by rw [h.isSome_iff, hi]
  amount k := by rw [h.amount, hk]

/-- The order of the adjustments does not matter. -/
theorem Moved.perm (h : Moved i as r r') (hp : as.Perm bs) : Moved i bs r r' :=
  h.congr (by simp only [hp.mem_iff]) fun _ => Adjustment.total_perm hp

/-- The counters tell two rows apart, if both are there or none. -/
theorem eq_of_amount_eq (hs : r'.isSome = r.isSome) (h : ∀ k, amount r' k = amount r k) :
    r' = r := by
  cases r' with
  | none => cases r with
    | none => rfl
    | some n => cases hs
  | some m => cases r with
    | none => cases hs
    | some n => exact congrArg some (Counts.eq_of_toInt_get_eq h)

/-- Adjustments of other items leave a row as it is. -/
theorem eq_of_moved (h : Moved i as r r') (ha : ∀ a ∈ as, a.item ≠ i) : r' = r := by
  refine eq_of_amount_eq (Bool.eq_iff_iff.mpr ?_) ?_
  · rw [h.isSome_iff]
    exact or_iff_left fun ⟨a, hmem, hi⟩ => ha a hmem hi
  · intro k
    rw [h.amount, Adjustment.total_eq_zero ha, Int.add_zero]

end Row

/-! ### Registries -/

/-- A store that keeps what it promises to the service, for all items and in every state. The ledger
does. A database server does so only for items that its tables hold under their own kind, only up to
its clock and the list of its statements, and only while no fault stops it. -/
structure Registry (S : Type) extends Site S where
  /-- The row of an item. -/
  row : S → Item → Option Counts
  answer_counts : ∀ i s, answer (.counts i) s = (.ok (row s i), s)
  /-- A lookup changes nothing. -/
  answer_lookup : ∀ r s, (∀ w, r ≠ .write w) → (answer r s).2 = s
  /-- A write that is refused or has nothing to change leaves the rows alone. -/
  row_unchanged : ∀ w s, (answer (.write w) s).1 ≠ .ok true → row (answer (.write w) s).2 = row s
  /-- A write that changes something moves the rows by its adjustments. -/
  row_changed : ∀ w s, (answer (.write w) s).1 = .ok true →
    ∀ i, Row.Moved i w.adjustments (row s i) (row (answer (.write w) s).2 i)

/-! ### The ledger -/

namespace Ledger

variable {l l' : Ledger} {i : Item}

theorem moved_bump {k : Counter} {d : Int64} (h : l.bump i k d = .ok l') (j : Item) :
    Row.Moved j [⟨i, k, d⟩] (l.counts.get? j) (l'.counts.get? j) := by
  unfold bump at h
  split at h
  next n hn =>
    cases h
    rw [Table.get?_put]
    by_cases hj : j = i
    · subst hj
      refine ⟨by simp, ?_⟩
      intro c
      simpa [Row.amount] using Counts.get_of_add?_eq_some hn c
    · refine ⟨by simp [hj, Ne.symm hj], ?_⟩
      intro c
      simp [hj, Ne.symm hj]
  next => cases h

@[simp] theorem counts_place {m : Mark} {user : Int64} {p : Placed} :
    (l.place m i user p).counts = l.counts := by
  cases m <;> rfl

/-- What a mark that was put or taken back did to the counts. -/
theorem moved_place {m : Mark} {user d : Int64} {p : Placed} {b : Bool}
    (h : (do let l ← l.bump i m.counter d; return (true, l.place m i user p)) = Except.ok (b, l'))
    (j : Item) : Row.Moved j [⟨i, m.counter, d⟩] (l.counts.get? j) (l'.counts.get? j) := by
  cases hb : l.bump i m.counter d with
  | error why => rw [hb] at h; cases h
  | ok l₁ =>
    rw [hb] at h
    cases h
    rw [counts_place]
    exact moved_bump hb j

/-- What a mark can come to: it was in force, the counter had no room, or it was put. -/
theorem mark_cases {m : Mark} {user folder : Int64} {b : Bool}
    (h : l.mark m i user folder = .ok (b, l')) :
    b = false ∧ l' = l ∨ b = true ∧
      ∀ j, Row.Moved j [⟨i, m.counter, 1⟩] (l.counts.get? j) (l'.counts.get? j) := by
  unfold mark at h
  split at h
  next => cases h; exact .inl ⟨rfl, rfl⟩
  next =>
    refine .inr ⟨?_, moved_place h⟩
    cases hb : l.bump i m.counter 1 with
    | error why => rw [hb] at h; cases h
    | ok l₁ => rw [hb] at h; cases h; rfl

theorem unmark_cases {m : Mark} {user : Int64} {b : Bool} (h : l.unmark m i user = .ok (b, l')) :
    b = false ∧ l' = l ∨ b = true ∧
      ∀ j, Row.Moved j [⟨i, m.counter, -1⟩] (l.counts.get? j) (l'.counts.get? j) := by
  unfold unmark at h
  split at h
  next => cases h; exact .inl ⟨rfl, rfl⟩
  next p _ =>
    split at h
    next => cases h
    next =>
      refine .inr ⟨?_, moved_place h⟩
      cases hb : l.bump i m.counter (-1) with
      | error why => rw [hb] at h; cases h
      | ok l₁ => rw [hb] at h; cases h; rfl

theorem moved_readAll {is : List Item} :
    ∀ {l : Ledger}, is.foldlM (fun l i => l.bump i .reads 1) l = .ok l' → ∀ j,
      Row.Moved j (Write.readAll is).adjustments (l.counts.get? j) (l'.counts.get? j) := by
  induction is with
  | nil => intro l h j; cases h; exact Row.Moved.refl
  | cons i is ih =>
    intro l h j
    rw [List.foldlM_cons] at h
    cases hb : l.bump i .reads 1 with
    | error why => rw [hb] at h; cases h
    | ok l₁ =>
      rw [hb] at h
      exact (moved_bump hb j).append (ih h j)

/-- **What a write does to the rows.** -/
theorem record_cases {w : Write} {b : Bool} (h : l.record w = .ok (b, l')) :
    b = false ∧ l' = l ∨
      b = true ∧ ∀ j, Row.Moved j w.adjustments (l.counts.get? j) (l'.counts.get? j) := by
  cases w with
  | read i =>
    cases hl : l.bump i .reads 1 with
    | error why => rw [record, hl] at h; cases h
    | ok l₁ =>
      rw [record, hl] at h
      cases h
      exact .inr ⟨rfl, moved_bump hl⟩
  | readAll is =>
    cases hl : is.foldlM (fun l i => l.bump i .reads 1) l with
    | error why => rw [record, hl] at h; cases h
    | ok l₁ =>
      rw [record, hl] at h
      cases h
      exact .inr ⟨rfl, moved_readAll hl⟩
  | like i user => exact mark_cases h
  | unlike i user => exact unmark_cases h
  | collect i user folder => exact mark_cases h
  | uncollect i user folder => exact unmark_cases h

/-- A write is answered as it is recorded. -/
theorem answer_write (l : Ledger) (w : Write) :
    (∃ b l', l.record w = .ok (b, l') ∧ answer (.write w) l = (.ok b, l')) ∨
      ∃ why, answer (.write w) l = (.error why, l) := by
  cases h : l.record w with
  | error why => exact .inr ⟨why, by rw [answer, h]⟩
  | ok r => exact .inl ⟨r.1, r.2, rfl, by rw [answer, h]⟩

/-- The ledger keeps the contract. -/
def registry : Registry Ledger where
  toSite := site
  row l i := l.counts.get? i
  answer_counts _ _ := rfl
  answer_lookup r l h := by
    cases r with
    | write w => exact absurd rfl (h w)
    | counts i => rfl
    | countsOf kind ids => rfl
    | marked m i user => rfl
  row_unchanged w l h := by
    rcases answer_write l w with ⟨b, l', hr, ha⟩ | ⟨why, ha⟩
    · rcases record_cases hr with ⟨rfl, rfl⟩ | ⟨rfl, -⟩
      · simp [site, ha]
      · exact absurd (by simp [site, ha]) h
    · simp [site, ha]
  row_changed w l h i := by
    rcases answer_write l w with ⟨b, l', hr, ha⟩ | ⟨why, ha⟩
    · rcases record_cases hr with ⟨rfl, -⟩ | ⟨-, hmoved⟩
      · simp [site, ha] at h
      · simpa [site, ha] using hmoved i
    · simp [site, ha] at h

/-! ### A small ledger -/

/-- An article. -/
def article : Item := ⟨"article", 1⟩

/-- The article before anybody has touched it. -/
def untouched : Ledger := { counts := [(article, .zero)] }

/-- The article when one user likes it. -/
def liked : Ledger where
  counts := [(article, ⟨0, 1, 0⟩)]
  likes := [((article, 7), ⟨0, .active⟩)]

theorem answer_untouched : answer (.counts article) untouched = (.ok (some .zero), untouched) := rfl

theorem answer_like : answer (.write (.like article 7)) untouched = (.ok true, liked) := rfl

theorem answer_liked : answer (.counts article) liked = (.ok (some ⟨0, 1, 0⟩), liked) := rfl

end Ledger

end Popularity
