import Popularity.Cache.Options
import Popularity.Proofs.Registry

/-!
# Entries that are kept right

Beside a store whose rows are known, a live entry is right if it has the counts of its row. After a
write the entries are wrong by the adjustments that are owed, and right again when these have been
made, one after another. None of them leaves the range on the way: the adjustments of one write all
go the same way, so that the counter stays between what it was and what it will be, and these are
both in range.

## Main definitions

* `Cache.Right` — all live entries have the counts of their rows
* `Cache.Owing` — all live entries will, when some adjustments have been made
* `Cache.upkept` — what jobs make of a cache

## Main results

* `Cache.Owing.adjust_ok`, `Cache.Owing.adjust` — an adjustment that is owed does not crash, and
  one less is owed after it
* `Cache.Owing.upkept` — and after all of them the entries are right
-/

namespace Popularity

/-! ### Adjustments that go one way -/

namespace Adjustment

/-- Whether all adjustments go up, or all go down. -/
def OneWay (as : List Adjustment) : Prop :=
  (∀ a ∈ as, 0 ≤ a.by_.toInt) ∨ ∀ a ∈ as, a.by_.toInt ≤ 0

variable {i : Item} {k : Counter} {a : Adjustment} {as : List Adjustment}

theorem OneWay.tail (h : OneWay (a :: as)) : OneWay as := by
  rcases h with hup | hdown
  · exact .inl fun b hb => hup b (List.mem_cons_of_mem a hb)
  · exact .inr fun b hb => hdown b (List.mem_cons_of_mem a hb)

theorem total_nonneg (h : ∀ a ∈ as, 0 ≤ a.by_.toInt) : 0 ≤ total i k as := by
  induction as with
  | nil => exact Int.le_refl 0
  | cons a as ih =>
    have ha := h a List.mem_cons_self
    have has := ih fun b hb => h b (List.mem_cons_of_mem a hb)
    rw [total_cons]
    split <;> omega

theorem total_nonpos (h : ∀ a ∈ as, a.by_.toInt ≤ 0) : total i k as ≤ 0 := by
  induction as with
  | nil => exact Int.le_refl 0
  | cons a as ih =>
    have ha := h a List.mem_cons_self
    have has := ih fun b hb => h b (List.mem_cons_of_mem a hb)
    rw [total_cons]
    split <;> omega

end Adjustment

theorem Write.oneWay_adjustments (w : Write) : Adjustment.OneWay w.adjustments := by
  cases w with
  | read i => exact .inl (by simp [adjustments])
  | readAll is => exact .inl (by simp [adjustments])
  | like i user => exact .inl (by simp [adjustments])
  | unlike i user => exact .inr (by simp [adjustments])
  | collect i user folder => exact .inl (by simp [adjustments])
  | uncollect i user folder => exact .inr (by simp [adjustments])

/-- What lies between two words is a word. -/
theorem Word.exists_toInt_eq {a b : Int64} {n : Int} (ha : a.toInt ≤ n) (hb : n ≤ b.toInt) :
    ∃ w : Int64, w.toInt = n :=
  ⟨Int64.ofInt n, Int64.toInt_ofInt_of_le (Int.le_trans a.le_toInt ha)
    (Int.lt_of_le_of_lt hb b.toInt_lt)⟩

namespace Cache

variable {rows rows' : Item → Option Counts} {now now' : Nat} {c : Cache} {i : Item}
variable {a : Adjustment} {as : List Adjustment}

/-! ### Right entries -/

/-- All live entries have the counts of their rows. -/
def Right (rows : Item → Option Counts) (now : Nat) (c : Cache) : Prop :=
  ∀ e ∈ c.entries, now < e.expiresAt → ∃ i, e.name = i.cacheKey ∧ rows i = some e.counts

/-- All live entries differ from their rows by the adjustments owed. -/
def Owing (rows : Item → Option Counts) (now : Nat) (as : List Adjustment) (c : Cache) : Prop :=
  ∀ e ∈ c.entries, now < e.expiresAt → ∃ i n, e.name = i.cacheKey ∧ rows i = some n ∧
    ∀ k, (n.get k).toInt = (e.counts.get k).toInt + Adjustment.total i k as

theorem right_iff_owing_nil : Right rows now c ↔ Owing rows now [] c := by
  refine forall₃_congr fun e _ _ => exists_congr fun i => ⟨fun h => ?_, fun h => ?_⟩
  · exact ⟨e.counts, h.1, h.2, fun k => by simp⟩
  · obtain ⟨n, hname, hrow, hn⟩ := h
    exact ⟨hname, hrow.trans (congrArg some (Counts.eq_of_toInt_get_eq fun k => by simp [hn k]))⟩

theorem right_build (o : Options) : Right rows now o.build := nofun

/-- Entries only die. -/
theorem Right.later (h : Right rows now c) (hle : now ≤ now') : Right rows now' c :=
  fun e he hlive => h e he (Nat.lt_of_le_of_lt hle hlive)

theorem Right.get (h : Right rows now c) : Right rows now (c.get now i).2 :=
  fun e he hlive => h e (mem_entries_get he) hlive

/-- What is found is the row. -/
theorem Right.row_of_get {n : Counts} (h : Right rows now c) (hn : (c.get now i).1 = some n) :
    rows i = some n := by
  obtain ⟨e, he, hname, hlive, rfl⟩ := get_eq_some hn
  obtain ⟨j, hj, hrow⟩ := h e he hlive
  rwa [Item.cacheKey_injective (hname.symm.trans hj)]

theorem Right.set {n : Counts} (h : Right rows now c) (hn : rows i = some n) :
    Right rows now (c.set now i n).2 := by
  intro e he hlive
  rcases mem_entries_set he with ⟨rfl, -⟩ | ⟨he', -⟩
  · exact ⟨i, rfl, hn⟩
  · exact h e he' hlive

/-- Rows that have moved leave the entries owing. -/
theorem Right.owing_of_moved (h : Right rows now c)
    (hmoved : ∀ i, Row.Moved i as (rows i) (rows' i)) : Owing rows' now as c := by
  intro e he hlive
  obtain ⟨i, hname, hrow⟩ := h e he hlive
  have hi := hmoved i
  rw [hrow] at hi
  obtain ⟨n, hn⟩ := Option.isSome_iff_exists.mp (hi.isSome_iff.mpr (.inl rfl))
  refine ⟨i, n, hname, hn, ?_⟩
  intro k
  have hk := hi.amount k
  rwa [hn] at hk

/-! ### Adjustments -/

/-- An adjustment that is owed does not crash. -/
theorem Owing.adjust_ok (h : Owing rows now (a :: as) c) (hway : Adjustment.OneWay (a :: as)) :
    ∃ out, (c.adjust now a.item a.counter a.by_).1 = .ok out := by
  rcases adjust_cases c now a.item a.counter a.by_ with
    ⟨e, n, -, -, -, ha⟩ | ⟨e, he, hlive, hn, -⟩ | ⟨e, -, -, ha⟩ | ⟨-, ha⟩
  · exact ⟨_, by rw [ha]⟩
  · -- the sum lies between the entry and the row
    obtain ⟨hmem, hname⟩ := lookup?_eq_some he
    obtain ⟨i, n, hi, -, hcounts⟩ := h e hmem hlive
    obtain rfl : a.item = i := Item.cacheKey_injective (hname.symm.trans hi)
    have hk := hcounts a.counter
    rw [Adjustment.total_cons, if_pos ⟨rfl, rfl⟩] at hk
    have hw : ∃ w : Int64, w.toInt = (e.counts.get a.counter).toInt + a.by_.toInt := by
      rcases hway with hup | hdown
      · have := Adjustment.total_nonneg (i := a.item) (k := a.counter)
          fun b hb => hup b (List.mem_cons_of_mem a hb)
        have := hup a List.mem_cons_self
        exact Word.exists_toInt_eq (a := e.counts.get a.counter) (b := n.get a.counter)
          (by omega) (by omega)
      · have := Adjustment.total_nonpos (i := a.item) (k := a.counter)
          fun b hb => hdown b (List.mem_cons_of_mem a hb)
        have := hdown a List.mem_cons_self
        exact Word.exists_toInt_eq (a := n.get a.counter) (b := e.counts.get a.counter)
          (by omega) (by omega)
    obtain ⟨w, hw⟩ := hw
    rw [Counts.add?_eq_some hw] at hn
    cases hn
  · exact ⟨_, by rw [ha]⟩
  · exact ⟨_, by rw [ha]⟩

/-- When it has been made, one less is owed. -/
theorem Owing.adjust (h : Owing rows now (a :: as) c) (hway : Adjustment.OneWay (a :: as)) :
    Owing rows now as (c.adjust now a.item a.counter a.by_).2 := by
  obtain ⟨out, hout⟩ := h.adjust_ok hway
  intro e he hlive
  rcases mem_entries_adjust he with ⟨e₀, he₀, hname, hlive₀, hcounts, hsame, hexp, -⟩ | ⟨he', hne⟩
  · obtain ⟨i, n, hi, hrow, hn⟩ := h e₀ he₀ hlive₀
    obtain rfl : a.item = i := Item.cacheKey_injective (hname.symm.trans hi)
    refine ⟨a.item, n, hsame.trans hi, hrow, ?_⟩
    intro k
    rw [hn, Counts.get_of_add?_eq_some hcounts, Adjustment.total_cons]
    simp
    omega
  · obtain ⟨i, n, hi, hrow, hn⟩ := h e he' hlive
    refine ⟨i, n, hi, hrow, ?_⟩
    intro k
    have hne' : a.item ≠ i := fun heq => hne out hout (heq ▸ hi)
    rw [hn, Adjustment.total_cons, if_neg fun hand => hne' hand.1, Int.zero_add]

/-! ### Upkeep -/

/-- What jobs make of a cache that are done one after another at one time. -/
def upkept (now : Nat) (us : List Upkeep) (c : Cache) : Cache :=
  us.foldl (fun c u => (c.exec now u.op).2) c

theorem upkept_append {us us' : List Upkeep} :
    c.upkept now (us ++ us') = (c.upkept now us).upkept now us' := List.foldl_append

/-- The adjustments that are owed make all entries right. -/
theorem Owing.upkept (h : Owing rows now as c) (hway : Adjustment.OneWay as) :
    Right rows now (c.upkept now (as.map .adjust)) := by
  induction as generalizing c with
  | nil => exact right_iff_owing_nil.mpr h
  | cons a as ih => exact ih (h.adjust hway) hway.tail

end Cache

end Popularity
