import Popularity.Proofs.Cache.Recency
import Popularity.Proofs.Cache.Upkeep

/-!
# A cache after some reads

Reads at one time are told to the cache one after another. What becomes of an entry is known from
the entry and the number of its reads. If it is live it gets them all; if it has expired, the first
of them finds that and removes it, and the others find nothing; and an entry that was not read is
left alone. So the order of the reads does not matter, but for the order of use.

## Main definitions

* `Counts.more` — counts with some more reads
* `Entry.afterReads` — what becomes of an entry
* `Cache.Roomy` — a cache whose live entries have room for some reads
* `Cache.Leaves` — what one read leaves to the others
* `Cache.Alike` — caches that differ in the order of use at most

## Main results

* `Cache.adjust_read`, `Cache.entries_upkept_reads` — what one read does, and what all of them do
* `Cache.alike_upkept_reads` — the order of reads does not matter
-/

namespace Popularity

/-! ### More reads -/

namespace Counts

variable {n : Counts} {a b : Nat}

/-- Counts with some more reads. -/
def more (n : Counts) (a : Nat) : Counts := n.put .reads (Int64.ofInt (n.reads.toInt + a))

theorem more_zero (n : Counts) : n.more 0 = n := by
  rw [more, Int.natCast_zero, Int.add_zero, Int64.ofInt_toInt]
  rfl

theorem toInt_reads_more (h : n.reads.toInt + a < Word.bound) :
    (n.more a).reads.toInt = n.reads.toInt + a := by
  have hlow : -Word.bound ≤ n.reads.toInt := Int64.le_toInt _
  exact Int64.toInt_ofInt_of_le (by change -Word.bound ≤ _; omega) h

theorem more_more (h : n.reads.toInt + a < Word.bound) : (n.more a).more b = n.more (a + b) := by
  rw [more, toInt_reads_more h, Int.add_assoc, ← Int.natCast_add]
  rfl

/-- One more read, if there is room for it. -/
theorem add?_reads (h : n.reads.toInt + 1 < Word.bound) : n.add? .reads 1 = some (n.more 1) := by
  refine add?_eq_some ?_
  exact toInt_reads_more h

end Counts

/-! ### Entries -/

/-- The jobs that tell the cache of some reads. -/
def Upkeep.reads (is : List Item) : List Upkeep := is.map fun i => .adjust ⟨i, .reads, 1⟩

/-- What becomes of an entry when the cache is told of some reads. -/
def Entry.afterReads (now : Nat) (is : List Item) (e : Entry) : Option Entry :=
  if now < e.expiresAt then
    some { e with counts := e.counts.more ((is.map Item.cacheKey).count e.name) }
  else if e.name ∈ is.map Item.cacheKey then none
  else some e

namespace Entry

variable {now : Nat} {i : Item} {is is' : List Item} {e : Entry}

theorem afterReads_nil : Entry.afterReads now [] = some := by
  funext e
  simp [afterReads, Counts.more_zero]

/-- The reads of other items make no difference. -/
theorem afterReads_cons_of_ne (h : e.name ≠ i.cacheKey) :
    e.afterReads now (i :: is) = e.afterReads now is := by
  simp [afterReads, h, List.count_cons_of_ne (Ne.symm h)]

theorem afterReads_of_expired (h : e.expiresAt ≤ now) (hi : e.name = i.cacheKey) :
    e.afterReads now (i :: is) = none := by
  rw [afterReads, if_neg (Nat.not_lt.mpr h), if_pos (by simp [hi])]

/-- The reads of an entry may be told one after another. -/
theorem afterReads_cons_of_live (hlive : now < e.expiresAt) (hi : e.name = i.cacheKey)
    (hroom : e.counts.reads.toInt + 1 < Word.bound) :
    e.afterReads now (i :: is)
      = ({ e with counts := e.counts.more 1 } : Entry).afterReads now is := by
  have hcount : ((i :: is).map Item.cacheKey).count e.name
      = 1 + (is.map Item.cacheKey).count e.name := by
    rw [List.map_cons, hi, List.count_cons_self, Nat.add_comm]
  have hmore (b : Nat) : (e.counts.more 1).more b = e.counts.more (1 + b) := Counts.more_more hroom
  rw [afterReads, if_pos hlive, hcount, afterReads, if_pos hlive, hmore]

theorem afterReads_perm (h : is.Perm is') :
    Entry.afterReads now is = Entry.afterReads now is' := by
  have hnames := h.map Item.cacheKey
  funext e
  rw [afterReads, afterReads, hnames.count_eq]
  simp only [hnames.mem_iff]

end Entry

/-! ### Caches -/

namespace Cache

variable {now : Nat} {i : Item} {is is' : List Item} {c c' c'' : Cache} {e : Entry}

/-- All live entries have room for some reads. -/
def Roomy (now : Nat) (is : List Item) (c : Cache) : Prop :=
  ∀ e ∈ c.entries, now < e.expiresAt →
    e.counts.reads.toInt + (is.map Item.cacheKey).count e.name < Word.bound

/-- Caches that hold the same entries, but may have used them in another order. -/
structure Alike (c c' : Cache) : Prop where
  entries : c.entries.Perm c'.entries
  capacity : c.capacity = c'.capacity
  lifetime : c.lifetime = c'.lifetime
  tainted : c.tainted = c'.tainted

theorem Roomy.perm (h : c.Roomy now is) (hperm : is.Perm is') : c.Roomy now is' := by
  intro e he hlive
  rw [← (hperm.map Item.cacheKey).count_eq]
  exact h e he hlive

/-- What becomes of entries that are not read is the same with the reads and without. -/
theorem filterMap_afterReads_filter (i : Item) (is : List Item) (es : List Entry) :
    (es.filter (·.name != i.cacheKey)).filterMap (Entry.afterReads now (i :: is))
      = (es.filter (·.name != i.cacheKey)).filterMap (Entry.afterReads now is) :=
  List.filterMap_congr fun e he =>
    Entry.afterReads_cons_of_ne (by simpa using (List.mem_filter.mp he).2)

theorem Roomy.tail (h : c.Roomy now (i :: is)) : c.Roomy now is := by
  intro e he hlive
  have hfirst := h e he hlive
  rw [List.map_cons, List.count_cons] at hfirst
  omega

/-- There is room for a read of an entry, and for its other reads after that. -/
theorem Roomy.head (h : c.Roomy now (i :: is)) (he : e ∈ c.entries) (hname : e.name = i.cacheKey)
    (hlive : now < e.expiresAt) :
    e.counts.reads.toInt + 1 + (is.map Item.cacheKey).count e.name < Word.bound := by
  have hfirst := h e he hlive
  rw [List.map_cons, hname, List.count_cons_self] at hfirst
  rw [hname]
  omega

/-- What one read leaves to the others: the cache `c'` they find comes to what `c` comes to with
all of them. -/
structure Leaves (now : Nat) (i : Item) (is : List Item) (c c' : Cache) : Prop where
  roomy : c'.Roomy now is
  entries : (c'.entries.filterMap (Entry.afterReads now is)).Perm
    (c.entries.filterMap (Entry.afterReads now (i :: is)))
  tainted : c'.tainted = c.tainted

theorem leaves_live (hc : Orderly c) (hroom : c.Roomy now (i :: is))
    (hl : c.lookup? i.cacheKey = some e) (hlive : now < e.expiresAt) :
    Leaves now i is c (c.hold { e with counts := e.counts.more 1 }) := by
  obtain ⟨he, hname⟩ := lookup?_eq_some hl
  have hlast := hroom.head he hname hlive
  have hnext : e.counts.reads.toInt + 1 < Word.bound := by omega
  have hentries := entries_hold_of_mem (e := { e with counts := e.counts.more 1 }) hc
    (hname ▸ hl : c.lookup? e.name = some e)
  refine ⟨fun e' he' hlive' => ?_, ?_, rfl⟩
  · rw [hentries] at he'
    rcases List.mem_cons.mp he' with rfl | he'
    · change (e.counts.more 1).reads.toInt + _ < _
      rw [Counts.toInt_reads_more hnext]
      exact hlast
    · exact hroom.tail e' (List.mem_filter.mp he').1 hlive'
  · refine List.Perm.trans ?_ ((hc.perm_cons he).filterMap _).symm
    rw [hentries, List.filterMap_cons, List.filterMap_cons,
      Entry.afterReads_cons_of_live hlive hname hnext, hname, filterMap_afterReads_filter]

theorem leaves_expired (hc : Orderly c) (hroom : c.Roomy now (i :: is))
    (hl : c.lookup? i.cacheKey = some e) (hdead : e.expiresAt ≤ now) :
    Leaves now i is c (c.drop e.name) := by
  obtain ⟨he, hname⟩ := lookup?_eq_some hl
  refine ⟨fun e' he' => hroom.tail e' (List.mem_filter.mp he').1, ?_, rfl⟩
  refine List.Perm.trans ?_ ((hc.perm_cons he).filterMap _).symm
  rw [List.filterMap_cons, Entry.afterReads_of_expired hdead hname, drop, hname,
    filterMap_afterReads_filter]

theorem leaves_absent (hroom : c.Roomy now (i :: is)) (hl : c.lookup? i.cacheKey = none) :
    Leaves now i is c c := by
  refine ⟨hroom.tail, List.Perm.of_eq (List.filterMap_congr fun e he => ?_), rfl⟩
  exact (Entry.afterReads_cons_of_ne (lookup?_eq_none hl e he)).symm

/-- **A read is told to the cache and leaves the others.** -/
theorem adjust_read (hc : Orderly c) (hroom : c.Roomy now (i :: is)) :
    (∃ out, (c.adjust now i .reads 1).1 = .ok out) ∧
      Leaves now i is c (c.adjust now i .reads 1).2 := by
  have hadds {e : Entry} (hl : c.lookup? i.cacheKey = some e) (hlive : now < e.expiresAt) :
      e.counts.add? .reads 1 = some (e.counts.more 1) := by
    have hlast := hroom.head (lookup?_eq_some hl).1 (lookup?_eq_some hl).2 hlive
    exact Counts.add?_reads (by omega)
  rcases adjust_cases c now i .reads 1 with
    ⟨e, n, hl, hlive, hadd, h⟩ | ⟨e, hl, hlive, hadd, -⟩ | ⟨e, hl, hdead, h⟩ | ⟨hl, h⟩
  · obtain rfl : e.counts.more 1 = n := Option.some.inj ((hadds hl hlive).symm.trans hadd)
    rw [h]
    exact ⟨⟨_, rfl⟩, leaves_live hc hroom hl hlive⟩
  · rw [hadds hl hlive] at hadd
    cases hadd
  · rw [h]
    exact ⟨⟨_, rfl⟩, leaves_expired hc hroom hl hdead⟩
  · rw [h]
    exact ⟨⟨_, rfl⟩, leaves_absent hroom hl⟩

/-- **What becomes of a cache that is told of some reads.** -/
theorem entries_upkept_reads (hc : Orderly c) (hroom : c.Roomy now is) :
    (c.upkept now (Upkeep.reads is)).entries.Perm (c.entries.filterMap (Entry.afterReads now is)) ∧
      (c.upkept now (Upkeep.reads is)).tainted = c.tainted := by
  induction is generalizing c with
  | nil =>
    refine ⟨List.Perm.of_eq ?_, rfl⟩
    rw [Entry.afterReads_nil, List.filterMap_some]
    rfl
  | cons i is ih =>
    have hleaves := (adjust_read hc hroom).2
    obtain ⟨hentries, htainted⟩ := ih (hc.exec now (.adjust i .reads 1)) hleaves.roomy
    exact ⟨hentries.trans hleaves.entries, htainted.trans hleaves.tainted⟩

@[simp] theorem capacity_upkept (c : Cache) (now : Nat) (us : List Upkeep) :
    (c.upkept now us).capacity = c.capacity := by
  induction us generalizing c with
  | nil => rfl
  | cons u us ih => exact (ih _).trans (capacity_exec c now u.op)

@[simp] theorem lifetime_upkept (c : Cache) (now : Nat) (us : List Upkeep) :
    (c.upkept now us).lifetime = c.lifetime := by
  induction us generalizing c with
  | nil => rfl
  | cons u us ih => exact (ih _).trans (lifetime_exec c now u.op)

/-- **The order in which a cache is told of reads does not matter.** -/
theorem alike_upkept_reads (hc : Orderly c) (hroom : c.Roomy now is) (hperm : is.Perm is') :
    (c.upkept now (Upkeep.reads is)).Alike (c.upkept now (Upkeep.reads is')) := by
  obtain ⟨hentries, htainted⟩ := entries_upkept_reads hc hroom
  obtain ⟨hentries', htainted'⟩ := entries_upkept_reads hc (hroom.perm hperm)
  refine ⟨hentries.trans ?_, by simp, by simp, htainted.trans htainted'.symm⟩
  rw [Entry.afterReads_perm hperm]
  exact hentries'.symm

end Cache

end Popularity
