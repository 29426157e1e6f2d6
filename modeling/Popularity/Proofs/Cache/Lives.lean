import Popularity.Proofs.Cache.Recency
import Mathlib.Algebra.Order.Monoid.Unbundled.Basic
import Mathlib.Data.List.Dedup
import Mathlib.Data.List.Perm.Basic
import Mathlib.Logic.Function.Basic

/-!
# What a diary tells

Whatever a cache answers can be read off its diary, item by item, without looking at any entry. An
item is held from when it is set until it is deleted, found dead or has to go. While it is held, its
counts are those it was set to and what was added since. It dies one lifetime after it was set,
whatever happens in between.

To set an item that is not held costs another one its place if there is no room for one more: the
one whose last use is the longest ago. To set an item is to use it, and so is to ask for it or to
adjust it while it is alive.

`Diary.lives` says this as a recursion over the diary, one clause for each sentence above. The
entries of the cache are the lives it tells, in the order of their last use.

## Main definitions

* `Cache.Life` — what a diary tells of an item that is held
* `Cache.Diary.lives`, `Cache.Diary.answer`
* `Cache.Diary.lastSet?`, `Cache.Diary.gained` — what an item was set to, and what was added since
* `Cache.Listed` — some lives listed in the order of their last use

## Main results

* `Cache.Listed.remove`, `Cache.Listed.touch`, `Cache.Listed.insert` — how a list of lives changes
* `Cache.Shown.exec` — what one operation does, and what it answers
* `Cache.Diary.lives_eq_some` — what a life is made of
* `Cache.exec_eq_answer`
-/

namespace Popularity.Cache

/-! ### Lives -/

/-- What a diary tells of an item that is held. -/
structure Life where
  /-- When the item was last set. -/
  since : Nat
  /-- The counts it was set to. -/
  initial : Counts
  /-- What has been added to each counter since. -/
  gained : Counter → Int
  /-- How much had been asked before the item was last used. -/
  used : Nat

namespace Life

/-- The value of a counter. -/
def amount (l : Life) (k : Counter) : Int := (l.initial.get k).toInt + l.gained k

/-- The values of the counters as counts. -/
def counts (l : Life) : Counts where
  reads := Int64.ofInt (l.amount .reads)
  likes := Int64.ofInt (l.amount .likes)
  collects := Int64.ofInt (l.amount .collects)

/-- Whether the item is still alive. -/
def alive (lifetime now : Nat) (l : Life) : Bool := now < l.since + lifetime

/-- The life of an item that is set. -/
def new (now : Nat) (n : Counts) (used : Nat) : Life := ⟨now, n, fun _ => 0, used⟩

/-- A counter has been added to. -/
def gain (l : Life) (k : Counter) (d : Int) : Life :=
  { l with gained := fun k' => l.gained k' + if k' = k then d else 0 }

/-- The item has been used. -/
def use (l : Life) (used : Nat) : Life := { l with used }

/-- The sum of an adjustment, if it fits. -/
def sum? (l : Life) (k : Counter) (d : Int64) : Option Int64 := Word.ofInt? (l.amount k + d.toInt)

/-- What becomes of the life of an item that is asked for or adjusted. A sum that does not fit is
not added, but the item has been used. -/
def next (l : Life) (used : Nat) : Op → Life
  | .get _ => l.use used
  | .adjust _ k d => if (l.sum? k d).isSome then (l.gain k d.toInt).use used else l.use used
  | _ => l

end Life

/-! ### The diary -/

namespace Op

/-- The item that an operation is about. -/
def item? : Op → Option Item
  | .get i | .set i _ | .adjust i _ _ | .delete i => some i
  | .size => none

/-- The item that an operation sets. -/
def set? : Op → Option Item
  | .set i _ => some i
  | _ => none

end Op

namespace Diary

/-- The items that have ever been set. -/
def items (d : Diary) : List Item := (d.filterMap (·.op.set?)).dedup

/-- The items that are held. -/
def held (d : Diary) (lives : Item → Option Life) : List Item :=
  d.items.filter fun i => (lives i).isSome

/-- Whether of all items that are held none was used longer ago than `i`. -/
def oldest (d : Diary) (lives : Item → Option Life) (i : Item) : Bool :=
  (d.held lives).all fun j => (lives i).all fun l => (lives j).all fun l' => l.used ≤ l'.used

/-- Whether to set `j` costs `i` its place. -/
def evicts (room : Nat) (d : Diary) (lives : Item → Option Life) (j i : Item) : Bool :=
  (lives j).isNone && room ≤ (d.held lives).length && d.oldest lives i

/-- What a diary tells of an item. -/
def lives (room lifetime : Nat) : Diary → Item → Option Life
  | [], _ => none
  | a :: d, i =>
    let known := lives room lifetime d
    match a.op with
    | .set j n =>
      if i = j then some (.new a.now n d.length)
      else if evicts room d known j i then none
      else known i
    | .get j | .adjust j _ _ =>
      if i = j then ((known i).filter (·.alive lifetime a.now)).map (·.next d.length a.op)
      else known i
    | .delete j => if i = j then none else known i
    | .size => known i

/-- What is answered after all that is in the diary. -/
def answer (room lifetime : Nat) (d : Diary) (now : Nat) : (o : Op) → Except Crash o.Answer
  | .get i => .ok (((d.lives room lifetime i).filter (·.alive lifetime now)).map (·.counts))
  | .set .. => .ok ()
  | .adjust i k by_ =>
    match (d.lives room lifetime i).filter (·.alive lifetime now) with
    | none => .ok .skipped
    | some l =>
      match l.sum? k by_ with
      | some v => .ok (.applied v)
      | none => .error .counterOverflow
  | .delete _ => .ok ()
  | .size => .ok (d.held (d.lives room lifetime)).length

/-- When an item was last set, and to which counts. -/
def lastSet? (i : Item) (d : Diary) : Option (Nat × Counts) :=
  d.findSome? fun a => match a.op with
    | .set j n => if j = i then some (a.now, n) else none
    | _ => none

/-- The sum of all that has been added to a counter of an item since it was last set. -/
def gained (room lifetime : Nat) (i : Item) (k : Counter) : Diary → Int
  | [] => 0
  | a :: d =>
    match a.op with
    | .set j _ => if j = i then 0 else gained room lifetime i k d
    | .adjust j k' by_ =>
      gained room lifetime i k d + if j = i ∧ k' = k ∧
        Adjusted.took (answer room lifetime d a.now (.adjust j k' by_)) then by_.toInt else 0
    | _ => gained room lifetime i k d

/-! ### One operation more -/

variable {room lifetime now : Nat} {d : Diary} {i j : Item}

/-- An item that is asked for or adjusted is used if it is alive, and is gone if it is not. -/
theorem lives_cons_of_use (room lifetime now : Nat) {o : Op}
    (ho : o = .get j ∨ ∃ k by_, o = .adjust j k by_) :
    lives room lifetime (⟨now, o⟩ :: d) = Function.update (d.lives room lifetime) j
      (((d.lives room lifetime j).filter (·.alive lifetime now)).map (·.next d.length o)) := by
  funext i
  rw [Function.update_apply]
  by_cases hij : i = j
  · subst hij
    rcases ho with rfl | ⟨k, by_, rfl⟩ <;> simp [lives]
  · rcases ho with rfl | ⟨k, by_, rfl⟩ <;> simp [lives, hij]

theorem lives_cons_delete :
    lives room lifetime (⟨now, .delete j⟩ :: d)
      = Function.update (d.lives room lifetime) j none := by
  funext i
  rw [Function.update_apply]
  rfl

theorem lives_cons_set {n : Counts} :
    lives room lifetime (⟨now, .set j n⟩ :: d) = Function.update
      (fun i => if d.evicts room (d.lives room lifetime) j i then none else d.lives room lifetime i)
      j (some (.new now n d.length)) := by
  funext i
  rw [Function.update_apply]
  rfl

/-- What is held has just been set, or it was held before. -/
theorem lives_of_lives_cons {a : Asked} {l : Life} (h : lives room lifetime (a :: d) i = some l) :
    a.op.set? = some i ∨ ∃ l', d.lives room lifetime i = some l' := by
  obtain ⟨now, o⟩ := a
  have huse : ∀ j, (o = .get j ∨ ∃ k by_, o = .adjust j k by_) →
      ∃ l', d.lives room lifetime i = some l' := by
    intro j ho
    rw [lives_cons_of_use _ _ _ ho, Function.update_apply] at h
    split at h
    next hij =>
      subst hij
      obtain ⟨l', hl', -⟩ := Option.map_eq_some_iff.mp h
      exact ⟨l', (Option.filter_eq_some_iff.mp hl').1⟩
    next => exact ⟨l, h⟩
  cases o with
  | set j n =>
    rw [lives_cons_set, Function.update_apply] at h
    split at h
    next hij => exact .inl (congrArg some hij.symm)
    next =>
      split at h
      next => cases h
      next => exact .inr ⟨l, h⟩
  | get j => exact .inr (huse j (.inl rfl))
  | adjust j k by_ => exact .inr (huse j (.inr ⟨k, by_, rfl⟩))
  | delete j =>
    rw [lives_cons_delete, Function.update_apply] at h
    split at h
    next => cases h
    next => exact .inr ⟨l, h⟩
  | size => exact .inr ⟨l, h⟩

/-- What is held has been set. -/
theorem mem_items_of_lives {l : Life} (h : d.lives room lifetime i = some l) : i ∈ d.items := by
  induction d generalizing l with
  | nil => cases h
  | cons a d ih =>
    rw [items, List.mem_dedup, List.mem_filterMap]
    rcases lives_of_lives_cons h with hset | ⟨l', hl'⟩
    · exact ⟨a, List.mem_cons_self, hset⟩
    · have hi := ih hl'
      rw [items, List.mem_dedup, List.mem_filterMap] at hi
      obtain ⟨b, hb, hset⟩ := hi
      exact ⟨b, List.mem_cons_of_mem a hb, hset⟩

end Diary

/-! ### Lists of lives -/

namespace Life

/-- Whether all counters are in the range that counts can have. -/
def Fits (l : Life) : Prop := ∀ k, (l.counts.get k).toInt = l.amount k

variable {l : Life} {k : Counter}

theorem get_counts (l : Life) (k : Counter) : l.counts.get k = Int64.ofInt (l.amount k) := by
  cases k <;> rfl

theorem counts_new (now : Nat) (n : Counts) (used : Nat) : (new now n used).counts = n := by
  refine Counts.ext_get fun k => ?_
  rw [get_counts, amount]
  change Int64.ofInt ((n.get k).toInt + 0) = n.get k
  rw [Int.add_zero, Int64.ofInt_toInt]

theorem fits_new (now : Nat) (n : Counts) (used : Nat) : (new now n used).Fits := by
  intro k
  rw [counts_new]
  exact (Int.add_zero _).symm

theorem Fits.sum?_eq (h : l.Fits) (k : Counter) (d : Int64) :
    l.sum? k d = Word.plus? (l.counts.get k) d := by
  rw [sum?, Word.plus?, h k]

/-- A sum that fits is what the counter holds afterwards. -/
theorem counts_gain {d v : Int64} (h : l.sum? k d = some v) :
    (l.gain k d.toInt).counts = l.counts.put k v := by
  have hv : v.toInt = l.amount k + d.toInt := Word.toInt_of_ofInt?_eq_some h
  refine Counts.ext_get fun k' => ?_
  rw [get_counts]
  by_cases hk : k' = k
  · subst hk
    have hamount : (l.gain k' d.toInt).amount k' = v.toInt := by
      rw [hv]
      simp [gain, amount, Int.add_assoc]
    rw [hamount, Counts.get_put_self, Int64.ofInt_toInt]
  · have hamount : (l.gain k d.toInt).amount k' = l.amount k' := by simp [gain, amount, hk]
    rw [hamount, Counts.get_put_of_ne _ hk, get_counts]

theorem Fits.gain {d v : Int64} (h : l.Fits) (hv : l.sum? k d = some v) :
    (l.gain k d.toInt).Fits := by
  intro k'
  rw [counts_gain hv]
  by_cases hk : k' = k
  · subst hk
    rw [Counts.get_put_self, Word.toInt_of_ofInt?_eq_some hv]
    simp [Life.gain, amount, Int.add_assoc]
  · rw [Counts.get_put_of_ne _ hk, h k']
    simp [Life.gain, amount, hk]

end Life

/-- Some lives, listed with their items in the order of their last use. -/
structure Listed (ps : List (Item × Life)) (lives : Item → Option Life) (used : Nat) : Prop where
  mem_iff : ∀ i l, (i, l) ∈ ps ↔ lives i = some l
  ordered : ps.Pairwise fun p q => q.2.used < p.2.used
  used_lt : ∀ p ∈ ps, p.2.used < used
  fits : ∀ p ∈ ps, p.2.Fits

namespace Listed

variable {ps : List (Item × Life)} {lives : Item → Option Life} {used : Nat} {i j : Item} {l : Life}

theorem nodup (h : Listed ps lives used) : (ps.map Prod.fst).Nodup := by
  refine List.pairwise_map.mpr (h.ordered.imp_of_mem ?_)
  rintro ⟨i, l⟩ ⟨i', l'⟩ hp hq hlt rfl
  have heq : some l = some l' := ((h.mem_iff i l).mp hp).symm.trans ((h.mem_iff i l').mp hq)
  cases heq
  exact Nat.lt_irrefl _ hlt

theorem later {used' : Nat} (h : Listed ps lives used) (hle : used ≤ used') :
    Listed ps lives used' :=
  ⟨h.mem_iff, h.ordered, fun p hp => Nat.lt_of_lt_of_le (h.used_lt p hp) hle, h.fits⟩

/-- An item is taken off the list. -/
theorem remove (h : Listed ps lives used) (j : Item) :
    Listed (ps.filter (·.1 != j)) (Function.update lives j none) used where
  mem_iff i l := by
    rw [List.mem_filter, h.mem_iff, Function.update_apply]
    by_cases hij : i = j <;> simp [hij]
  ordered := h.ordered.filter _
  used_lt p hp := h.used_lt p (List.mem_of_mem_filter hp)
  fits p hp := h.fits p (List.mem_of_mem_filter hp)

/-- An item that is used comes to the front. -/
theorem touch (h : Listed ps lives used) (hused : l.used = used) (hfits : l.Fits) (j : Item) :
    Listed ((j, l) :: ps.filter (·.1 != j)) (Function.update lives j (some l)) (used + 1) where
  mem_iff i l' := by
    rw [List.mem_cons, Function.update_apply]
    by_cases hij : i = j
    · simp [hij, eq_comm]
    · simp [hij, h.mem_iff]
  ordered := by
    refine List.pairwise_cons.mpr ⟨?_, (h.remove j).ordered⟩
    intro p hp
    rw [hused]
    exact (h.remove j).used_lt p hp
  used_lt p hp := by
    rcases List.mem_cons.mp hp with rfl | hp
    · change l.used < used + 1
      omega
    · exact Nat.lt_succ_of_lt ((h.remove j).used_lt p hp)
  fits p hp := by
    rcases List.mem_cons.mp hp with rfl | hp
    · exact hfits
    · exact (h.remove j).fits p hp

/-- An item that was not on the list comes to the front. -/
theorem insert (h : Listed ps lives used) (hj : lives j = none) (hused : l.used = used)
    (hfits : l.Fits) : Listed ((j, l) :: ps) (Function.update lives j (some l)) (used + 1) := by
  have hps : ps.filter (·.1 != j) = ps := by
    refine List.filter_eq_self.mpr fun p hp => ?_
    rw [bne_iff_ne]
    rintro rfl
    rw [(h.mem_iff p.1 p.2).mp hp] at hj
    cases hj
  have htouch := h.touch hused hfits j
  rwa [hps] at htouch

/-! ### Eviction -/

theorem mem_held {d : Diary} (hitems : ∀ i l, lives i = some l → i ∈ d.items) :
    i ∈ d.held lives ↔ ∃ l, lives i = some l := by
  rw [Diary.held, List.mem_filter, Option.isSome_iff_exists]
  constructor
  · rintro ⟨-, hl⟩
    exact hl
  · rintro ⟨l, hl⟩
    exact ⟨hitems i l hl, l, hl⟩

/-- As many items are held as are on the list. -/
theorem length_held {d : Diary} (h : Listed ps lives used)
    (hitems : ∀ i l, lives i = some l → i ∈ d.items) : (d.held lives).length = ps.length := by
  have hnodup : (d.held lives).Nodup := (List.nodup_dedup _).filter _
  have hperm : (d.held lives).Perm (ps.map Prod.fst) := by
    refine (List.perm_ext_iff_of_nodup hnodup h.nodup).mpr fun i => ?_
    rw [mem_held hitems, List.mem_map]
    constructor
    · rintro ⟨l, hl⟩
      exact ⟨(i, l), (h.mem_iff i l).mpr hl, rfl⟩
    · rintro ⟨⟨i', l⟩, hp, rfl⟩
      exact ⟨l, (h.mem_iff i' l).mp hp⟩
  rw [hperm.length_eq, List.length_map]

/-- Of the items that are held, the last one on the list was used the longest ago. -/
theorem oldest_iff {d : Diary} {v : Item × Life} (h : Listed (ps ++ [v]) lives used)
    (hitems : ∀ i l, lives i = some l → i ∈ d.items) :
    d.oldest lives i = true ↔ i = v.1 ∨ lives i = none := by
  have hv : lives v.1 = some v.2 := (h.mem_iff v.1 v.2).mp (by simp)
  constructor
  · intro hold
    cases hl : lives i with
    | none => exact .inr rfl
    | some l =>
      left
      have hle : l.used ≤ v.2.used := by
        have hmem : v.1 ∈ d.held lives := (mem_held hitems).mpr ⟨v.2, hv⟩
        have hall := List.all_eq_true.mp hold v.1 hmem
        simpa [hl, hv] using hall
      have hmem : (i, l) ∈ ps ++ [v] := (h.mem_iff i l).mpr hl
      rcases List.mem_append.mp hmem with hp | hp
      · have hlt := (List.pairwise_append.mp h.ordered).2.2 _ hp v (by simp)
        exact absurd hle (Nat.not_le.mpr hlt)
      · exact congrArg Prod.fst (List.mem_singleton.mp hp)
  · intro hi
    refine List.all_eq_true.mpr fun j hj => ?_
    rcases hi with rfl | hi
    · obtain ⟨l', hl'⟩ := (mem_held hitems).mp hj
      have hle : v.2.used ≤ l'.used := by
        rcases List.mem_append.mp ((h.mem_iff j l').mpr hl') with hp | hp
        · exact Nat.le_of_lt ((List.pairwise_append.mp h.ordered).2.2 _ hp v (by simp))
        · rw [← List.mem_singleton.mp hp]
      simpa [hv, hl'] using hle
    · simp [hi]

/-- The last one on a list is taken off. -/
theorem dropLast {v : Item × Life} (h : Listed (ps ++ [v]) lives used) :
    Listed ps (Function.update lives v.1 none) used := by
  have hnodup := h.nodup
  rw [List.map_append, List.nodup_append] at hnodup
  have hne : ∀ p ∈ ps, p.1 ≠ v.1 := by
    intro p hp heq
    exact hnodup.2.2 p.1 (List.mem_map_of_mem hp) v.1 (by simp) heq
  have hps : (ps ++ [v]).filter (·.1 != v.1) = ps := by
    rw [List.filter_append, List.filter_eq_self.mpr fun p hp => by simpa using hne p hp]
    simp
  have hremove := h.remove v.1
  rwa [hps] at hremove

end Listed

/-! ### What a cache shows -/

/-- The entry of an item that is held. -/
def entry (lifetime : Nat) (p : Item × Life) : Entry :=
  ⟨p.1.cacheKey, p.2.counts, p.2.since + lifetime⟩

/-- The entries of a cache are the lives that its diary tells of. -/
structure Shown (c : Cache) (d : Diary) (ps : List (Item × Life)) : Prop where
  entries_eq : c.entries = ps.map (entry c.lifetime)
  listed : Listed ps (d.lives c.room c.lifetime) d.length
  orderly : Orderly c

namespace Shown

variable {c : Cache} {d : Diary} {ps : List (Item × Life)} {i j : Item} {l : Life} {a : Asked}
variable {now : Nat}

/-- What is looked up is what the diary tells. -/
theorem lookup?_eq (h : Shown c d ps) (i : Item) :
    c.lookup? i.cacheKey
      = (d.lives c.room c.lifetime i).map fun l => entry c.lifetime (i, l) := by
  cases hl : d.lives c.room c.lifetime i with
  | some l =>
    have hmem : entry c.lifetime (i, l) ∈ c.entries := by
      rw [h.entries_eq]
      exact List.mem_map_of_mem ((h.listed.mem_iff i l).mpr hl)
    exact lookup?_of_mem h.orderly hmem
  | none =>
    cases he : c.lookup? i.cacheKey with
    | none => rfl
    | some e =>
      obtain ⟨hmem, hname⟩ := lookup?_eq_some he
      rw [h.entries_eq] at hmem
      obtain ⟨⟨i', l⟩, hp, rfl⟩ := List.mem_map.mp hmem
      obtain rfl : i' = i := Item.cacheKey_injective hname
      rw [(h.listed.mem_iff i' l).mp hp] at hl
      cases hl

theorem filter_entries (h : Shown c d ps) (j : Item) :
    c.entries.filter (·.name != j.cacheKey)
      = (ps.filter (·.1 != j)).map (entry c.lifetime) := by
  rw [h.entries_eq, List.filter_map]
  congr 1
  refine List.filter_congr fun p _ => ?_
  rw [Bool.eq_iff_iff, Function.comp_apply, bne_iff_ne, bne_iff_ne]
  exact not_congr Item.cacheKey_inj

/-- The cache does not change, and neither does what the diary tells. -/
theorem stay (h : Shown c d ps)
    (hl : Diary.lives c.room c.lifetime (a :: d) = d.lives c.room c.lifetime) :
    Shown c (a :: d) ps where
  entries_eq := h.entries_eq
  listed := by
    rw [hl]
    exact h.listed.later (Nat.le_succ _)
  orderly := h.orderly

/-- An entry is dropped when the life of its item ends. -/
theorem drop (h : Shown c d ps) (hl : Diary.lives c.room c.lifetime (a :: d)
      = Function.update (d.lives c.room c.lifetime) j none) :
    Shown (c.drop j.cacheKey) (a :: d) (ps.filter (·.1 != j)) where
  entries_eq := h.filter_entries j
  listed := by
    rw [room_drop]
    change Listed _ (Diary.lives c.room c.lifetime (a :: d)) _
    rw [hl]
    exact (h.listed.remove j).later (Nat.le_succ _)
  orderly := h.orderly.drop _

/-- The entry of an item that is held comes to the front when the item is used. -/
theorem use {l₀ : Life} (h : Shown c d ps) (hj : d.lives c.room c.lifetime j = some l₀)
    (hl : Diary.lives c.room c.lifetime (a :: d)
      = Function.update (d.lives c.room c.lifetime) j (some l))
    (hused : l.used = d.length) (hfits : l.Fits) :
    Shown (c.hold (entry c.lifetime (j, l))) (a :: d) ((j, l) :: ps.filter (·.1 != j)) where
  entries_eq := by
    have hlookup : c.lookup? j.cacheKey = some (entry c.lifetime (j, l₀)) := by
      rw [h.lookup?_eq, hj, Option.map_some]
    rw [entries_hold_of_mem h.orderly hlookup]
    exact congrArg _ (h.filter_entries j)
  listed := by
    rw [room_hold]
    change Listed _ (Diary.lives c.room c.lifetime (a :: d)) _
    rw [hl]
    exact h.listed.touch hused hfits j
  orderly := h.orderly.hold _

theorem taint (h : Shown c d ps) : Shown { c with tainted := true } d ps :=
  ⟨h.entries_eq, h.listed, ⟨h.orderly.nodup, h.orderly.length_le⟩⟩

/-- An item that is not held is set where there is room for one more. -/
theorem set_of_lt {n : Counts} (h : Shown c d ps) (hj : d.lives c.room c.lifetime j = none)
    (hlt : ps.length < c.room) :
    Shown (c.hold (entry c.lifetime (j, .new now n d.length))) (⟨now, .set j n⟩ :: d)
      ((j, .new now n d.length) :: ps) where
  entries_eq := by
    have hlookup : c.lookup? j.cacheKey = none := by rw [h.lookup?_eq, hj, Option.map_none]
    rw [entries_hold_of_lt hlookup (by rwa [h.entries_eq, List.length_map]), h.entries_eq]
    rfl
  listed := by
    have hkept : (fun i => if d.evicts c.room (d.lives c.room c.lifetime) j i then none
        else d.lives c.room c.lifetime i) = d.lives c.room c.lifetime := by
      funext i
      have hheld := h.listed.length_held fun i l => Diary.mem_items_of_lives
      simp [Diary.evicts, hheld, Nat.not_le.mpr hlt]
    rw [room_hold]
    change Listed _ (Diary.lives c.room c.lifetime _) _
    rw [Diary.lives_cons_set, hkept]
    exact h.listed.insert hj rfl (Life.fits_new now n d.length)
  orderly := h.orderly.hold _

/-- An item that is not held is set where there is no room for one more: what has to go stands
last. -/
theorem set_of_full {n : Counts} {v : Item × Life} (h : Shown c d (ps ++ [v]))
    (hj : d.lives c.room c.lifetime j = none) (hfull : (ps ++ [v]).length = c.room) :
    Shown (c.hold (entry c.lifetime (j, .new now n d.length))) (⟨now, .set j n⟩ :: d)
      ((j, .new now n d.length) :: ps) where
  entries_eq := by
    have hlookup : c.lookup? j.cacheKey = none := by rw [h.lookup?_eq, hj, Option.map_none]
    rw [entries_hold_of_full hlookup (by rwa [h.entries_eq, List.length_map]), h.entries_eq,
      List.map_append, List.map_singleton, List.dropLast_concat]
    rfl
  listed := by
    have hgone : (fun i => if d.evicts c.room (d.lives c.room c.lifetime) j i then none
        else d.lives c.room c.lifetime i)
        = Function.update (d.lives c.room c.lifetime) v.1 none := by
      funext i
      have hheld := h.listed.length_held fun i l => Diary.mem_items_of_lives
      have hevicts : d.evicts c.room (d.lives c.room c.lifetime) j i
          = d.oldest (d.lives c.room c.lifetime) i := by
        rw [Diary.evicts, hj, hheld, hfull]
        simp
      have hiff := h.listed.oldest_iff (i := i) fun i l => Diary.mem_items_of_lives
      rw [hevicts, Function.update_apply]
      by_cases hi : i = v.1
      · rw [if_pos (hiff.mpr (.inl hi)), if_pos hi]
      · rw [if_neg hi]
        split
        next hold =>
          rcases hiff.mp hold with hv | hnone
          · exact absurd hv hi
          · exact hnone.symm
        next => rfl
    have hj' : Function.update (d.lives c.room c.lifetime) v.1 none j = none := by
      rw [Function.update_apply, hj, ite_self]
    rw [room_hold]
    change Listed _ (Diary.lives c.room c.lifetime _) _
    rw [Diary.lives_cons_set, hgone]
    exact h.listed.dropLast.insert hj' rfl (Life.fits_new now n d.length)
  orderly := h.orderly.hold _

/-- Whatever is held already, an item may be set. -/
theorem set (h : Shown c d ps) (now : Nat) (j : Item) (n : Counts) :
    ∃ ps', Shown (c.hold ⟨j.cacheKey, n, now + c.lifetime⟩) (⟨now, .set j n⟩ :: d) ps' := by
  have hentry : entry c.lifetime (j, .new now n d.length)
      = ⟨j.cacheKey, n, now + c.lifetime⟩ := by
    rw [entry, Life.counts_new]
    rfl
  rw [← hentry]
  cases hj : d.lives c.room c.lifetime j with
  | some l₀ =>
    refine ⟨_, h.use hj ?_ rfl (Life.fits_new now n d.length)⟩
    rw [Diary.lives_cons_set]
    congr 1
    funext i
    simp [Diary.evicts, hj]
  | none =>
    have hle := h.orderly.length_le
    rw [h.entries_eq, List.length_map] at hle
    rcases Nat.lt_or_eq_of_le hle with hlt | hfull
    · exact ⟨_, h.set_of_lt hj hlt⟩
    · rcases List.eq_nil_or_concat' ps with rfl | ⟨ps', v, rfl⟩
      · have hroom : 1 ≤ c.room := Nat.le_max_right _ _
        rw [← hfull] at hroom
        exact absurd hroom (by decide)
      · exact ⟨_, h.set_of_full hj hfull⟩

/-! ### Operations -/

/-- A live entry is found just when the diary tells of a live item. -/
theorem filter_alive_eq_some {e : Entry} (h : Shown c d ps) (he : c.lookup? j.cacheKey = some e)
    (hlive : now < e.expiresAt) : ∃ l, entry c.lifetime (j, l) = e ∧ l.Fits ∧
      d.lives c.room c.lifetime j = some l ∧
      (d.lives c.room c.lifetime j).filter (·.alive c.lifetime now) = some l := by
  rw [h.lookup?_eq] at he
  obtain ⟨l, hl, rfl⟩ := Option.map_eq_some_iff.mp he
  have halive : l.alive c.lifetime now = true := decide_eq_true hlive
  have hfits : l.Fits := h.listed.fits (j, l) ((h.listed.mem_iff j l).mpr hl)
  refine ⟨l, rfl, hfits, hl, ?_⟩
  rw [hl, Option.filter_some, if_pos halive]

theorem filter_alive_eq_none {e : Entry} (h : Shown c d ps) (he : c.lookup? j.cacheKey = some e)
    (hdead : e.expiresAt ≤ now) :
    (d.lives c.room c.lifetime j).filter (·.alive c.lifetime now) = none := by
  rw [h.lookup?_eq] at he
  obtain ⟨l, hl, rfl⟩ := Option.map_eq_some_iff.mp he
  have halive : ¬l.alive c.lifetime now = true := fun h =>
    Nat.not_lt.mpr hdead (of_decide_eq_true h)
  rw [hl, Option.filter_some, if_neg halive]

theorem lives_eq_none (h : Shown c d ps) (he : c.lookup? j.cacheKey = none) :
    d.lives c.room c.lifetime j = none := by
  rwa [h.lookup?_eq, Option.map_eq_none_iff] at he

theorem get (h : Shown c d ps) (now : Nat) (j : Item) :
    .ok (c.get now j).1 = d.answer c.room c.lifetime now (.get j) ∧
      ∃ ps', Shown (c.get now j).2 (⟨now, .get j⟩ :: d) ps' := by
  have hlives := Diary.lives_cons_of_use c.room c.lifetime now (d := d)
    (.inl (rfl : Op.get j = .get j))
  rw [Diary.answer]
  rcases get_cases c now j with ⟨e, he, hlive, hg⟩ | ⟨e, he, hdead, hg⟩ | ⟨he, hg⟩ <;> rw [hg]
  · obtain ⟨l, rfl, hfits, hj, halive⟩ := h.filter_alive_eq_some he hlive
    rw [halive] at hlives ⊢
    exact ⟨rfl, _, h.use (l := l.use d.length) hj hlives rfl hfits⟩
  · obtain ⟨-, hname⟩ := lookup?_eq_some he
    have hgone := h.filter_alive_eq_none he hdead
    rw [hgone] at hlives ⊢
    rw [hname]
    exact ⟨rfl, _, h.drop hlives⟩
  · have hnone := h.lives_eq_none he
    rw [hnone, Option.filter_none, Option.map_none] at hlives ⊢
    rw [Function.update_eq_self_iff.mpr hnone.symm] at hlives
    exact ⟨rfl, _, h.stay hlives⟩

theorem adjust (h : Shown c d ps) (now : Nat) (j : Item) (k : Counter) (by_ : Int64) :
    (c.adjust now j k by_).1 = d.answer c.room c.lifetime now (.adjust j k by_) ∧
      ∃ ps', Shown (c.adjust now j k by_).2 (⟨now, .adjust j k by_⟩ :: d) ps' := by
  have hlives := Diary.lives_cons_of_use c.room c.lifetime now (d := d)
    (.inr ⟨k, by_, (rfl : Op.adjust j k by_ = .adjust j k by_)⟩)
  rw [Diary.answer]
  rcases adjust_cases c now j k by_ with
    ⟨e, n, he, hlive, hn, ha⟩ | ⟨e, he, hlive, hn, ha⟩ | ⟨e, he, hdead, ha⟩ | ⟨he, ha⟩ <;> rw [ha]
  · obtain ⟨l, rfl, hfits, hj, halive⟩ := h.filter_alive_eq_some he hlive
    obtain ⟨v, hv, rfl⟩ := Option.map_eq_some_iff.mp hn
    have hsum : l.sum? k by_ = some v := (hfits.sum?_eq k by_).trans hv
    have hnext : l.next d.length (.adjust j k by_) = (l.gain k by_.toInt).use d.length := by
      rw [Life.next, hsum, Option.isSome_some, if_pos rfl]
    have hentry : entry c.lifetime (j, (l.gain k by_.toInt).use d.length)
        = ⟨j.cacheKey, l.counts.put k v, l.since + c.lifetime⟩ := by
      rw [← Life.counts_gain hsum]
      rfl
    rw [halive, Option.map_some, hnext] at hlives
    have hshown := h.use hj hlives rfl (hfits.gain hsum)
    rw [hentry] at hshown
    refine ⟨?_, _, hshown⟩
    rw [halive]
    dsimp only
    rw [hsum, Counts.get_put_self]
  · obtain ⟨l, rfl, hfits, hj, halive⟩ := h.filter_alive_eq_some he hlive
    have hsum : l.sum? k by_ = none := (hfits.sum?_eq k by_).trans (Option.map_eq_none_iff.mp hn)
    have hnext : l.next d.length (.adjust j k by_) = l.use d.length := by
      rw [Life.next, hsum]
      rfl
    rw [halive, Option.map_some, hnext] at hlives
    rw [halive]
    dsimp only
    rw [hsum]
    exact ⟨rfl, _, (h.use (l := l.use d.length) hj hlives rfl hfits).taint⟩
  · obtain ⟨-, hname⟩ := lookup?_eq_some he
    have hgone := h.filter_alive_eq_none he hdead
    rw [hgone] at hlives ⊢
    rw [hname]
    exact ⟨rfl, _, h.drop hlives⟩
  · have hnone := h.lives_eq_none he
    rw [hnone, Option.filter_none, Option.map_none] at hlives
    rw [hnone, Option.filter_none]
    rw [Function.update_eq_self_iff.mpr hnone.symm] at hlives
    exact ⟨rfl, _, h.stay hlives⟩

/-- **One operation more.** The answer is the one that the diary tells, and afterwards the entries
are again what the diary tells. -/
theorem exec (h : Shown c d ps) {a : Asked} (hclock : a.now + c.lifetime ≤ horizon) :
    (c.exec a.now a.op).1 = d.answer c.room c.lifetime a.now a.op ∧
      ∃ ps', Shown (c.exec a.now a.op).2 (a :: d) ps' := by
  obtain ⟨now, o⟩ := a
  cases o with
  | get i => exact h.get now i
  | set i n =>
    rw [Cache.exec]
    rcases set_cases c now i n with ⟨-, hs⟩ | ⟨hlt, -⟩
    · rw [hs]
      exact ⟨rfl, h.set now i n⟩
    · exact absurd hclock (Nat.not_le.mpr hlt)
  | adjust i k by_ => exact h.adjust now i k by_
  | delete i => exact ⟨rfl, _, h.drop Diary.lives_cons_delete⟩
  | size =>
    have hheld := h.listed.length_held fun i l => Diary.mem_items_of_lives
    refine ⟨?_, ps, h.stay rfl⟩
    rw [Diary.answer, hheld, Cache.exec, size, h.entries_eq, List.length_map]

end Shown

/-- After anything that has been asked of it, a cache shows what its diary tells. -/
theorem exists_shown_after {capacity lifetime : Nat} {d : Diary}
    (hclock : ∀ a ∈ d, a.now + lifetime ≤ horizon) :
    ∃ ps, Shown (({ capacity, lifetime } : Cache).after d) d ps := by
  induction d with
  | nil =>
    refine ⟨[], rfl, ?_, orderly_after capacity lifetime []⟩
    exact ⟨fun i l => by simp [Diary.lives], List.Pairwise.nil, nofun, nofun⟩
  | cons a d ih =>
    obtain ⟨ps, hps⟩ := ih fun b hb => hclock b (List.mem_cons_of_mem a hb)
    refine (hps.exec ?_).2
    rw [lifetime_after]
    exact hclock a List.mem_cons_self

/-- What is asked about one item does not concern another, which is as it was, or has to go. -/
theorem Diary.lives_cons_of_ne {room lifetime : Nat} {d : Diary} {a : Asked} {i : Item} {l : Life}
    (hi : a.op.item? ≠ some i) (hl : lives room lifetime (a :: d) i = some l) :
    d.lives room lifetime i = some l := by
  obtain ⟨now, o⟩ := a
  cases o with
  | size => exact hl
  | get j =>
    have hne : i ≠ j := fun heq => hi (congrArg some heq.symm)
    rwa [lives_cons_of_use _ _ _ (.inl rfl), Function.update_of_ne hne] at hl
  | set j n =>
    have hne : i ≠ j := fun heq => hi (congrArg some heq.symm)
    rw [lives_cons_set, Function.update_of_ne hne] at hl
    split at hl
    next => cases hl
    next => exact hl
  | adjust j k by_ =>
    have hne : i ≠ j := fun heq => hi (congrArg some heq.symm)
    rwa [lives_cons_of_use _ _ _ (.inr ⟨k, by_, rfl⟩), Function.update_of_ne hne] at hl
  | delete j =>
    have hne : i ≠ j := fun heq => hi (congrArg some heq.symm)
    rwa [lives_cons_delete, Function.update_of_ne hne] at hl

theorem Diary.lastSet?_cons_of_ne {d : Diary} {a : Asked} {i : Item} (hi : a.op.item? ≠ some i) :
    lastSet? i (a :: d) = d.lastSet? i := by
  obtain ⟨now, o⟩ := a
  cases o with
  | set j n =>
    have hne : j ≠ i := fun heq => hi (congrArg some heq)
    simp [lastSet?, hne]
  | _ => rfl

theorem Diary.gained_cons_of_ne {room lifetime : Nat} {d : Diary} {a : Asked} {i : Item}
    {k : Counter} (hi : a.op.item? ≠ some i) :
    gained room lifetime i k (a :: d) = d.gained room lifetime i k := by
  obtain ⟨now, o⟩ := a
  cases o with
  | set j n =>
    have hne : j ≠ i := fun heq => hi (congrArg some heq)
    simp [gained, hne]
  | adjust j k' by_ =>
    have hne : j ≠ i := fun heq => hi (congrArg some heq)
    simp [gained, hne]
  | _ => rfl

/-- **What a life is made of.** The item was last set when its life began and to the counts it began
with, and its counters have gained what was added since. -/
theorem Diary.lives_eq_some {room lifetime : Nat} {d : Diary} {i : Item} {l : Life}
    (hl : d.lives room lifetime i = some l) :
    d.lastSet? i = some (l.since, l.initial) ∧ ∀ k, l.gained k = d.gained room lifetime i k := by
  induction d generalizing l with
  | nil => cases hl
  | cons a d ih =>
    by_cases hi : a.op.item? = some i
    · obtain ⟨now, o⟩ := a
      cases o with
      | size => cases hi
      | get j =>
        obtain rfl : j = i := Option.some.inj hi
        rw [lives_cons_of_use _ _ _ (.inl rfl), Function.update_self, Option.map_eq_some_iff] at hl
        obtain ⟨l', hl', rfl⟩ := hl
        have hbefore := ih (Option.filter_eq_some_iff.mp hl').1
        exact hbefore
      | set j n =>
        obtain rfl : j = i := Option.some.inj hi
        rw [lives_cons_set, Function.update_self] at hl
        cases hl
        refine ⟨?_, fun k => ?_⟩
        · simp [lastSet?, Life.new]
        · simp [gained, Life.new]
      | adjust j k' by_ =>
        obtain rfl : j = i := Option.some.inj hi
        rw [lives_cons_of_use _ _ _ (.inr ⟨k', by_, rfl⟩), Function.update_self,
          Option.map_eq_some_iff] at hl
        obtain ⟨l', hl', rfl⟩ := hl
        obtain ⟨hset, hgained⟩ := ih (Option.filter_eq_some_iff.mp hl').1
        have htook : Adjusted.took (answer room lifetime d now (.adjust j k' by_))
            = (l'.sum? k' by_).isSome := by
          rw [answer, hl']
          dsimp only
          cases l'.sum? k' by_ <;> rfl
        rw [Life.next]
        cases hsum : (l'.sum? k' by_).isSome with
        | false =>
          refine ⟨hset, fun k => ?_⟩
          simp [gained, Life.use, htook, hsum, hgained]
        | true =>
          refine ⟨hset, fun k => ?_⟩
          simp [gained, Life.use, Life.gain, htook, hsum, hgained, eq_comm]
      | delete j =>
        obtain rfl : j = i := Option.some.inj hi
        rw [lives_cons_delete, Function.update_self] at hl
        cases hl
    · obtain ⟨hset, hgained⟩ := ih (lives_cons_of_ne hi hl)
      refine ⟨?_, fun k => ?_⟩
      · rw [← hset]
        exact lastSet?_cons_of_ne hi
      · rw [hgained, gained_cons_of_ne hi]

/-- **A cache says and holds what its diary tells.** Every answer is the one told by what was asked
before; the entries are those of the items that are held, with their counts and the end of their
lives; the counts are those the item was last set to and what was added since, and never leave the
range of a word; what is asked about one item changes nothing about another that is still there
afterwards; and never more items are held than there is room for. -/
theorem exec_eq_answer {capacity lifetime : Nat} {d : Diary} {a : Asked}
    (hclock : ∀ b ∈ a :: d, b.now + lifetime ≤ horizon) :
    let c := ({ capacity, lifetime } : Cache).after d
    let lives := d.lives (max capacity 1) lifetime
    (c.exec a.now a.op).1 = d.answer (max capacity 1) lifetime a.now a.op ∧
    (∀ e, e ∈ c.entries ↔
      ∃ i l, lives i = some l ∧ e = ⟨i.cacheKey, l.counts, l.since + lifetime⟩) ∧
    (∀ i l, lives i = some l → d.lastSet? i = some (l.since, l.initial) ∧
      ∀ k, (l.counts.get k).toInt
        = (l.initial.get k).toInt + d.gained (max capacity 1) lifetime i k) ∧
    (∀ i e, a.op.item? ≠ some i → (c.exec a.now a.op).2.lookup? i.cacheKey = some e →
      c.lookup? i.cacheKey = some e) ∧
    (c.entries.map (·.name)).Nodup ∧ c.entries.length ≤ max capacity 1 := by
  intro c lives
  obtain ⟨ps, hps⟩ : ∃ ps, Shown c d ps :=
    exists_shown_after fun b hb => hclock b (List.mem_cons_of_mem a hb)
  have hroom : c.room = max capacity 1 := room_after d
  have hlifetime : c.lifetime = lifetime := lifetime_after d
  have hnow : a.now + c.lifetime ≤ horizon := by
    rw [hlifetime]
    exact hclock a List.mem_cons_self
  obtain ⟨hanswer, ps', hps'⟩ := hps.exec hnow
  have hmem := hps.listed.mem_iff
  have hentries := hps.entries_eq
  rw [hroom, hlifetime] at hanswer hmem
  rw [hlifetime] at hentries
  refine ⟨hanswer, ?_, ?_, ?_, hps.orderly.nodup, hroom ▸ hps.orderly.length_le⟩
  · intro e
    rw [hentries, List.mem_map]
    constructor
    · rintro ⟨⟨i, l⟩, hp, rfl⟩
      exact ⟨i, l, (hmem i l).mp hp, rfl⟩
    · rintro ⟨i, l, hl, rfl⟩
      exact ⟨(i, l), (hmem i l).mpr hl, rfl⟩
  · intro i l hl
    obtain ⟨hset, hgained⟩ := Diary.lives_eq_some hl
    refine ⟨hset, fun k => ?_⟩
    rw [← hgained]
    exact hps.listed.fits (i, l) ((hmem i l).mpr hl) k
  · intro i e hi he
    have hcapacity : (c.exec a.now a.op).2.room = c.room := by rw [room, capacity_exec, room]
    rw [hps'.lookup?_eq, lifetime_exec, hcapacity] at he
    obtain ⟨l, hl, rfl⟩ := Option.map_eq_some_iff.mp he
    rw [hps.lookup?_eq, Diary.lives_cons_of_ne hi hl, Option.map_some]

/-- The first book has been used after the second one, which had to go. -/
theorem exec_eq_answer_visits :
    (∀ b ∈ (⟨50, .get (book 1)⟩ :: visits : Diary), b.now + 100 ≤ horizon) ∧
    ((({ capacity := 2, lifetime := 100 } : Cache).after visits).exec 50 (.get (book 1))).1
      = .ok (some ⟨1, 5, 0⟩) := by
  have hclock : ∀ b ∈ (⟨50, .get (book 1)⟩ :: visits : Diary), b.now + 100 ≤ horizon := by decide
  refine ⟨hclock, (exec_eq_answer hclock).1.trans ?_⟩
  decide

end Popularity.Cache
