import Popularity.Proofs.Cache.Lives
import Popularity.Proofs.Cache.Taint
import Mathlib.Data.List.Forall2

/-!
# Entries are kept apart

A cache knows its items by their names only, and an entry by nothing else. That the entries of two
items never get mixed up is a fact about the names: the kind of an item is free text, which may hold
colons and digits and look like the name of another item, and still no two items have one name.

So an operation about one item lets the entries of all others be, but for one case: to set an item
may cost another one its place. And what it answers has nothing to do with the counts of the others.
It depends on them neither directly nor through the room that they take, because which entry has to
go is a matter of names and of the order of use alone. This is said of two caches of which the same
has been asked, but with other counts for the other items.

## Main definitions

* `Cache.evicts` — whether an operation costs an item its entry
* `Entry.Matches`, `Cache.Matches`, `Cache.Op.Matches`, `Cache.Asked.Matches` — alike but for the
  counts of other items

## Main results

* `Cache.lookup?_exec_of_ne` — what an operation does to the entries of other items
* `Cache.Matches.exec`, `Cache.Matches.after`
* `Cache.entries_apart`
-/

namespace Popularity

namespace Cache

variable {c c' : Cache} {e e₀ : Entry} {i j : Item} {name : String} {now : Nat} {o o' : Op}

/-! ### Entries of other names -/

theorem find?_filter_of_ne {es : List Entry} {name' : String} (hne : name ≠ name') :
    (es.filter (·.name != name')).find? (·.name == name) = es.find? (·.name == name) := by
  rw [List.find?_filter]
  congr 1
  funext e
  by_cases he : e.name = name
  · simp [he, hne]
  · simp [he]

theorem lookup?_drop_of_ne {name' : String} (hne : name ≠ name') :
    (c.drop name').lookup? name = c.lookup? name :=
  find?_filter_of_ne hne

/-- To hold an entry that was held changes none of the others. -/
theorem lookup?_hold_of_ne (h : Orderly c) (hl : c.lookup? e.name = some e₀) (hne : name ≠ e.name) :
    (c.hold e).lookup? name = c.lookup? name := by
  rw [lookup?, entries_hold_of_mem h hl, List.find?_cons_of_neg (by simpa using hne.symm)]
  exact find?_filter_of_ne hne

/-- What is held is found. -/
theorem lookup?_hold (c : Cache) (e : Entry) : (c.hold e).lookup? e.name = some e := by
  have hroom : c.room = c.room - 1 + 1 := by
    have : 1 ≤ c.room := Nat.le_max_right _ _
    omega
  rw [lookup?, hold, hroom, List.take_succ_cons, List.find?_cons_of_pos (by simp)]

/-! ### Eviction -/

/-- Whether an operation costs an item its entry: it sets an item that has no entry, there is no
room for one more, and the entry is the last one. -/
def evicts (c : Cache) (now : Nat) (o : Op) (i : Item) : Bool :=
  match o with
  | .set j _ => c.locks now o && (c.lookup? j.cacheKey).isNone && c.size == c.room
      && c.entries.getLast?.any (·.name == i.cacheKey)
  | _ => false

/-- Without its last entry a cache holds the others. -/
theorem find?_dropLast (h : Orderly c) (name : String) :
    c.entries.dropLast.find? (·.name == name)
      = if c.entries.getLast?.any (·.name == name) then none else c.lookup? name := by
  rcases List.eq_nil_or_concat' c.entries with hnil | ⟨es, e, hes⟩
  · simp [lookup?, hnil]
  have hnodup := h.nodup
  rw [hes, List.map_append, List.nodup_append] at hnodup
  rw [lookup?, hes, List.dropLast_concat, List.getLast?_concat, Option.any_some, List.find?_append]
  by_cases he : e.name = name
  · rw [if_pos (by simpa using he), List.find?_eq_none]
    intro e' he' heq
    refine hnodup.2.2 e'.name (List.mem_map_of_mem he') e.name (by simp) ?_
    rw [he]
    simpa using heq
  · simp [he]

/-- To hold an entry of a new name takes a place, if need be that of the last entry. -/
theorem lookup?_hold_of_new (h : Orderly c) (hl : c.lookup? e.name = none) (hne : name ≠ e.name) :
    (c.hold e).lookup? name
      = if c.size == c.room && c.entries.getLast?.any (·.name == name) then none
        else c.lookup? name := by
  rcases Nat.lt_or_eq_of_le h.length_le with hlt | hfull
  · have hroom : (c.size == c.room) = false := by simpa [size] using Nat.ne_of_lt hlt
    rw [lookup?, entries_hold_of_lt hl hlt, List.find?_cons_of_neg (by simpa using hne.symm), hroom,
      Bool.false_and]
    rfl
  · have hroom : (c.size == c.room) = true := by simpa [size] using hfull
    rw [lookup?, entries_hold_of_full hl hfull, List.find?_cons_of_neg (by simpa using hne.symm),
      hroom, Bool.true_and]
    exact find?_dropLast h name

/-- Only an operation that sets another item evicts one. -/
theorem exists_set_of_evicts (h : c.evicts now o i = true) : ∃ j n, o = .set j n ∧ j ≠ i := by
  cases o with
  | set j n =>
    refine ⟨j, n, rfl, ?_⟩
    rintro rfl
    simp only [evicts, Bool.and_eq_true, Option.isNone_iff_eq_none] at h
    obtain ⟨⟨⟨-, hnone⟩, -⟩, hlast⟩ := h
    cases he : c.entries.getLast? with
    | none => simp [he] at hlast
    | some e =>
      have hname : e.name = j.cacheKey := by simpa [he] using hlast
      exact lookup?_eq_none hnone e (List.mem_of_getLast? he) hname
  | get j => cases h
  | adjust j k by_ => cases h
  | delete j => cases h
  | size => cases h

/-- **An operation about one item** changes no entry of another, and at most costs it its place. -/
theorem lookup?_exec_of_ne (h : Orderly c) (hi : o.item? ≠ some i) :
    (c.exec now o).2.lookup? i.cacheKey
      = if c.evicts now o i then none else c.lookup? i.cacheKey := by
  have hkey (j : Item) (hj : o.item? = some j) {e : Entry} (hl : c.lookup? j.cacheKey = some e) :
      i.cacheKey ≠ e.name := by
    rw [(lookup?_eq_some hl).2]
    intro heq
    rw [Item.cacheKey_inj.mp heq] at hi
    exact hi hj
  cases o with
  | get j =>
    rw [exec]
    rcases get_cases c now j with ⟨e, hl, -, hg⟩ | ⟨e, hl, -, hg⟩ | ⟨-, hg⟩ <;> rw [hg]
    · exact lookup?_hold_of_ne h ((lookup?_eq_some hl).2 ▸ hl) (hkey j rfl hl)
    · exact lookup?_drop_of_ne (hkey j rfl hl)
    · rfl
  | set j n =>
    have hne : i.cacheKey ≠ j.cacheKey := fun heq =>
      hi (congrArg some (Item.cacheKey_inj.mp heq).symm)
    rw [exec]
    rcases set_cases c now j n with ⟨hclock, hs⟩ | ⟨hclock, hs⟩ <;> rw [hs]
    · cases hl : c.lookup? j.cacheKey with
      | none =>
        rw [lookup?_hold_of_new h hl hne]
        simp [evicts, locks, hclock, hl]
      | some e =>
        rw [lookup?_hold_of_ne (e := ⟨j.cacheKey, n, now + c.lifetime⟩) h hl hne]
        simp [evicts, hl]
    · simp [evicts, locks, Nat.not_le.mpr hclock]
  | adjust j k by_ =>
    rw [exec]
    rcases adjust_cases c now j k by_ with
      ⟨e, n, hl, -, -, ha⟩ | ⟨e, hl, -, -, ha⟩ | ⟨e, hl, -, ha⟩ | ⟨-, ha⟩ <;> rw [ha]
    · have hne : i.cacheKey ≠ e.name := hkey j rfl hl
      exact lookup?_hold_of_ne (e := { e with counts := n }) h ((lookup?_eq_some hl).2 ▸ hl) hne
    · exact lookup?_hold_of_ne h ((lookup?_eq_some hl).2 ▸ hl) (hkey j rfl hl)
    · exact lookup?_drop_of_ne (hkey j rfl hl)
    · rfl
  | delete j =>
    exact lookup?_drop_of_ne fun heq => hi (congrArg some (Item.cacheKey_inj.mp heq).symm)
  | size => rfl

end Cache

/-! ### Alike but for other counts -/

/-- Entries of one name and one end of life, with the same counts if they are those of an item. -/
structure Entry.Matches (i : Item) (e e' : Entry) : Prop where
  name_eq : e.name = e'.name
  expiresAt_eq : e.expiresAt = e'.expiresAt
  counts_eq : e.name = i.cacheKey → e.counts = e'.counts

namespace Cache

/-- Caches that hold the same items in the same order, and the same counts for one of them. -/
structure Matches (i : Item) (c c' : Cache) : Prop where
  entries : List.Forall₂ (Entry.Matches i) c.entries c'.entries
  capacity_eq : c.capacity = c'.capacity
  lifetime_eq : c.lifetime = c'.lifetime

/-- Operations of one sort about one item, and the very same ones if it is `i`. -/
inductive Op.Matches (i : Item) : Op → Op → Prop
  | get (j : Item) : Matches i (.get j) (.get j)
  | set (j : Item) {n n' : Counts} (h : j = i → n = n') : Matches i (.set j n) (.set j n')
  | adjust (j : Item) {k k' : Counter} {by_ by_' : Int64} (h : j = i → k = k' ∧ by_ = by_') :
    Matches i (.adjust j k by_) (.adjust j k' by_')
  | delete (j : Item) : Matches i (.delete j) (.delete j)
  | size : Matches i .size .size

/-- The same for what was asked for at one time. -/
structure Asked.Matches (i : Item) (a a' : Asked) : Prop where
  now_eq : a.now = a'.now
  op : a.op.Matches i a'.op

namespace Matches

variable {c c' : Cache} {e e' : Entry} {i j : Item} {now : Nat} {o o' : Op}

theorem find? {es es' : List Entry} (h : List.Forall₂ (Entry.Matches i) es es') (name : String) :
    Option.Rel (Entry.Matches i) (es.find? (·.name == name)) (es'.find? (·.name == name)) := by
  induction h with
  | nil => exact .none
  | @cons e e' es es' he hes ih =>
    simp only [List.find?_cons, he.name_eq]
    cases e'.name == name with
    | true => exact .some he
    | false => exact ih

theorem lookup? (h : Matches i c c') (name : String) :
    Option.Rel (Entry.Matches i) (c.lookup? name) (c'.lookup? name) :=
  find? h.entries name

theorem filter (h : Matches i c c') (name : String) :
    List.Forall₂ (Entry.Matches i) (c.entries.filter (·.name != name))
      (c'.entries.filter (·.name != name)) := by
  refine List.rel_filter ?_ h.entries
  intro e e' he
  simp only [he.name_eq]

theorem drop (h : Matches i c c') (name : String) : Matches i (c.drop name) (c'.drop name) :=
  ⟨h.filter name, h.capacity_eq, h.lifetime_eq⟩

theorem hold (h : Matches i c c') (he : e.Matches i e') : Matches i (c.hold e) (c'.hold e') where
  entries := by
    have hroom : c.room = c'.room := by rw [room, room, h.capacity_eq]
    rw [Cache.hold, Cache.hold, he.name_eq, hroom]
    exact List.forall₂_take _ (.cons he (h.filter e'.name))
  capacity_eq := h.capacity_eq
  lifetime_eq := h.lifetime_eq

theorem taint (h : Matches i c c') (a b : Bool) :
    Matches i { c with tainted := a } { c' with tainted := b } :=
  ⟨h.entries, h.capacity_eq, h.lifetime_eq⟩

/-! ### Operations -/

/-- Both caches hold an item, alike but for its counts, or neither does. -/
theorem lookup?_cases (h : Matches i c c') (j : Item) :
    (∃ e e', c.lookup? j.cacheKey = some e ∧ c'.lookup? j.cacheKey = some e' ∧ e.Matches i e' ∧
      (j = i → e.counts = e'.counts)) ∨
    c.lookup? j.cacheKey = none ∧ c'.lookup? j.cacheKey = none := by
  have hrel := h.lookup? j.cacheKey
  cases hc : c.lookup? j.cacheKey with
  | none =>
    cases hc' : c'.lookup? j.cacheKey with
    | none => exact .inr ⟨rfl, rfl⟩
    | some e' => rw [hc, hc'] at hrel; cases hrel
  | some e =>
    cases hc' : c'.lookup? j.cacheKey with
    | none => rw [hc, hc'] at hrel; cases hrel
    | some e' =>
      rw [hc, hc'] at hrel
      obtain ⟨hmatch⟩ := hrel
      refine .inl ⟨e, e', rfl, rfl, hmatch, ?_⟩
      rintro rfl
      exact hmatch.counts_eq (lookup?_eq_some hc).2

/-- The entry of the one item is the same in both. -/
theorem lookup?_self (h : Matches i c c') : c.lookup? i.cacheKey = c'.lookup? i.cacheKey := by
  rcases h.lookup?_cases i with ⟨e, e', hc, hc', he, hcounts⟩ | ⟨hc, hc'⟩
  · obtain ⟨name, n, ends⟩ := e
    obtain ⟨rfl, rfl, -⟩ := he
    rw [hc, hc', show n = e'.counts from hcounts rfl]
  · rw [hc, hc']

theorem get (h : Matches i c c') (now : Nat) (j : Item) :
    Matches i (c.get now j).2 (c'.get now j).2 ∧
      (j = i → (c.get now j).1 = (c'.get now j).1) := by
  rcases h.lookup?_cases j with ⟨e, e', hc, hc', he, hcounts⟩ | ⟨hc, hc'⟩ <;>
    rw [Cache.get, Cache.get, hc, hc']
  · dsimp only
    rw [he.expiresAt_eq]
    split
    · exact ⟨h.hold he, fun hj => congrArg some (hcounts hj)⟩
    · rw [he.name_eq]
      exact ⟨h.drop _, fun _ => rfl⟩
  · exact ⟨h, fun _ => rfl⟩

theorem set (h : Matches i c c') (now : Nat) (j : Item) {n n' : Counts} (hn : j = i → n = n') :
    Matches i (c.set now j n).2 (c'.set now j n').2 ∧
      (c.set now j n).1 = (c'.set now j n').1 := by
  rw [Cache.set, Cache.set, h.lifetime_eq]
  split
  · exact ⟨h, rfl⟩
  · exact ⟨h.hold ⟨rfl, rfl, fun hname => hn (Item.cacheKey_inj.mp hname)⟩, rfl⟩

theorem adjust (h : Matches i c c') (now : Nat) (j : Item) {k k' : Counter} {by_ by_' : Int64}
    (hk : j = i → k = k' ∧ by_ = by_') :
    Matches i (c.adjust now j k by_).2 (c'.adjust now j k' by_').2 ∧
      (j = i → (c.adjust now j k by_).1 = (c'.adjust now j k' by_').1) := by
  rcases h.lookup?_cases j with ⟨e, e', hc, hc', he, hcounts⟩ | ⟨hc, hc'⟩ <;>
    rw [Cache.adjust, Cache.adjust, hc, hc']
  · dsimp only
    by_cases hlive : now < e.expiresAt
    · rw [if_pos hlive, if_pos (he.expiresAt_eq ▸ hlive)]
      have hheld {n n' : Counts} (hn : j = i → n = n') :
          Matches i (c.hold { e with counts := n }) (c'.hold { e' with counts := n' }) :=
        h.hold ⟨he.name_eq, he.expiresAt_eq, fun hname =>
          hn (Item.cacheKey_inj.mp ((lookup?_eq_some hc).2.symm.trans hname))⟩
      by_cases hj : j = i
      · obtain ⟨rfl, rfl⟩ := hk hj
        rw [hcounts hj]
        cases e'.counts.add? k by_ with
        | some n => exact ⟨hheld fun _ => rfl, fun _ => rfl⟩
        | none => exact ⟨(h.hold he).taint true true, fun _ => rfl⟩
      · -- the sums differ, and one may be out of range where the other is not
        refine ⟨?_, fun hji => absurd hji hj⟩
        cases e.counts.add? k by_ with
        | some n =>
          cases e'.counts.add? k' by_' with
          | some n' => exact hheld fun hji => absurd hji hj
          | none => exact (hheld fun hji => absurd hji hj).taint _ true
        | none =>
          cases e'.counts.add? k' by_' with
          | some n' => exact (hheld fun hji => absurd hji hj).taint true _
          | none => exact (h.hold he).taint true true
    · rw [if_neg hlive, if_neg (he.expiresAt_eq ▸ hlive), he.name_eq]
      exact ⟨h.drop _, fun _ => rfl⟩
  · exact ⟨h, fun _ => rfl⟩

/-- **Caches that match stay so**, and say the same about the one item, whatever is asked. -/
theorem exec (h : Matches i c c') (ho : o.Matches i o') :
    Matches i (c.exec now o).2 (c'.exec now o').2 := by
  cases ho with
  | get j => exact (h.get now j).1
  | set j hn => exact (h.set now j hn).1
  | adjust j hk => exact (h.adjust now j hk).1
  | delete j => exact h.drop j.cacheKey
  | size => exact h

theorem answer_eq (h : Matches i c c') (ho : o.item? = some i) :
    (c.exec now o).1 = (c'.exec now o).1 := by
  cases o with
  | get j => exact congrArg Except.ok ((h.get now j).2 (Option.some.inj ho))
  | set j n => exact (h.set now j fun _ => rfl).2
  | adjust j k by_ => exact (h.adjust now j fun _ => ⟨rfl, rfl⟩).2 (Option.some.inj ho)
  | delete j => rfl
  | size => cases ho

theorem after (h : Matches i c c') {d d' : Diary} (hd : List.Forall₂ (Asked.Matches i) d d') :
    Matches i (c.after d) (c'.after d') := by
  induction hd with
  | nil => exact h
  | @cons a a' d d' ha _ ih =>
    rw [Cache.after, Cache.after, ha.now_eq]
    exact ih.exec ha.op

end Matches

/-! ### No mixing up -/

/-- **The entries of two items never get mixed up.** Two items have the same name only if they are
the same. So whatever has been asked of a cache that was empty at first, an operation leaves the
entry of an item it is not about as it is, except that to set an item may cost it its place; and
operations about an item are answered alike, and find the same entry, when other counts were set and
other adjustments made for all other items. -/
theorem entries_apart :
    (∀ i j : Item, i.cacheKey = j.cacheKey ↔ i = j) ∧
    (∀ i j : Item, i.label = j.label ↔ i = j) ∧
    ∀ (capacity lifetime : Nat) (d : Diary) (i : Item),
      let c := ({ capacity, lifetime } : Cache).after d
      (∀ now o, o.item? ≠ some i → (c.exec now o).2.lookup? i.cacheKey
        = if c.evicts now o i then none else c.lookup? i.cacheKey) ∧
      (∀ now o, c.evicts now o i = true → ∃ j n, o = .set j n ∧ j ≠ i) ∧
      ∀ d', List.Forall₂ (Asked.Matches i) d d' →
        let c' := ({ capacity, lifetime } : Cache).after d'
        c.lookup? i.cacheKey = c'.lookup? i.cacheKey ∧
        ∀ now o, o.item? = some i → (c.exec now o).1 = (c'.exec now o).1 := by
  refine ⟨fun i j => Item.cacheKey_inj, fun i j => Item.label_injective.eq_iff, ?_⟩
  intro capacity lifetime d i c
  refine ⟨fun now o hi => lookup?_exec_of_ne (orderly_after capacity lifetime d) hi,
    fun now o => exists_set_of_evicts, ?_⟩
  intro d' hd c'
  have hempty : Matches i ({ capacity, lifetime } : Cache) { capacity, lifetime } :=
    ⟨.nil, rfl, rfl⟩
  have hmatch : Matches i c c' := hempty.after hd
  exact ⟨hmatch.lookup?_self, fun now o => hmatch.answer_eq⟩

/-- Book 2 of the kind `book:1` and book 1 are set, and book 1 is adjusted. -/
def confusing (n : Counts) (k : Counter) (by_ : Int64) : Diary :=
  [⟨20, .adjust (book 1) k by_⟩, ⟨20, .set (book 1) n⟩, ⟨10, .set ⟨"book:1", 2⟩ ⟨3, 1, 4⟩⟩]

/-- A book keeps its counts whatever becomes of another of a similar name, and has to go when a
third one is set. -/
theorem entries_apart_confusing :
    let i : Item := ⟨"book:1", 2⟩
    let c := ({ capacity := 2, lifetime := 100 } : Cache).after (confusing ⟨1, 0, 0⟩ .likes 5)
    let c' := ({ capacity := 2, lifetime := 100 } : Cache).after (confusing ⟨7, 8, 9⟩ .reads (-2))
    i.label ≠ (book 1).label ∧
    (c.exec 30 (.delete (book 1))).2.lookup? i.cacheKey = c.lookup? i.cacheKey ∧
    c.evicts 30 (.set (book 2) ⟨2, 0, 0⟩) i = true ∧
    (c.exec 30 (.set (book 2) ⟨2, 0, 0⟩)).2.lookup? i.cacheKey = none ∧
    List.Forall₂ (Asked.Matches i) (confusing ⟨1, 0, 0⟩ .likes 5)
      (confusing ⟨7, 8, 9⟩ .reads (-2)) ∧
    (c.exec 30 (.get i)).1 = (c'.exec 30 (.get i)).1 := by
  intro i c c'
  have hne (n : Int64) : i ≠ book n := by simp [i, book]
  have hasked : List.Forall₂ (Asked.Matches i) (confusing ⟨1, 0, 0⟩ .likes 5)
      (confusing ⟨7, 8, 9⟩ .reads (-2)) :=
    .cons ⟨rfl, .adjust _ fun h => absurd h.symm (hne 1)⟩ <|
      .cons ⟨rfl, .set _ fun h => absurd h.symm (hne 1)⟩ <| .cons ⟨rfl, .set _ fun _ => rfl⟩ .nil
  have hfull : c.evicts 30 (.set (book 2) ⟨2, 0, 0⟩) i = true := by decide +kernel
  obtain ⟨-, hlabel, hcache⟩ := entries_apart
  obtain ⟨hothers, -, hreads⟩ := hcache 2 100 (confusing ⟨1, 0, 0⟩ .likes 5) i
  have hset := hothers 30 (.set (book 2) ⟨2, 0, 0⟩) fun h => hne 2 (Option.some.inj h).symm
  rw [if_pos hfull] at hset
  exact ⟨fun h => hne 1 ((hlabel i (book 1)).mp h),
    hothers 30 (.delete (book 1)) fun h => hne 1 (Option.some.inj h).symm, hfull, hset, hasked,
    (hreads _ hasked).2 30 (.get i) rfl⟩

end Cache

end Popularity
