import Popularity.Proofs.Cache.Recency
import Mathlib.Data.List.Perm.Subperm

/-!
# More room never hurts

Two caches of different capacity are asked for the same things at the same times. The smaller one
holds nothing that the larger one lacks, and what both hold stands in the same order in both.

That a larger cache keeps what a smaller one keeps is not clear from the order alone. Entries are
looked up, dropped or found dead in the one and missing from the other, so the two differ by more
than the last few entries. It has to be known that the larger cache is never ahead by more entries
than it has room for more: then it gives up no more entries at the end than the smaller one does.

## Main definitions

* `Cache.Within` — what is known of a smaller and a larger cache

## Main results

* `Cache.Within.hold`, `Cache.Within.drop`, `Cache.Within.hold_right`, `Cache.Within.drop_right`
* `Cache.Within.exec`, `Cache.Within.after`
* `Cache.larger_holds`
-/

namespace Popularity

/-! ### Lists -/

/-- What is cut off the end of a part of a list covers what is cut off the list, unless more is cut
off the list. -/
theorem take_sublist_take {α : Type} {as bs : List α} (h : as.Sublist bs) :
    ∀ {m n : Nat}, bs.length + m ≤ as.length + n → (as.take m).Sublist (bs.take n) := by
  induction h with
  | slnil => intro m n _; simp
  | @cons as bs b h ih =>
    intro m n hle
    have hlen := h.length_le
    obtain ⟨n, rfl⟩ : ∃ k, n = k + 1 := ⟨n - 1, by rw [List.length_cons] at hle; omega⟩
    rw [List.take_succ_cons]
    exact (ih (by rw [List.length_cons] at hle; omega)).cons b
  | @cons_cons as bs b h ih =>
    intro m n hle
    have hlen := h.length_le
    rw [List.length_cons, List.length_cons] at hle
    cases m with
    | zero => exact List.nil_sublist _
    | succ m =>
      obtain ⟨n, rfl⟩ : ∃ k, n = k + 1 := ⟨n - 1, by omega⟩
      rw [List.take_succ_cons, List.take_succ_cons]
      exact (ih (by omega)).cons_cons b

/-- A list loses no fewer elements than a part of it. -/
theorem length_filter_add_le {α : Type} {as bs : List α} (p : α → Bool) (h : as.Sublist bs) :
    (bs.filter p).length + as.length ≤ (as.filter p).length + bs.length := by
  have hlost := h.countP_le (p := fun a => ¬p a)
  have ha := List.length_eq_countP_add_countP p (l := as)
  have hb := List.length_eq_countP_add_countP p (l := bs)
  rw [List.countP_eq_length_filter] at ha hb
  omega

namespace Cache

/-- The entries of the first cache are entries of the second, in the same order, and the second one
is ahead by no more entries than it has room for more. -/
structure Within (s l : Cache) : Prop where
  sublist : s.entries.Sublist l.entries
  surplus : l.entries.length + s.room ≤ s.entries.length + l.room
  lifetime_eq : s.lifetime = l.lifetime
  orderly : Orderly l

variable {s l : Cache} {e : Entry} {name : String} {i : Item} {now : Nat}

/-! ### Lookups -/

theorem Within.lookup?_eq_some (h : Within s l) (he : s.lookup? name = some e) :
    l.lookup? name = some e := by
  obtain ⟨hmem, hname⟩ := Cache.lookup?_eq_some he
  have hl : l.lookup? e.name = some e := lookup?_of_mem h.orderly (h.sublist.subset hmem)
  rwa [hname] at hl

/-- The entries of names that both hold stand in the same order in both. -/
theorem Within.filter_eq (h : Within s l) :
    l.entries.filter (fun e => (s.lookup? e.name).isSome) = s.entries := by
  have hall : ∀ e ∈ s.entries, (s.lookup? e.name).isSome = true := by
    intro e he
    rw [Option.isSome_iff_ne_none]
    intro hnone
    exact Cache.lookup?_eq_none hnone e he rfl
  have hsub : s.entries.Sublist (l.entries.filter fun e => (s.lookup? e.name).isSome) := by
    have hfilter := h.sublist.filter fun e => (s.lookup? e.name).isSome
    rwa [List.filter_eq_self.mpr hall] at hfilter
  refine (hsub.eq_of_length_le ?_).symm
  refine (List.subperm_of_subset (h.orderly.nodup.of_map.filter _) ?_).length_le
  · intro e he
    obtain ⟨hmem, hsome⟩ := List.mem_filter.mp he
    obtain ⟨e', he'⟩ := Option.isSome_iff_exists.mp hsome
    have heq : some e' = some e :=
      (h.lookup?_eq_some he').symm.trans (lookup?_of_mem h.orderly hmem)
    cases heq
    exact (Cache.lookup?_eq_some he').1

/-! ### Both caches change -/

theorem Within.drop (h : Within s l) (name : String) : Within (s.drop name) (l.drop name) where
  sublist := h.sublist.filter _
  surplus := by
    have hlost := length_filter_add_le (·.name != name) h.sublist
    have hsurplus := h.surplus
    change (l.entries.filter _).length + s.room ≤ (s.entries.filter _).length + l.room
    omega
  lifetime_eq := h.lifetime_eq
  orderly := h.orderly.drop name

theorem Within.hold (h : Within s l) (e : Entry) : Within (s.hold e) (l.hold e) := by
  have hsurplus := (h.drop e.name).surplus
  have hsub : (e :: s.entries.filter (·.name != e.name)).Sublist
      (e :: l.entries.filter (·.name != e.name)) := (h.sublist.filter _).cons_cons e
  have hle : (e :: l.entries.filter (·.name != e.name)).length + s.room
      ≤ (e :: s.entries.filter (·.name != e.name)).length + l.room := by
    rw [List.length_cons, List.length_cons]
    change (l.entries.filter _).length + s.room ≤ (s.entries.filter _).length + l.room at hsurplus
    omega
  refine ⟨take_sublist_take hsub hle, ?_, h.lifetime_eq, h.orderly.hold e⟩
  change (List.take _ _).length + s.room ≤ (List.take _ _).length + l.room
  rw [List.length_take, List.length_take]
  omega

theorem Within.taint (h : Within s l) (a b : Bool) :
    Within { s with tainted := a } { l with tainted := b } :=
  ⟨h.sublist, h.surplus, h.lifetime_eq, ⟨h.orderly.nodup, h.orderly.length_le⟩⟩

/-! ### Only the larger cache changes -/

theorem drop_of_lookup?_eq_none {c : Cache} (h : c.lookup? name = none) : c.drop name = c := by
  rw [Cache.drop, filter_of_lookup?_eq_none h]

theorem Within.drop_right (h : Within s l) (hs : s.lookup? name = none) :
    Within s (l.drop name) := by
  have hboth := h.drop name
  rwa [drop_of_lookup?_eq_none hs] at hboth

theorem Within.hold_right {e₀ : Entry} (h : Within s l) (hs : s.lookup? e.name = none)
    (hl : l.lookup? e.name = some e₀) : Within s (l.hold e) := by
  have hentries := entries_hold_of_mem h.orderly hl
  have hlen : (l.hold e).entries.length ≤ l.entries.length := by
    rw [hentries, List.length_cons]
    refine List.length_filter_lt_length_iff_exists.mpr ⟨e₀, (Cache.lookup?_eq_some hl).1, ?_⟩
    simp [(Cache.lookup?_eq_some hl).2]
  refine ⟨?_, ?_, h.lifetime_eq, h.orderly.hold e⟩
  · rw [hentries]
    exact (h.drop_right hs).sublist.cons e
  · have hsurplus := h.surplus
    rw [room_hold]
    omega

/-! ### Operations -/

theorem Within.get (h : Within s l) (now : Nat) (i : Item) :
    Within (s.get now i).2 (l.get now i).2 := by
  cases hs : s.lookup? i.cacheKey with
  | some e =>
    rw [Cache.get, Cache.get, hs, h.lookup?_eq_some hs]
    by_cases hlive : now < e.expiresAt
    · simp only [hlive, if_true]
      exact h.hold e
    · simp only [hlive, if_false]
      exact h.drop e.name
  | none =>
    have hstay : s.get now i = (none, s) := by rw [Cache.get, hs]
    rw [hstay]
    rcases get_cases l now i with ⟨e, hl, -, hg⟩ | ⟨e, hl, -, hg⟩ | ⟨-, hg⟩ <;> rw [hg]
    · have hname := (Cache.lookup?_eq_some hl).2
      exact h.hold_right (by rw [hname, hs]) (by rw [hname, hl])
    · have hname := (Cache.lookup?_eq_some hl).2
      exact h.drop_right (by rw [hname, hs])
    · exact h

theorem Within.set (h : Within s l) (now : Nat) (i : Item) (n : Counts) :
    Within (s.set now i n).2 (l.set now i n).2 := by
  rw [Cache.set, Cache.set, h.lifetime_eq]
  split
  · exact h
  · exact h.hold _

theorem Within.adjust (h : Within s l) (now : Nat) (i : Item) (k : Counter) (d : Int64) :
    Within (s.adjust now i k d).2 (l.adjust now i k d).2 := by
  cases hs : s.lookup? i.cacheKey with
  | some e =>
    rw [Cache.adjust, Cache.adjust, hs, h.lookup?_eq_some hs]
    by_cases hlive : now < e.expiresAt
    · simp only [hlive, if_true]
      cases e.counts.add? k d with
      | some n => exact h.hold { e with counts := n }
      | none => exact (h.hold e).taint true true
    · simp only [hlive, if_false]
      exact h.drop e.name
  | none =>
    have hstay : s.adjust now i k d = (.ok .skipped, s) := by rw [Cache.adjust, hs]
    rw [hstay]
    rcases adjust_cases l now i k d with
      ⟨e, n, hl, -, -, ha⟩ | ⟨e, hl, -, -, ha⟩ | ⟨e, hl, -, ha⟩ | ⟨-, ha⟩ <;> rw [ha]
    · have hname := (Cache.lookup?_eq_some hl).2
      exact h.hold_right (by rw [hname, hs]) (by rw [hname, hl])
    · have hname := (Cache.lookup?_eq_some hl).2
      exact (h.hold_right (by rw [hname, hs]) (by rw [hname, hl])).taint s.tainted true
    · have hname := (Cache.lookup?_eq_some hl).2
      exact h.drop_right (by rw [hname, hs])
    · exact h

/-- **Whatever is asked of both, the smaller cache stays within the larger one.** -/
theorem Within.exec (h : Within s l) (now : Nat) (o : Op) :
    Within (s.exec now o).2 (l.exec now o).2 := by
  cases o with
  | get i => exact h.get now i
  | set i n => exact h.set now i n
  | adjust i k d => exact h.adjust now i k d
  | delete i => exact h.drop i.cacheKey
  | size => exact h

theorem Within.after (h : Within s l) (d : Diary) : Within (s.after d) (l.after d) := by
  induction d with
  | nil => exact h
  | cons a d ih => exact ih.exec a.now a.op

theorem within_empty {m n : Nat} (hle : m ≤ n) (lifetime : Nat) :
    Within { capacity := m, lifetime } { capacity := n, lifetime } where
  sublist := List.Sublist.slnil
  surplus := by
    change 0 + max m 1 ≤ 0 + max n 1
    omega
  lifetime_eq := rfl
  orderly := orderly_after n lifetime []

/-! ### Answers -/

/-- A hit in the smaller cache is a hit in the larger one. -/
theorem Within.get_eq_some (h : Within s l) {n : Counts} (hs : (s.get now i).1 = some n) :
    (l.get now i).1 = some n := by
  rcases get_cases s now i with ⟨e, he, hlive, hg⟩ | ⟨e, -, -, hg⟩ | ⟨-, hg⟩ <;> rw [hg] at hs
  · cases hs
    simp [Cache.get, h.lookup?_eq_some he, hlive]
  · cases hs
  · cases hs

/-- An adjustment that the smaller cache has an entry for is made in the larger one too. -/
theorem Within.adjust_eq_applied (h : Within s l) {k : Counter} {d v : Int64}
    (hs : (s.adjust now i k d).1 = .ok (.applied v)) :
    (l.adjust now i k d).1 = .ok (.applied v) := by
  rcases adjust_cases s now i k d with
    ⟨e, n, he, hlive, hn, ha⟩ | ⟨e, -, -, -, ha⟩ | ⟨e, -, -, ha⟩ | ⟨-, ha⟩ <;> rw [ha] at hs
  · cases hs
    simp [Cache.adjust, h.lookup?_eq_some he, hlive, hn]
  · cases hs
  · cases hs
  · cases hs

/-- **More room never hurts.** After the same has been asked of two caches that were empty at first,
every entry of the smaller one is in the larger one, with its counts and the end of its life, and
the entries that both have stand in the same order. What is asked next is answered by the larger one
as by the smaller one, if the smaller one has an answer. -/
theorem larger_holds {m n : Nat} (hle : m ≤ n) (lifetime : Nat) (d : Diary) :
    let s := ({ capacity := m, lifetime } : Cache).after d
    let l := ({ capacity := n, lifetime } : Cache).after d
    (∀ name e, s.lookup? name = some e → l.lookup? name = some e) ∧
    l.entries.filter (fun e => (s.lookup? e.name).isSome) = s.entries ∧
    (∀ now i counts, (s.get now i).1 = some counts → (l.get now i).1 = some counts) ∧
    ∀ now i k by_ v, (s.adjust now i k by_).1 = .ok (.applied v) →
      (l.adjust now i k by_).1 = .ok (.applied v) := by
  have h := (within_empty hle lifetime).after d
  refine ⟨?_, h.filter_eq, ?_, ?_⟩
  · intro name e he
    exact h.lookup?_eq_some he
  · intro now i counts hs
    exact h.get_eq_some hs
  · intro now i k by_ v hs
    exact h.adjust_eq_applied hs

/-- A cache for one book has only the last one, and so has a cache for two. -/
theorem larger_holds_visits : 1 ≤ 2 ∧
    ((({ capacity := 1, lifetime := 100 } : Cache).after visits).get 50 (book 3)).1
      = some ⟨3, 0, 0⟩ ∧
    ((({ capacity := 2, lifetime := 100 } : Cache).after visits).get 50 (book 3)).1
      = some ⟨3, 0, 0⟩ := by
  have hsmall : ((({ capacity := 1, lifetime := 100 } : Cache).after visits).get 50 (book 3)).1
      = some ⟨3, 0, 0⟩ := by decide +kernel
  have hle : 1 ≤ 2 := by decide
  exact ⟨hle, hsmall, (larger_holds hle 100 visits).2.2.1 50 (book 3) _ hsmall⟩

end Cache

end Popularity
