import Popularity.Cache.Basic
import Popularity.Proofs.ItemName

/-!
# What an operation does to the entries

Whatever is asked of the cache, an entry that is there afterwards was there before, or it is the one
that was just set or adjusted. So a property of all entries is kept by an operation as soon as the
new entry has it, and nothing has to be said about recency or about which entry had to go.

## Main results

* `Counts.get_of_add?_eq_some` — what an addition does to each counter
* `Cache.mem_entries_hold`, `Cache.mem_entries_drop`
* `Cache.get_cases`, `Cache.set_cases`, `Cache.adjust_cases` — all that an operation can do
* `Cache.mem_entries_get`, `Cache.mem_entries_set`, `Cache.mem_entries_adjust`
-/

namespace Popularity

/-! ### Counts -/

namespace Counts

theorem get_of_add?_eq_some {m n : Counts} {k : Counter} {d : Int64} (h : m.add? k d = some n)
    (l : Counter) : (n.get l).toInt = (m.get l).toInt + if k = l then d.toInt else 0 := by
  obtain ⟨v, hv, rfl⟩ := Option.map_eq_some_iff.mp h
  by_cases hl : k = l
  · subst hl
    rw [get_put_self, if_pos rfl]
    exact Word.plus?_eq_some_iff.mp hv
  · rw [get_put_of_ne m (Ne.symm hl), if_neg hl, Int.add_zero]

/-- An addition is refused only if the sum would leave the range. -/
theorem add?_eq_some {m : Counts} {k : Counter} {d v : Int64}
    (h : v.toInt = (m.get k).toInt + d.toInt) : m.add? k d = some (m.put k v) := by
  rw [add?, Word.plus?_eq_some_iff.mpr h, Option.map_some]

theorem eq_of_toInt_get_eq {m n : Counts} (h : ∀ k, (m.get k).toInt = (n.get k).toInt) : m = n :=
  ext_get fun k => Int64.toInt_inj.mp (h k)

end Counts

/-- Whether an adjustment that came to its end did anything. -/
def Adjusted.took : Except Crash Adjusted → Bool
  | .ok (.applied _) => true
  | _ => false

theorem Adjusted.ok_of_took {x : Except Crash Adjusted} (h : took x = true) :
    ∃ out, x = .ok out := by
  cases x with
  | ok out => exact ⟨out, rfl⟩
  | error crash => cases h

namespace Cache

variable {c : Cache} {e e' : Entry} {i : Item} {now : Nat}

/-! ### Holding and dropping -/

theorem lookup?_eq_some {name : String} (h : c.lookup? name = some e) :
    e ∈ c.entries ∧ e.name = name :=
  ⟨List.mem_of_find?_eq_some h, by simpa using List.find?_some h⟩

theorem lookup?_eq_none {name : String} (h : c.lookup? name = none) :
    ∀ e ∈ c.entries, e.name ≠ name := by
  intro e he
  simpa using List.find?_eq_none.mp h e he

theorem mem_entries_hold (h : e' ∈ (c.hold e).entries) :
    e' = e ∨ e' ∈ c.entries ∧ e'.name ≠ e.name := by
  rcases List.mem_cons.mp (List.mem_of_mem_take h) with h | h
  · exact .inl h
  · exact .inr (by simpa using h)

theorem mem_entries_drop {name : String} (h : e' ∈ (c.drop name).entries) :
    e' ∈ c.entries ∧ e'.name ≠ name := by
  simpa [drop] using h

/-- To hold an entry that is held already changes only the order of use. -/
theorem mem_entries_hold_of_mem (he : e ∈ c.entries) (h : e' ∈ (c.hold e).entries) :
    e' ∈ c.entries := by
  rcases mem_entries_hold h with rfl | h
  · exact he
  · exact h.1

/-! ### What an operation can do -/

theorem get_cases (c : Cache) (now : Nat) (i : Item) :
    (∃ e, c.lookup? i.cacheKey = some e ∧ now < e.expiresAt ∧
      c.get now i = (some e.counts, c.hold e)) ∨
    (∃ e, c.lookup? i.cacheKey = some e ∧ e.expiresAt ≤ now ∧
      c.get now i = (none, c.drop e.name)) ∨
    c.lookup? i.cacheKey = none ∧ c.get now i = (none, c) := by
  cases h : c.lookup? i.cacheKey with
  | none => exact .inr (.inr ⟨rfl, by simp [get, h]⟩)
  | some e =>
    by_cases hlive : now < e.expiresAt
    · exact .inl ⟨e, rfl, hlive, by simp [get, h, hlive]⟩
    · exact .inr (.inl ⟨e, rfl, by omega, by simp [get, h, hlive]⟩)

theorem set_cases (c : Cache) (now : Nat) (i : Item) (n : Counts) :
    now + c.lifetime ≤ horizon ∧
      c.set now i n = (.ok (), c.hold ⟨i.cacheKey, n, now + c.lifetime⟩) ∨
    horizon < now + c.lifetime ∧ c.set now i n = (.error .clockOverflow, c) := by
  by_cases h : horizon < now + c.lifetime
  · exact .inr ⟨h, by simp [set, h]⟩
  · exact .inl ⟨by omega, by simp [set, h]⟩

theorem adjust_cases (c : Cache) (now : Nat) (i : Item) (k : Counter) (d : Int64) :
    (∃ e n, c.lookup? i.cacheKey = some e ∧ now < e.expiresAt ∧ e.counts.add? k d = some n ∧
      c.adjust now i k d = (.ok (.applied (n.get k)), c.hold { e with counts := n })) ∨
    (∃ e, c.lookup? i.cacheKey = some e ∧ now < e.expiresAt ∧ e.counts.add? k d = none ∧
      c.adjust now i k d = (.error .counterOverflow, { c.hold e with tainted := true })) ∨
    (∃ e, c.lookup? i.cacheKey = some e ∧ e.expiresAt ≤ now ∧
      c.adjust now i k d = (.ok .skipped, c.drop e.name)) ∨
    c.lookup? i.cacheKey = none ∧ c.adjust now i k d = (.ok .skipped, c) := by
  cases h : c.lookup? i.cacheKey with
  | none => exact .inr (.inr (.inr ⟨rfl, by simp [adjust, h]⟩))
  | some e =>
    by_cases hlive : now < e.expiresAt
    · cases hn : e.counts.add? k d with
      | none => exact .inr (.inl ⟨e, rfl, hlive, hn, by simp [adjust, h, hlive, hn]⟩)
      | some n => exact .inl ⟨e, n, rfl, hlive, hn, by simp [adjust, h, hlive, hn]⟩
    · exact .inr (.inr (.inl ⟨e, rfl, by omega, by simp [adjust, h, hlive]⟩))

/-! ### The entries afterwards -/

theorem mem_entries_get (h : e ∈ (c.get now i).2.entries) : e ∈ c.entries := by
  rcases get_cases c now i with ⟨e₀, h₀, -, hg⟩ | ⟨e₀, -, -, hg⟩ | ⟨-, hg⟩ <;> rw [hg] at h
  · exact mem_entries_hold_of_mem (lookup?_eq_some h₀).1 h
  · exact (mem_entries_drop h).1
  · exact h

/-- What is found is a live entry. -/
theorem get_eq_some {n : Counts} (h : (c.get now i).1 = some n) :
    ∃ e ∈ c.entries, e.name = i.cacheKey ∧ now < e.expiresAt ∧ e.counts = n := by
  rcases get_cases c now i with ⟨e, he, hlive, hg⟩ | ⟨e, -, -, hg⟩ | ⟨-, hg⟩ <;> rw [hg] at h
  · exact ⟨e, (lookup?_eq_some he).1, (lookup?_eq_some he).2, hlive, Option.some.inj h⟩
  · cases h
  · cases h

theorem mem_entries_set {n : Counts} (h : e ∈ (c.set now i n).2.entries) :
    (e = ⟨i.cacheKey, n, now + c.lifetime⟩ ∧ (c.set now i n).1 = .ok ()) ∨
      e ∈ c.entries ∧ ((c.set now i n).1 = .ok () → e.name ≠ i.cacheKey) := by
  rcases set_cases c now i n with ⟨-, hs⟩ | ⟨-, hs⟩ <;> rw [hs] at h ⊢
  · rcases mem_entries_hold h with h | h
    · exact .inl ⟨h, rfl⟩
    · exact .inr ⟨h.1, fun _ => h.2⟩
  · exact .inr ⟨h, nofun⟩

theorem mem_entries_adjust {k : Counter} {d : Int64} (h : e ∈ (c.adjust now i k d).2.entries) :
    (∃ e₀ ∈ c.entries, e₀.name = i.cacheKey ∧ now < e₀.expiresAt ∧
      e₀.counts.add? k d = some e.counts ∧ e.name = e₀.name ∧ e.expiresAt = e₀.expiresAt ∧
      Adjusted.took (c.adjust now i k d).1 = true) ∨
    e ∈ c.entries ∧ ∀ out, (c.adjust now i k d).1 = .ok out → e.name ≠ i.cacheKey := by
  rcases adjust_cases c now i k d with
    ⟨e₀, n, h₀, hlive, hn, ha⟩ | ⟨e₀, h₀, -, -, ha⟩ | ⟨e₀, h₀, -, ha⟩ | ⟨h₀, ha⟩ <;> rw [ha] at h ⊢
  · obtain ⟨hmem, hname⟩ := lookup?_eq_some h₀
    rcases mem_entries_hold h with rfl | ⟨hold, hne⟩
    · exact .inl ⟨e₀, hmem, hname, hlive, hn, rfl, rfl, rfl⟩
    · exact .inr ⟨hold, fun _ _ => hname ▸ hne⟩
  · exact .inr ⟨mem_entries_hold_of_mem (lookup?_eq_some h₀).1 h, nofun⟩
  · obtain ⟨hold, hne⟩ := mem_entries_drop h
    exact .inr ⟨hold, fun _ _ => (lookup?_eq_some h₀).2 ▸ hne⟩
  · exact .inr ⟨h, fun _ _ => lookup?_eq_none h₀ e h⟩

/-! ### The lifetime -/

@[simp] theorem lifetime_get : (c.get now i).2.lifetime = c.lifetime := by
  rcases get_cases c now i with ⟨e, -, -, h⟩ | ⟨e, -, -, h⟩ | ⟨-, h⟩ <;> rw [h] <;> rfl

@[simp] theorem lifetime_set {n : Counts} : (c.set now i n).2.lifetime = c.lifetime := by
  rcases set_cases c now i n with ⟨-, h⟩ | ⟨-, h⟩ <;> rw [h]
  rfl

@[simp] theorem lifetime_adjust {k : Counter} {d : Int64} :
    (c.adjust now i k d).2.lifetime = c.lifetime := by
  rcases adjust_cases c now i k d with
    ⟨e, n, -, -, -, h⟩ | ⟨e, -, -, -, h⟩ | ⟨e, -, -, h⟩ | ⟨-, h⟩ <;> rw [h] <;> rfl

end Cache

end Popularity
