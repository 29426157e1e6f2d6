import Popularity.Proofs.Cache.Entries
import Mathlib.Data.List.Nodup

/-!
# The order of use

The entries of a cache stand in the order of their last use, the most recent first. No two of them
have one name, and there are never more than there is room for. So an entry that comes back to the
front takes no room, and only a name that is new to a full cache costs another entry its place: the
last one.

What has been asked of a cache, and when, is its diary. The times in a diary are not assumed to go
forward, because nothing here depends on it.

## Main definitions

* `Cache.Asked`, `Cache.Diary`, `Cache.after`
* `Cache.Orderly` — distinct names, and no more entries than there is room for

## Main results

* `Cache.entries_hold_of_mem`, `Cache.entries_hold_of_lt`, `Cache.entries_hold_of_full` — what it
  takes to hold one more entry
* `Cache.orderly_after`
-/

namespace Popularity.Cache

/-! ### Diaries -/

/-- An operation that was asked for at a time. -/
structure Asked where
  now : Nat
  op : Op
  deriving DecidableEq, Repr, Inhabited

/-- All that has been asked of a cache, the latest first. -/
abbrev Diary : Type := List Asked

/-- The cache after all that has been asked of it. -/
def after (c : Cache) : Diary → Cache
  | [] => c
  | a :: d => ((c.after d).exec a.now a.op).2

variable {c : Cache} {e e₀ : Entry} {name : String}

/-! ### What stays -/

@[simp] theorem room_hold : (c.hold e).room = c.room := rfl

@[simp] theorem room_drop : (c.drop name).room = c.room := rfl

@[simp] theorem capacity_exec (c : Cache) (now : Nat) (o : Op) :
    (c.exec now o).2.capacity = c.capacity := by
  cases o with
  | get i =>
    rcases get_cases c now i with ⟨e, -, -, h⟩ | ⟨e, -, -, h⟩ | ⟨-, h⟩ <;> rw [exec, h] <;> rfl
  | set i n =>
    rcases set_cases c now i n with ⟨-, h⟩ | ⟨-, h⟩
    · rw [exec, h]
      rfl
    · rw [exec, h]
  | adjust i k d =>
    rcases adjust_cases c now i k d with
      ⟨e, n, -, -, -, h⟩ | ⟨e, -, -, -, h⟩ | ⟨e, -, -, h⟩ | ⟨-, h⟩ <;> rw [exec, h] <;> rfl
  | delete i => rfl
  | size => rfl

@[simp] theorem lifetime_exec (c : Cache) (now : Nat) (o : Op) :
    (c.exec now o).2.lifetime = c.lifetime := by
  cases o with
  | get i => exact lifetime_get
  | set i n => exact lifetime_set
  | adjust i k d => exact lifetime_adjust
  | delete i => rfl
  | size => rfl

@[simp] theorem capacity_after (d : Diary) : (c.after d).capacity = c.capacity := by
  induction d with
  | nil => rfl
  | cons a d ih => rw [after, capacity_exec, ih]

@[simp] theorem lifetime_after (d : Diary) : (c.after d).lifetime = c.lifetime := by
  induction d with
  | nil => rfl
  | cons a d ih => rw [after, lifetime_exec, ih]

@[simp] theorem room_after (d : Diary) : (c.after d).room = c.room := by
  rw [room, room, capacity_after]

/-! ### Order -/

/-- No two entries have one name, and there are no more than there is room for. -/
structure Orderly (c : Cache) : Prop where
  nodup : (c.entries.map (·.name)).Nodup
  length_le : c.entries.length ≤ c.room

theorem Orderly.drop (h : Orderly c) (name : String) : Orderly (c.drop name) where
  nodup := (List.Sublist.map _ List.filter_sublist).nodup h.nodup
  length_le := Nat.le_trans (List.length_filter_le _ _) h.length_le

theorem Orderly.hold (h : Orderly c) (e : Entry) : Orderly (c.hold e) where
  nodup := by
    have hrest : ((c.entries.filter (·.name != e.name)).map (·.name)).Nodup :=
      (List.Sublist.map _ List.filter_sublist).nodup h.nodup
    have hnew : e.name ∉ (c.entries.filter (·.name != e.name)).map (·.name) := by
      intro hmem
      obtain ⟨e', he', heq⟩ := List.mem_map.mp hmem
      have hne : e'.name ≠ e.name := by simpa using (List.mem_filter.mp he').2
      exact hne heq
    refine (List.Sublist.map _ (List.take_sublist _ _)).nodup ?_
    rw [List.map_cons]
    exact List.nodup_cons.mpr ⟨hnew, hrest⟩
  length_le := List.length_take_le _ _

theorem Orderly.exec (h : Orderly c) (now : Nat) (o : Op) : Orderly (c.exec now o).2 := by
  cases o with
  | get i =>
    rw [Cache.exec]
    rcases get_cases c now i with ⟨e, -, -, hg⟩ | ⟨e, -, -, hg⟩ | ⟨-, hg⟩ <;> rw [hg]
    · exact h.hold e
    · exact h.drop e.name
    · exact h
  | set i n =>
    rw [Cache.exec]
    rcases set_cases c now i n with ⟨-, hs⟩ | ⟨-, hs⟩ <;> rw [hs]
    · exact h.hold _
    · exact h
  | adjust i k d =>
    rw [Cache.exec]
    rcases adjust_cases c now i k d with
      ⟨e, n, -, -, -, ha⟩ | ⟨e, -, -, -, ha⟩ | ⟨e, -, -, ha⟩ | ⟨-, ha⟩ <;> rw [ha]
    · exact h.hold _
    · exact ⟨(h.hold e).nodup, (h.hold e).length_le⟩
    · exact h.drop e.name
    · exact h
  | delete i => exact h.drop i.cacheKey
  | size => exact h

theorem Orderly.after (h : Orderly c) (d : Diary) : Orderly (c.after d) := by
  induction d with
  | nil => exact h
  | cons a d ih => exact ih.exec a.now a.op

/-- **A cache that was empty at first is orderly whatever is asked of it.** -/
theorem orderly_after (capacity lifetime : Nat) (d : Diary) :
    Orderly (({ capacity, lifetime } : Cache).after d) := by
  have hempty : Orderly { capacity, lifetime } := ⟨List.nodup_nil, Nat.zero_le _⟩
  exact hempty.after d

/-! ### Looking up -/

theorem lookup?_of_mem (h : Orderly c) (he : e ∈ c.entries) : c.lookup? e.name = some e := by
  cases hl : c.lookup? e.name with
  | none => exact absurd rfl (lookup?_eq_none hl e he)
  | some e' =>
    obtain ⟨hmem, hname⟩ := lookup?_eq_some hl
    exact congrArg some (List.inj_on_of_nodup_map h.nodup hmem he hname)

/-- The entry of a name, and the others. -/
theorem Orderly.perm_cons (h : Orderly c) (he : e ∈ c.entries) :
    c.entries.Perm (e :: c.entries.filter (·.name != e.name)) := by
  have hnodup : c.entries.Nodup := List.Nodup.of_map _ h.nodup
  have hnew : e ∉ c.entries.filter (·.name != e.name) := by simp
  refine (List.perm_ext_iff_of_nodup hnodup
    (List.nodup_cons.mpr ⟨hnew, hnodup.filter _⟩)).mpr fun e' => ?_
  rw [List.mem_cons, List.mem_filter]
  constructor
  · intro he'
    by_cases hname : e'.name = e.name
    · exact .inl (List.inj_on_of_nodup_map h.nodup he' he hname)
    · exact .inr ⟨he', by simpa using hname⟩
  · rintro (rfl | ⟨he', -⟩)
    · exact he
    · exact he'

theorem filter_of_lookup?_eq_none (h : c.lookup? name = none) :
    c.entries.filter (·.name != name) = c.entries :=
  List.filter_eq_self.mpr fun e he => by simpa using lookup?_eq_none h e he

/-! ### Holding one more entry -/

/-- An entry that comes back to the front takes no room. -/
theorem entries_hold_of_mem (h : Orderly c) (hl : c.lookup? e.name = some e₀) :
    (c.hold e).entries = e :: c.entries.filter (·.name != e.name) := by
  have hlt : (c.entries.filter (·.name != e.name)).length < c.entries.length := by
    refine List.length_filter_lt_length_iff_exists.mpr ⟨e₀, (lookup?_eq_some hl).1, ?_⟩
    simp [(lookup?_eq_some hl).2]
  exact List.take_of_length_le (Nat.le_trans hlt h.length_le)

/-- A new entry goes to the front if there is room. -/
theorem entries_hold_of_lt (hl : c.lookup? e.name = none) (hlt : c.entries.length < c.room) :
    (c.hold e).entries = e :: c.entries := by
  rw [hold, filter_of_lookup?_eq_none hl]
  exact List.take_of_length_le hlt

/-- If there is none, the last entry goes. -/
theorem entries_hold_of_full (hl : c.lookup? e.name = none) (hfull : c.entries.length = c.room) :
    (c.hold e).entries = e :: c.entries.dropLast := by
  have hroom : c.room = c.room - 1 + 1 := by
    have : 1 ≤ c.room := Nat.le_max_right _ _
    omega
  rw [hold, filter_of_lookup?_eq_none hl, List.dropLast_eq_take, hfull]
  change (e :: c.entries).take c.room = _
  rw [hroom, List.take_succ_cons, Nat.add_sub_cancel]

/-! ### A short diary -/

/-- One of three books. -/
def book (n : Int64) : Item := ⟨"book", n⟩

/-- Two books are set, the first one is liked, and the third one is set. -/
def visits : Diary :=
  [⟨40, .set (book 3) ⟨3, 0, 0⟩⟩, ⟨30, .adjust (book 1) .likes 5⟩,
    ⟨20, .set (book 2) ⟨2, 0, 0⟩⟩, ⟨10, .set (book 1) ⟨1, 0, 0⟩⟩]

end Popularity.Cache
