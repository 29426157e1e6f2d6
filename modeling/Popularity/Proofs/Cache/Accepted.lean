import Popularity.Proofs.Cache.Apart
import Popularity.Proofs.Settings.Layers

/-!
# A cache for accepted settings

Options alone can ask for a cache that is of no use: one that holds nothing, one whose entries are
dead when they are set, or one whose entries outlive the clock. Settings that are accepted cannot.
An entry that is set lives for a positive number of seconds, whose end the clock can show unless it
is in its last 2^32 seconds, and there is room for as many entries as were asked for.

So an entry just set is there, and stays until it is set again or deleted, until its lifetime is
over, or until another entry takes its place. Its counts are then those that were set and what has
been added to them; an adjustment that would take a counter out of its range adds nothing.

## Main definitions

* `Cache.Op.ends`, `Cache.evicted` — what an entry may be lost by before its time
* `Cache.Diary.grown` — counts after the adjustments of a diary

## Main results

* `Cache.lookup?_after_of_kept`
* `Cache.accepted_serves`
-/

namespace Popularity

namespace Cache

variable {c : Cache} {e : Entry} {j : Item}

/-! ### What becomes of an entry -/

namespace Op

/-- Whether an operation sets an item again or deletes it. -/
def ends (j : Item) : Op → Bool
  | .set i _ => i = j
  | .delete i => i = j
  | _ => false

/-- The counts of an item after an operation that does not end them. -/
def grow (j : Item) (n : Counts) : Op → Counts
  | .adjust i k by_ => if i = j then (n.add? k by_).getD n else n
  | _ => n

/-- Counts do not grow by operations about other items. -/
theorem grow_of_ne {o : Op} (h : o.item? ≠ some j) (n : Counts) : o.grow j n = n := by
  cases o with
  | adjust i k by_ => exact if_neg fun hij => h (congrArg some hij)
  | get i => rfl
  | set i n => rfl
  | delete i => rfl
  | size => rfl

end Op

/-- The counts of an item after the operations of a diary. -/
def Diary.grown (j : Item) (n : Counts) : Diary → Counts
  | [] => n
  | a :: d => a.op.grow j (grown j n d)

/-- Whether an item loses its place in the course of a diary. -/
def evicted (c : Cache) (j : Item) : Diary → Bool
  | [] => false
  | a :: d => c.evicted j d || (c.after d).evicts a.now a.op j

/-- An operation about an item with a live entry keeps it, unless it is set again or deleted. -/
theorem lookup?_exec_self {now : Nat} {o : Op} (hl : c.lookup? j.cacheKey = some e)
    (hlive : now < e.expiresAt) (hj : o.item? = some j) (hends : o.ends j = false) :
    (c.exec now o).2.lookup? j.cacheKey = some { e with counts := o.grow j e.counts } := by
  have hheld (n : Counts) : (c.hold { e with counts := n }).lookup? j.cacheKey
      = some { e with counts := n } := by
    rw [← (lookup?_eq_some hl).2]
    exact lookup?_hold c { e with counts := n }
  cases o with
  | get i =>
    cases hj
    rcases get_cases c now j with ⟨e', hl', -, hg⟩ | ⟨e', hl', hdead, -⟩ | ⟨hnone, -⟩
    · cases hl.symm.trans hl'
      rw [exec, hg]
      exact hheld e.counts
    · cases hl.symm.trans hl'
      omega
    · cases hl.symm.trans hnone
  | adjust i k by_ =>
    cases hj
    rcases adjust_cases c now j k by_ with
      ⟨e', n, hl', -, hn, ha⟩ | ⟨e', hl', -, hn, ha⟩ | ⟨e', hl', hdead, -⟩ | ⟨hnone, -⟩
    · cases hl.symm.trans hl'
      rw [exec, ha, Op.grow, if_pos rfl, hn]
      exact hheld n
    · cases hl.symm.trans hl'
      rw [exec, ha, Op.grow, if_pos rfl, hn]
      exact hheld e.counts
    · cases hl.symm.trans hl'
      omega
    · cases hl.symm.trans hnone
  | set i n => cases hj; simp [Op.ends] at hends
  | delete i => cases hj; simp [Op.ends] at hends
  | size => cases hj

/-- **An entry stays** until its time is over, if it keeps its place and nothing ends its life. -/
theorem lookup?_after_of_kept (h : Orderly c) (hl : c.lookup? j.cacheKey = some e) {d : Diary}
    (hd : ∀ a ∈ d, a.now < e.expiresAt ∧ a.op.ends j = false) (hkept : c.evicted j d = false) :
    (c.after d).lookup? j.cacheKey = some { e with counts := d.grown j e.counts } := by
  induction d with
  | nil => exact hl
  | cons a d ih =>
    rw [evicted, Bool.or_eq_false_iff] at hkept
    obtain ⟨hlive, hends⟩ := hd a List.mem_cons_self
    have hheld := ih (fun b hb => hd b (List.mem_cons_of_mem a hb)) hkept.1
    rw [after, Diary.grown]
    by_cases hj : a.op.item? = some j
    · exact lookup?_exec_self hheld hlive hj hends
    · rw [lookup?_exec_of_ne (h.after d) hj, hkept.2, Op.grow_of_ne hj]
      exact hheld

/-- A live entry is served. -/
theorem get_of_lookup? {now : Nat} (hl : c.lookup? j.cacheKey = some e)
    (hlive : now < e.expiresAt) : (c.exec now (.get j)).1 = .ok (some e.counts) := by
  rw [exec, get, hl]
  simp [hlive]

/-! ### Accepted settings -/

/-- **Accepted settings do not break the cache.** There is room for just as many entries as the
capacity says, which is more than none, and never are more held. Unless the clock is in its last
2^32 seconds, no entry is refused; an entry just set is served at once, and with what has been added
to it at any later time within its lifetime, if it was not set again, deleted or evicted. -/
theorem accepted_serves {s : Surroundings} {i : Invocation} {settings : Settings}
    (hload : s.load i = .ok settings) (d : Diary) :
    let c := settings.cacheOptions.build.after d
    0 < settings.capacity ∧ c.room = settings.capacity ∧ c.size ≤ settings.capacity ∧
    ∀ now j n, now + 1000 * Word.size32 ≤ horizon →
      let set := c.exec now (.set j n)
      set.1 = .ok () ∧ (set.2.exec now (.get j)).1 = .ok (some n) ∧
      ∀ (later : Diary) (t : Nat),
        (∀ a ∈ later, a.now < now + 1000 * settings.lifetime ∧ a.op.ends j = false) →
        set.2.evicted j later = false → t < now + 1000 * settings.lifetime →
        ((set.2.after later).exec t (.get j)).1 = .ok (some (later.grown j n)) := by
  intro c
  have hcapacity := Surroundings.capacity_of_load hload
  obtain ⟨hpos, hsmall⟩ := Surroundings.lifetime_of_load hload
  have hroom : c.room = settings.capacity :=
    (room_after d).trans (Nat.max_eq_left hcapacity)
  have hlifetime : c.lifetime = 1000 * settings.lifetime := lifetime_after d
  have horderly : Orderly c := orderly_after settings.capacity (1000 * settings.lifetime) d
  refine ⟨hcapacity, hroom, hroom ▸ horderly.length_le, ?_⟩
  intro now j n hnow set
  have hset : set = (.ok (), c.hold ⟨j.cacheKey, n, now + 1000 * settings.lifetime⟩) := by
    change c.set now j n = _
    rw [Cache.set, hlifetime, if_neg (by omega)]
  have hheld : set.2.lookup? j.cacheKey
      = some ⟨j.cacheKey, n, now + 1000 * settings.lifetime⟩ := by
    rw [hset]
    exact lookup?_hold c ⟨j.cacheKey, n, now + 1000 * settings.lifetime⟩
  refine ⟨congrArg Prod.fst hset, get_of_lookup? hheld (by dsimp only; omega), ?_⟩
  intro later t hlater hkept ht
  exact get_of_lookup? (lookup?_after_of_kept (horderly.exec now _) hheld hlater hkept) ht

/-- An environment that asks for one entry with the longest life. -/
def tight : Surroundings where
  environment := [("ENGAGEMENT__CACHE__TTL_SECONDS", "4294967295"),
    ("engagement__cache__capacity", "1")]

/-- The settings that it gives. -/
def tightSettings : Settings := ⟨⟨some .info⟩, .compact, none, 8, true, 4294967295, 1, 3000⟩

theorem load_tight : tight.load { command := .read (book 1) } = .ok tightSettings := by
  have hlifetime := Setting.settingOf?_eq .lifetime (v := "ENGAGEMENT__CACHE__TTL_SECONDS")
    "4294967295" (by decide +kernel)
  have hcapacity := Setting.settingOf?_eq .capacity (v := "engagement__cache__capacity") "1"
    (by decide +kernel)
  have hnamed : (none : Option String).elim (.ok []) tight.source = .ok [] := rfl
  have htree := Surroundings.treeOf_eq rfl rfl hnamed
  simp only [Surroundings.fromVariables, tight, List.filterMap_cons, List.filterMap_nil,
    hlifetime, hcapacity] at htree
  exact Surroundings.load_eq (i := { command := .read (book 1) }) htree
    (d := { lifetime := some 4294967295, capacity := some 1 }) (by decide +kernel)

/-- At the last time that it may be, an entry is set for as long as can be, and served until
then. -/
theorem accepted_serves_tight :
    let c := tightSettings.cacheOptions.build.after visits
    let now := horizon - 1000 * Word.size32
    let set := c.exec now (.set (book 1) ⟨1, 0, 0⟩)
    let later : Diary := [⟨now + 7, .delete (book 2)⟩, ⟨now + 5, .adjust (book 1) .likes 5⟩]
    tight.load { command := .read (book 1) } = .ok tightSettings ∧
    c.size ≤ 1 ∧ now + 1000 * Word.size32 ≤ horizon ∧ set.1 = .ok () ∧
    set.2.evicted (book 1) later = false ∧
    ((set.2.after later).exec (now + 4294967294999) (.get (book 1))).1 = .ok (some ⟨1, 5, 0⟩) := by
  intro c now set later
  obtain ⟨-, -, hsize, hserves⟩ := accepted_serves load_tight visits
  have hnow : now + 1000 * Word.size32 ≤ horizon := by decide
  obtain ⟨hset, -, hlater⟩ := hserves now (book 1) ⟨1, 0, 0⟩ hnow
  have hlived : ∀ a ∈ later,
      a.now < now + 1000 * tightSettings.lifetime ∧ a.op.ends (book 1) = false := by decide
  have hkept : set.2.evicted (book 1) later = false := by rfl
  exact ⟨load_tight, hsize, hnow, hset, hkept,
    hlater later (now + 4294967294999) hlived hkept (by decide)⟩

end Cache

end Popularity
