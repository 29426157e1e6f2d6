import Popularity.Cache.Lock
import Popularity.Proofs.Cache.Recency

/-!
# Crashes under the lock

An adjustment whose sum no counter can hold crashes while it holds the lock of the cache, between
two changes: the entry has become the most recent one, and its counts are still to be replaced. So
what the crash leaves behind is a cache in good order, with the same entries in another order of
use. To set an entry whose end the clock cannot show is a crash of another sort: the lock has not
been taken yet, and nothing at all has changed.

A lock that was held during a crash is tainted for good. No operation asks whether it is, except to
say so. So a tainted cache answers and holds what it would if it were clean, and it can be told from
a clean one only by the warnings.

## Main definitions

* `Cache.overflows` — whether an operation crashes under the lock
* `Cache.overflowed` — whether one has, of all that has been asked
* `Cache.clean` — the cache with a lock that is not tainted

## Main results

* `Cache.exec_eq_crash_iff` — the crashes that there are
* `Cache.lookup?_hold_self`, `Cache.exec_of_overflows` — what a crash under the lock leaves behind
* `Cache.exec_clean`, `Cache.clean_after` — the taint makes no difference
* `Cache.tainted_after` — where it comes from
* `Cache.overflow_harmless`
-/

namespace Popularity.Cache

variable {c : Cache} {e : Entry} {now : Nat} {o : Op}

/-! ### Crashes -/

/-- Whether an operation crashes under the lock: it adds to a live entry more than a counter can
hold. -/
def overflows (c : Cache) (now : Nat) : Op → Bool
  | .adjust i k by_ => (c.lookup? i.cacheKey).any fun e =>
      now < e.expiresAt && (e.counts.add? k by_).isNone
  | _ => false

theorem overflows_adjust_iff {i : Item} {k : Counter} {by_ : Int64} :
    c.overflows now (.adjust i k by_) = true ↔
      ∃ e, c.lookup? i.cacheKey = some e ∧ now < e.expiresAt ∧ e.counts.add? k by_ = none := by
  simp [overflows, Option.any_eq_true]

/-- A sum is refused just if it is out of range. -/
theorem add?_eq_none_iff {n : Counts} {k : Counter} {by_ : Int64} :
    n.add? k by_ = none ↔ (n.get k).toInt + by_.toInt < -Word.bound ∨
      Word.bound ≤ (n.get k).toInt + by_.toInt := by
  rw [Counts.add?, Option.map_eq_none_iff, Word.plus?, Word.ofInt?]
  split
  next h => exact iff_of_false (Option.some_ne_none _) (by omega)
  next h => exact iff_of_true rfl (by omega)

/-- An operation crashes under the lock just if it adds too much, and before it takes the lock just
if it sets an entry whose end the clock cannot show. -/
theorem exec_eq_crash_iff (crash : Crash) :
    (c.exec now o).1 = .error crash ↔
      crash = .counterOverflow ∧ c.overflows now o = true ∨
        crash = .clockOverflow ∧ c.locks now o = false := by
  cases o with
  | get i => simp [exec, overflows, locks]
  | set i n =>
    rw [exec]
    rcases set_cases c now i n with ⟨hle, h⟩ | ⟨hlt, h⟩ <;> rw [h]
    · simp [overflows, locks, hle]
    · simp [overflows, locks, hlt, eq_comm]
  | adjust i k by_ =>
    rw [exec, overflows_adjust_iff]
    rcases adjust_cases c now i k by_ with
      ⟨e, n, he, hlive, hn, h⟩ | ⟨e, he, hlive, hn, h⟩ | ⟨e, he, hdead, h⟩ | ⟨he, h⟩ <;> rw [h]
    · simp [he, hn, locks]
    · simp [he, hlive, hn, locks, eq_comm]
    · simp [he, Nat.not_lt.mpr hdead, locks]
    · simp [he, locks]
  | delete i => simp [exec, overflows, locks]
  | size => simp [exec, overflows, locks]

/-! ### What a crash leaves behind -/

/-- To use an entry changes no entry. -/
theorem lookup?_hold_self (h : Orderly c) (he : c.lookup? e.name = some e) (name : String) :
    (c.hold e).lookup? name = c.lookup? name := by
  have hheld : Orderly (c.hold e) := h.hold e
  have hperm : (c.hold e).entries.Perm c.entries := by
    rw [entries_hold_of_mem h he]
    exact (h.perm_cons (lookup?_eq_some he).1).symm
  cases hn : c.lookup? name with
  | none =>
    refine List.find?_eq_none.mpr fun e' he' => ?_
    simpa using lookup?_eq_none hn e' (hperm.mem_iff.mp he')
  | some e' =>
    obtain ⟨hmem, rfl⟩ := lookup?_eq_some hn
    exact lookup?_of_mem hheld (hperm.mem_iff.mpr hmem)

/-- **What a crash under the lock leaves behind**: the same cache with the entry in front, and a
tainted lock. -/
theorem exec_of_overflows {i : Item} {k : Counter} {by_ : Int64} (h : Orderly c)
    (he : c.lookup? i.cacheKey = some e) (hlive : now < e.expiresAt)
    (hover : e.counts.add? k by_ = none) :
    c.exec now (.adjust i k by_) = (.error .counterOverflow,
      { c with entries := e :: c.entries.filter (·.name != e.name), tainted := true }) := by
  have hname : c.lookup? e.name = some e := by rw [(lookup?_eq_some he).2, he]
  rw [exec, adjust, he]
  dsimp only
  rw [if_pos hlive, hover, ← entries_hold_of_mem h hname]
  rfl

/-! ### Caches that were cleaned -/

/-- The cache with a lock that is not tainted. -/
def clean (c : Cache) : Cache := { c with tainted := false }

/-- What is asked of a cache is answered alike, and does the same, if it is cleaned before. -/
theorem exec_clean (c : Cache) (now : Nat) (o : Op) :
    (c.clean.exec now o).1 = (c.exec now o).1 ∧
      (c.clean.exec now o).2.clean = (c.exec now o).2.clean := by
  have hlookup (i : Item) : c.clean.lookup? i.cacheKey = c.lookup? i.cacheKey := rfl
  cases o with
  | get i =>
    rw [exec, exec, get, get, hlookup]
    cases c.lookup? i.cacheKey with
    | none => exact ⟨rfl, rfl⟩
    | some e => dsimp only; split <;> exact ⟨rfl, rfl⟩
  | set i n =>
    have hlifetime : c.clean.lifetime = c.lifetime := rfl
    rw [exec, exec, set, set, hlifetime]
    split <;> exact ⟨rfl, rfl⟩
  | adjust i k by_ =>
    rw [exec, exec, adjust, adjust, hlookup]
    cases c.lookup? i.cacheKey with
    | none => exact ⟨rfl, rfl⟩
    | some e =>
      dsimp only
      split
      · cases e.counts.add? k by_ <;> exact ⟨rfl, rfl⟩
      · exact ⟨rfl, rfl⟩
  | delete i => exact ⟨rfl, rfl⟩
  | size => exact ⟨rfl, rfl⟩

/-- Whatever has been asked of two caches that differ in the taint at most, they still do. -/
theorem clean_after {c c' : Cache} (h : c.clean = c'.clean) (d : Diary) :
    (c.after d).clean = (c'.after d).clean := by
  induction d with
  | nil => exact h
  | cons a d ih =>
    rw [after, after, ← (exec_clean (c.after d) a.now a.op).2, ih, (exec_clean _ a.now a.op).2]

/-! ### Where the taint comes from -/

theorem tainted_exec (c : Cache) (now : Nat) (o : Op) :
    (c.exec now o).2.tainted = (c.tainted || c.overflows now o) := by
  cases o with
  | get i =>
    rw [exec]
    rcases get_cases c now i with ⟨e, -, -, h⟩ | ⟨e, -, -, h⟩ | ⟨-, h⟩ <;> rw [h] <;>
      exact (Bool.or_false _).symm
  | set i n =>
    rw [exec]
    rcases set_cases c now i n with ⟨-, h⟩ | ⟨-, h⟩ <;> rw [h] <;> exact (Bool.or_false _).symm
  | adjust i k by_ =>
    rw [exec]
    rcases adjust_cases c now i k by_ with
      ⟨e, n, he, hlive, hn, h⟩ | ⟨e, he, hlive, hn, h⟩ | ⟨e, he, hdead, h⟩ | ⟨he, h⟩ <;> rw [h]
    · simp [overflows, he, hn, hold]
    · simp [overflows, he, hlive, hn]
    · simp [overflows, he, Nat.not_lt.mpr hdead, drop]
    · simp [overflows, he]
  | delete i => exact (Bool.or_false _).symm
  | size => exact (Bool.or_false _).symm

/-- Whether an operation has crashed under the lock, of all that has been asked. -/
def overflowed (c : Cache) : Diary → Bool
  | [] => false
  | a :: d => overflowed c d || (c.after d).overflows a.now a.op

/-- **The lock is tainted by crashes that happened under it**, and by nothing else. -/
theorem tainted_after (c : Cache) (d : Diary) :
    (c.after d).tainted = (c.tainted || c.overflowed d) := by
  induction d with
  | nil => exact (Bool.or_false _).symm
  | cons a d ih => rw [after, tainted_exec, ih, overflowed, Bool.or_assoc]

/-- What is said about an operation: nothing, or the one warning. -/
theorem notices_after {c : Cache} (hc : c.tainted = false) (d : Diary) (now : Nat) (o : Op) :
    (c.after d).notices now o
      = if c.overflowed d && (c.after d).locks now o then [.event (recovered o)] else [] := by
  rw [notices, tainted_after, hc, Bool.false_or]

/-! ### No harm is done -/

/-- **A crash does no harm.** Whatever has been asked of a cache that was empty at first, an
adjustment that takes a counter of a live entry out of its range crashes, and the cache holds the
same entries as before, with the same counts and the same ends of their lives; the entry has been
used, and the lock is tainted. To set an entry whose end the clock cannot show crashes too, and
nothing has changed. Whatever is asked later is answered as if the lock were clean, and the same
entries are held in the same order. Each operation that takes the lock says so once if an adjustment
has crashed before, and nothing else is ever said. -/
theorem overflow_harmless (capacity lifetime : Nat) (d : Diary) :
    let c := ({ capacity, lifetime } : Cache).after d
    (∀ now i k by_ e, c.lookup? i.cacheKey = some e → now < e.expiresAt →
      ((e.counts.get k).toInt + by_.toInt < -Word.bound ∨
        Word.bound ≤ (e.counts.get k).toInt + by_.toInt) →
      let c' := (c.exec now (.adjust i k by_)).2
      (c.exec now (.adjust i k by_)).1 = .error .counterOverflow ∧
      (∀ name, c'.lookup? name = c.lookup? name) ∧
      c' = { c with entries := e :: c.entries.filter (·.name != e.name), tainted := true }) ∧
    (∀ now i n, horizon < now + lifetime → c.exec now (.set i n) = (.error .clockOverflow, c)) ∧
    (∀ later now o,
      ((c.after later).exec now o).1 = ((c.clean.after later).exec now o).1 ∧
      (c.after later).entries = (c.clean.after later).entries) ∧
    ∀ now o, (work now o (some c)).2 =
      if ({ capacity, lifetime } : Cache).overflowed d && c.locks now o then
        [.event (recovered o)] else [] := by
  intro c
  have horderly : Orderly c := orderly_after capacity lifetime d
  have hlifetime : c.lifetime = lifetime := lifetime_after d
  refine ⟨?_, ?_, ?_, fun now o => notices_after rfl d now o⟩
  · intro now i k by_ e he hlive hout c'
    have hcrash := exec_of_overflows horderly he hlive (add?_eq_none_iff.mpr hout)
    have hc' : c' = { c with
        entries := e :: c.entries.filter (·.name != e.name), tainted := true } :=
      congrArg Prod.snd hcrash
    refine ⟨congrArg Prod.fst hcrash, fun name => ?_, hc'⟩
    have hself : c.lookup? e.name = some e := by rw [(lookup?_eq_some he).2, he]
    have hheld := lookup?_hold_self horderly hself name
    rw [lookup?, entries_hold_of_mem horderly hself] at hheld
    rw [hc']
    exact hheld
  · intro now i n hend
    rw [exec, set, if_pos (hlifetime ▸ hend)]
  · intro later now o
    have hsame : c.clean = c.clean.clean := rfl
    have hclean : (c.after later).clean = (c.clean.after later).clean := clean_after hsame later
    have hentries : (c.after later).clean.entries = (c.clean.after later).clean.entries := by
      rw [hclean]
    refine ⟨?_, hentries⟩
    rw [← (exec_clean _ now o).1, hclean, (exec_clean _ now o).1]

/-- A book that was read once cannot be read as often again as a counter can hold, and nothing can
be set when the clock is at its end. -/
theorem overflow_harmless_visits :
    let c := ({ capacity := 2, lifetime := 100 } : Cache).after visits
    c.lookup? (book 1).cacheKey = some ⟨(book 1).cacheKey, ⟨1, 5, 0⟩, 110⟩ ∧ 50 < 110 ∧
    Word.bound ≤ (1 : Int64).toInt + Int64.maxValue.toInt ∧ horizon < horizon + 100 ∧
    (c.exec 50 (.adjust (book 1) .reads Int64.maxValue)).1 = .error .counterOverflow ∧
    (c.exec 50 (.adjust (book 1) .reads Int64.maxValue)).2.lookup? (book 3).cacheKey
      = c.lookup? (book 3).cacheKey ∧
    c.exec horizon (.set (book 2) ⟨2, 0, 0⟩) = (.error .clockOverflow, c) := by
  intro c
  have hheld : c.lookup? (book 1).cacheKey = some ⟨(book 1).cacheKey, ⟨1, 5, 0⟩, 110⟩ := by
    decide +kernel
  have hlive : 50 < 110 := by decide
  have hout : Word.bound ≤ (1 : Int64).toInt + Int64.maxValue.toInt := by decide
  have hend : horizon < horizon + 100 := by decide
  obtain ⟨hover, hclock, -⟩ := overflow_harmless 2 100 visits
  obtain ⟨hcrash, hsame, -⟩ := hover 50 (book 1) .reads Int64.maxValue _ hheld hlive (.inr hout)
  exact ⟨hheld, hlive, hout, hend, hcrash, hsame _, hclock horizon (book 2) ⟨2, 0, 0⟩ hend⟩

end Popularity.Cache
