import Popularity.Word

/-!
# Counters

Each item has three counters. `Counts` is one value of all three; a counter is moved by a checked
addition, so a `Counts` never holds a wrapped number.

## Main definitions

* `Counter`, in the order reads, likes, collects
* `Counts`, `Counts.get`, `Counts.put`, `Counts.add?`
-/

namespace Popularity

/-- One of the three counters of an item. -/
inductive Counter where
  | reads
  | likes
  | collects
  deriving DecidableEq, Repr, Inhabited

namespace Counter

/-- All counters in their order. -/
def all : List Counter := [.reads, .likes, .collects]

/-- The place of a counter in `all`. -/
def rank : Counter → Nat
  | .reads => 0
  | .likes => 1
  | .collects => 2

/-- The name of the counter in tables, cache entries and messages. -/
def column : Counter → String
  | .reads => "read_cnt"
  | .likes => "like_cnt"
  | .collects => "collect_cnt"

/-- The name of the counter where it stands alone as a value. -/
def word : Counter → String
  | .reads => "read"
  | .likes => "like"
  | .collects => "collect"

/-- The counter of a given `word`. -/
def ofWord? (s : String) : Option Counter := all.find? (·.word == s)

/-- Counters sorted by rank; equal ones are kept. -/
def sorted (cs : List Counter) : List Counter := cs.mergeSort fun a b => a.rank ≤ b.rank

/-- The counter of highest rank. -/
def highest? (cs : List Counter) : Option Counter := (sorted cs).getLast?

theorem all_getElem?_rank (c : Counter) : all[c.rank]? = some c := by cases c <;> rfl

theorem ofWord?_word (c : Counter) : ofWord? c.word = some c := by cases c <;> decide

end Counter

/-- The values of an item's three counters. -/
structure Counts where
  reads : Int64
  likes : Int64
  collects : Int64
  deriving DecidableEq, Repr, Inhabited

namespace Counts

/-- The counts of an item that nobody has touched. -/
def zero : Counts := ⟨0, 0, 0⟩

/-- The value of one counter. -/
def get (n : Counts) : Counter → Int64
  | .reads => n.reads
  | .likes => n.likes
  | .collects => n.collects

/-- Replaces the value of one counter. -/
def put (n : Counts) (c : Counter) (v : Int64) : Counts :=
  match c with
  | .reads => { n with reads := v }
  | .likes => { n with likes := v }
  | .collects => { n with collects := v }

/-- Adds to one counter; `none` if the sum is out of range. -/
def add? (n : Counts) (c : Counter) (by_ : Int64) : Option Counts :=
  (Word.plus? (n.get c) by_).map (n.put c)

@[simp] theorem get_put_self (n : Counts) (c : Counter) (v : Int64) : (n.put c v).get c = v := by
  cases c <;> rfl

theorem get_put_of_ne (n : Counts) {c d : Counter} (h : d ≠ c) (v : Int64) :
    (n.put c v).get d = n.get d := by
  cases c <;> cases d <;> first | rfl | exact absurd rfl h

@[ext] theorem ext_get {m n : Counts} (h : ∀ c, m.get c = n.get c) : m = n := by
  cases m; cases n
  have h1 := h .reads
  have h2 := h .likes
  have h3 := h .collects
  simp_all [get]

end Counts

end Popularity
