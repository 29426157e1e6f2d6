import Popularity.Ledger

/-!
# The tables of the database

Three tables: the counts of items, and users' marks of both sorts. Every row tells when it was made
and when it was last changed. Rows are never taken away.

## Main definitions

* `Stamped`, `Tables`
* `Tables.plain` — the tables without times
* `Tables.touched` — the rows that a stretch of work has made or changed
-/

namespace Popularity

/-- A row with its times. -/
structure Stamped (V : Type) where
  value : V
  made : Nat
  changed : Nat
  deriving DecidableEq, Repr, Inhabited

namespace Stamped

variable {V : Type}

/-- A row made at a time. -/
def new (value : V) (now : Nat) : Stamped V := ⟨value, now, now⟩

/-- The row with another value. -/
def update (r : Stamped V) (value : V) (now : Nat) : Stamped V := { r with value, changed := now }

/-- Whether the row has never been changed. -/
def fresh (r : Stamped V) : Bool := r.made = r.changed

end Stamped

/-- The tables. -/
structure Tables where
  counts : Table Item (Stamped Counts) := []
  likes : Table (Item × Int64) (Stamped Placed) := []
  collections : Table (Item × Int64) (Stamped Placed) := []
  deriving DecidableEq, Repr, Inhabited

namespace Tables

/-- The marks of one sort. -/
def marks (t : Tables) : Mark → Table (Item × Int64) (Stamped Placed)
  | .like => t.likes
  | .collection => t.collections

/-- Puts the row of a mark. -/
def putMark (t : Tables) (m : Mark) (key : Item × Int64) (row : Stamped Placed) : Tables :=
  match m with
  | .like => { t with likes := t.likes.put key row }
  | .collection => { t with collections := t.collections.put key row }

/-- Puts the row of an item's counts. -/
def putCounts (t : Tables) (i : Item) (row : Stamped Counts) : Tables :=
  { t with counts := t.counts.put i row }

/-- The row of a mark that is in force. -/
def active? (t : Tables) (m : Mark) (key : Item × Int64) : Option (Stamped Placed) :=
  ((t.marks m).get? key).filter (·.value.standing = .active)

/-- The values of the rows. -/
def plain (t : Tables) : Ledger where
  counts := t.counts.map fun r => (r.1, r.2.value)
  likes := t.likes.map fun r => (r.1, r.2.value)
  collections := t.collections.map fun r => (r.1, r.2.value)

/-- A ledger as tables in which all rows were made at time zero. -/
def ofLedger (l : Ledger) : Tables where
  counts := l.counts.map fun r => (r.1, .new r.2 0)
  likes := l.likes.map fun r => (r.1, .new r.2 0)
  collections := l.collections.map fun r => (r.1, .new r.2 0)

/-- The keys of the rows of a later table that an earlier one lacks or has with another time of
change. -/
def touchedRows {K V : Type} [BEq K] (before after : Table K (Stamped V)) : List K :=
  (after.filter fun r => ((before.get? r.1).map (·.changed)) != some r.2.changed).map (·.1)

end Tables

/-- Keys of rows in each table. -/
structure Touched where
  counts : List Item
  likes : List (Item × Int64)
  collections : List (Item × Int64)
  deriving DecidableEq, Repr, Inhabited

/-- The rows made or changed between two times. -/
def Tables.touched (before after : Tables) : Touched where
  counts := touchedRows before.counts after.counts
  likes := touchedRows before.likes after.likes
  collections := touchedRows before.collections after.collections

end Popularity
