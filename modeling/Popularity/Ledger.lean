import Popularity.Failure
import Popularity.Request
import Popularity.Table

/-!
# The ledger

A store kept in plain tables: what a store of counts and marks means, without connections,
statements or transactions. Each request happens at once and as a whole; one that fails changes
nothing.

## Main definitions

* `Ledger`, `Ledger.record`, `Ledger.answer`
-/

namespace Popularity

/-- A user's mark as it is stored. -/
structure Placed where
  /-- The folder of a collection, also after it was taken back. -/
  folder : Int64
  standing : Standing
  deriving DecidableEq, Repr, Inhabited

/-- Counts of items, and marks of users on items. -/
structure Ledger where
  counts : Table Item Counts := []
  likes : Table (Item × Int64) Placed := []
  collections : Table (Item × Int64) Placed := []
  deriving DecidableEq, Repr, Inhabited

namespace Ledger

/-- The marks of one sort. -/
def marks (l : Ledger) : Mark → Table (Item × Int64) Placed
  | .like => l.likes
  | .collection => l.collections

/-- Stores a mark. -/
def place (l : Ledger) (m : Mark) (i : Item) (user : Int64) (p : Placed) : Ledger :=
  match m with
  | .like => { l with likes := l.likes.put (i, user) p }
  | .collection => { l with collections := l.collections.put (i, user) p }

/-- A user's mark, if it is in force. -/
def active? (l : Ledger) (m : Mark) (i : Item) (user : Int64) : Option Placed :=
  ((l.marks m).get? (i, user)).filter (·.standing = .active)

/-- A sum that no counter can hold. -/
def outOfRange : StoreFailure := .persistence "bigint out of range"

/-- Adds to a counter of an item; an item that has no counts yet starts with zeros. -/
def bump (l : Ledger) (i : Item) (k : Counter) (by_ : Int64) : Except StoreFailure Ledger :=
  match ((l.counts.get? i).getD .zero).add? k by_ with
  | some n => .ok { l with counts := l.counts.put i n }
  | none => .error outOfRange

/-! ### Writes -/

/-- Puts a mark in force, unless it is; whether it was put. -/
def mark (l : Ledger) (m : Mark) (i : Item) (user folder : Int64) :
    Except StoreFailure (Bool × Ledger) :=
  if (l.active? m i user).isSome then .ok (false, l)
  else do
    let l ← l.bump i m.counter 1
    return (true, l.place m i user ⟨folder, .active⟩)

/-- Takes a mark back, if it is in force; whether it was. -/
def unmark (l : Ledger) (m : Mark) (i : Item) (user : Int64) :
    Except StoreFailure (Bool × Ledger) :=
  match l.active? m i user with
  | none => .ok (false, l)
  | some p =>
    if (l.counts.get? i).isNone then
      .error (.integrity ("no aggregate row for " ++ i.label))
    else do
      let l ← l.bump i m.counter (-1)
      return (true, l.place m i user { p with standing := .inactive })

/-- Records a write; whether it changed anything. -/
def record (l : Ledger) : Write → Except StoreFailure (Bool × Ledger)
  | .read i => (true, ·) <$> l.bump i .reads 1
  | .readAll is => (true, ·) <$> is.foldlM (fun l i => l.bump i .reads 1) l
  | .like i user => l.mark .like i user 0
  | .unlike i user => l.unmark .like i user
  | .collect i user folder => l.mark .collection i user folder
  | .uncollect i user _ => l.unmark .collection i user

/-! ### Requests -/

/-- The ids in ascending order, each once. -/
def distinctIds (ids : List Int64) : List Int64 := ids.eraseDups.mergeSort

/-- The counts of those of some items that have any, by ascending id. -/
def countsOf (l : Ledger) (kind : String) (ids : List Int64) : List (Item × Counts) :=
  (distinctIds ids).filterMap fun id => (l.counts.get? ⟨kind, id⟩).map (⟨kind, id⟩, ·)

/-- Answers a request. -/
def answer (r : Request) (l : Ledger) : Except StoreFailure r.Answer × Ledger :=
  match r with
  | .write w =>
    match l.record w with
    | .ok (changed, l) => (.ok changed, l)
    | .error why => (.error why, l)
  | .counts i => (.ok (l.counts.get? i), l)
  | .countsOf kind ids => (.ok (l.countsOf kind ids), l)
  | .marked m i user => (.ok (l.active? m i user).isSome, l)

end Ledger

end Popularity
