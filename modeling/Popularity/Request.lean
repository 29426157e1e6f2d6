import Popularity.Counter
import Popularity.Item
import Popularity.Mark

/-!
# Writes

The things that can be recorded. A write either changes something or finds that there is nothing
to change (a like that is in force already); reads always change something. What a write changes in
the counts is known from the write alone, which is how the cache can follow the store.

## Main definitions

* `Write`, `Write.adjustments`
-/

namespace Popularity

/-- Something to record. -/
inductive Write where
  | read (i : Item)
  /-- All or nothing; an item may be listed more than once. -/
  | readAll (is : List Item)
  | like (i : Item) (user : Int64)
  | unlike (i : Item) (user : Int64)
  | collect (i : Item) (user : Int64) (folder : Int64)
  /-- The folder is not looked at: a user has an item in one folder at most. -/
  | uncollect (i : Item) (user : Int64) (folder : Int64)
  deriving DecidableEq, Repr, Inhabited

/-- A counter of an item to be moved. -/
structure Adjustment where
  item : Item
  counter : Counter
  by_ : Int64
  deriving DecidableEq, Repr, Inhabited

/-- What a write that changes something does to the counts. -/
def Write.adjustments : Write → List Adjustment
  | .read i => [⟨i, .reads, 1⟩]
  | .readAll is => is.map (⟨·, .reads, 1⟩)
  | .like i _ => [⟨i, .likes, 1⟩]
  | .unlike i _ => [⟨i, .likes, -1⟩]
  | .collect i _ _ => [⟨i, .collects, 1⟩]
  | .uncollect i _ _ => [⟨i, .collects, -1⟩]

/-- What can be asked of a store of counts and marks. -/
inductive Request where
  | write (w : Write)
  /-- The counts of one item. -/
  | counts (i : Item)
  /-- The counts of those of some items of a kind that have any, each once, by ascending id. -/
  | countsOf (kind : String) (ids : List Int64)
  /-- Whether a user's mark on an item is in force. -/
  | marked (m : Mark) (i : Item) (user : Int64)
  deriving DecidableEq, Repr, Inhabited

/-- What a store answers; a write answers whether it changed anything. -/
abbrev Request.Answer : Request → Type
  | .write _ => Bool
  | .counts _ => Option Counts
  | .countsOf .. => List (Item × Counts)
  | .marked .. => Bool

end Popularity
