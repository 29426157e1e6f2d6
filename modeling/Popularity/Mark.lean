import Popularity.Counter

/-!
# Marks

A mark is what one user puts on one item: a like, or a place in one of the user's folders. A mark
that is taken back is not removed but becomes inactive, and an inactive mark counts as absent.

## Main definitions

* `Mark`, `Mark.counter`, `Standing`
-/

namespace Popularity

/-- A sort of mark. -/
inductive Mark where
  | like
  | collection
  deriving DecidableEq, Repr, Inhabited

/-- The counter of the marks of one sort. -/
def Mark.counter : Mark → Counter
  | .like => .likes
  | .collection => .collects

/-- Whether a mark is in force. -/
inductive Standing where
  | inactive
  | active
  deriving DecidableEq, Repr, Inhabited

namespace Standing

/-- The stored form. -/
def code : Standing → Nat
  | .inactive => 0
  | .active => 1

/-- The standing's name as a value. -/
def word : Standing → String
  | .inactive => "Inactive"
  | .active => "Active"

/-- The standing of a given `word`. -/
def ofWord? (s : String) : Option Standing :=
  [Standing.inactive, .active].find? (·.word == s)

theorem ofWord?_word (s : Standing) : ofWord? s.word = some s := by cases s <;> decide

end Standing

end Popularity
