import Popularity.Counter
import Popularity.Item

/-!
# Summaries

A summary is an item as it is shown: its counts and, where a user is known, whether that user
likes it and has collected it.

## Main definitions

* `Summary`, `Summary.ofCounts`
-/

namespace Popularity

/-- An item with its counts and one user's marks. -/
structure Summary where
  item : Item
  counts : Counts
  liked : Bool
  collected : Bool
  deriving DecidableEq, Repr, Inhabited

/-- The summary for nobody in particular. -/
def Summary.ofCounts (item : Item) (counts : Counts) : Summary := ⟨item, counts, false, false⟩

end Popularity
