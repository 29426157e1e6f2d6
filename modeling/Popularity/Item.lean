import Popularity.Decimal.Basic
import Popularity.Quoted

/-!
# Items

An item is what users read, like and collect: an article, a video. It is named by a kind and an id
within that kind. Kinds are free text, so a kind may hold colons or digits; the id is written last
and holds no colon, which keeps the two names below unambiguous.

## Main definitions

* `Item` and its `label`, `kind:id`
* `Item.cacheKey` — the name of the item's cache entry
* `Item.zip?` — items from a list of kinds and a list of ids
-/

namespace Popularity

/-- The target of reads, likes and collections. -/
structure Item where
  /-- What sort of item it is, `article` for instance. -/
  kind : String
  /-- Its id among the items of that kind. -/
  id : Int64
  deriving DecidableEq, Repr, Inhabited

namespace Item

/-- The name shown to people: `article:2`. -/
def label (i : Item) : String := i.kind ++ ":" ++ Decimal.text i.id.toInt

/-- The name of the item's cache entry: `interactive:article:2`. -/
def cacheKey (i : Item) : String := "interactive:" ++ i.label

/-- The item with its parts told apart, for the log. -/
def described (i : Item) : String :=
  "BizKey \x7b biz: " ++ Quoted.text i.kind ++ ", biz_id: " ++ Decimal.text i.id.toInt ++ " \x7d"

/-- Items are listed by kind, compared by code points, and then by id. -/
def before (a b : Item) : Bool :=
  a.kind < b.kind || (a.kind == b.kind && a.id ≤ b.id)

/-- Pairs kinds with ids by position; `none` if the lists differ in length. -/
def zip? (kinds : List String) (ids : List Int64) : Option (List Item) :=
  if kinds.length = ids.length then some (List.zipWith Item.mk kinds ids) else none

end Item

end Popularity
