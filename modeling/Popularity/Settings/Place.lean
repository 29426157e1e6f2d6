import Popularity.Settings.Tree

/-!
# Names of places

A place in a tree of settings has a name: `cache.enabled`, or `hosts[0].port`. What is not such a
name is the name of a member at the top of the tree, whatever characters it has.

## Main definitions

* `Tree.Place.read?`, `Tree.setNamed`
-/

namespace Popularity.Tree

namespace Place

/-- A character of a plain name. -/
def isNameChar (c : Char) : Bool := c.isAlphanum || c = '_' || c = '-'

/-- A plain name, with the characters after it. -/
def name? (cs : List Char) : Option (String × List Char) :=
  match cs.span isNameChar with
  | ([], _) => none
  | (name, rest) => some (String.ofList name, rest)

/-- An index, which may be negative but has no plus sign. -/
def index? : List Char → Option Int
  | '+' :: _ => none
  | cs => Decimal.readSigned? cs

/-- The steps after the first. The fuel bounds their number. -/
def steps? (fuel : Nat) (cs : List Char) : Option (List Place) :=
  match fuel, cs with
  | _, [] => some []
  | fuel + 1, '.' :: rest => do
    let (name, rest) ← name? rest
    return .member name :: (← steps? fuel rest)
  | fuel + 1, '[' :: rest =>
    match rest.span (· ≠ ']') with
    | (inner, ']' :: rest) => do return .element (← index? inner) :: (← steps? fuel rest)
    | _ => none
  | _, _ => none

/-- The place of a name. -/
def read? (name : String) : Option (List Place) := do
  let (first, rest) ← name? name.toList
  return .member first :: (← steps? rest.length rest)

/-- The place of a name, whatever it is. -/
def read (name : String) : List Place := (read? name).getD [.member name]

end Place

/-- Gives a value to the place of a name. -/
def setNamed (t : Tree) (name : String) (v : Tree) : Tree := t.setAt v (Place.read name)

/-- Lays a source over a tree: each member of its top goes to the place that its name names. -/
def layer (t : Tree) (source : List (String × Tree)) : Tree :=
  source.foldl (fun t m => t.setNamed m.1 m.2) t

end Popularity.Tree
