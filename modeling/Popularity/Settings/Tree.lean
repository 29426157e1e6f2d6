import Popularity.Decimal.Binary64

/-!
# Trees of settings

What a source of settings says: a tree of tables and lists with plain values at its ends. Sources
come one after another, and what a later one says is laid over what the earlier ones said: tables
are joined name by name, and anything else takes the place of what was there.

A plain value is taken for what a setting needs as far as that makes sense: a number for a truth
value, the word `yes` for the number one.

## Main definitions

* `Tree`, `Tree.overlay`
* `Tree.Place`, `Tree.setAt` — a value for one place in the tree
* `Tree.asBool?`, `Tree.asCount?`, `Tree.asText?`
-/

namespace Popularity

/-- A tree of settings. -/
inductive Tree where
  /-- A place with nothing in it. -/
  | blank
  | bool (b : Bool)
  | int (n : Int)
  | float (x : Binary64)
  | text (s : String)
  | list (elements : List Tree)
  | table (members : List (String × Tree))
  deriving Repr, Inhabited

namespace Tree

/-! ### Laying trees over each other -/

/-- The members of a table; anything else has none. -/
def members : Tree → List (String × Tree)
  | .table ms => ms
  | _ => []

/-- The elements of a list; anything else has none. -/
def elements : Tree → List Tree
  | .list es => es
  | _ => []

/-- The member of a name. -/
def member? (t : Tree) (name : String) : Option Tree := t.members.lookup name

/-- Puts a member into some members. -/
def putMember : List (String × Tree) → String → Tree → List (String × Tree)
  | [], name, v => [(name, v)]
  | (n, w) :: ms, name, v => if n = name then (name, v) :: ms else (n, w) :: putMember ms name v

/-- Puts a member. What is not a table becomes one. -/
def put (t : Tree) (name : String) (v : Tree) : Tree := .table (putMember t.members name v)

/-- The table to join with, where there is nothing yet. -/
def orTable : Option Tree → Tree
  | none | some .blank => .table []
  | some t => t

mutual

/-- What is at a place after a value was laid over it. -/
def overlay (old : Option Tree) : Tree → Tree
  | .table ms => overlayMembers (orTable old) ms
  | v => v

/-- Lays members over a tree, one after another. -/
def overlayMembers (t : Tree) : List (String × Tree) → Tree
  | [] => t
  | (name, v) :: ms => overlayMembers (t.put name (overlay (t.member? name) v)) ms

end

/-! ### Places -/

/-- One step down a tree. -/
inductive Place where
  | member (name : String)
  /-- An element of a list; a negative number counts from the end. -/
  | element (index : Int)
  deriving DecidableEq, Repr, Inhabited

/-- A list with an element at an index, and that index; blanks fill a gap. -/
def stretch (es : List Tree) : Int → List Tree × Nat
  | .ofNat i => (es ++ List.replicate (i + 1 - es.length) .blank, i)
  | .negSucc i =>
    if i < es.length then (es, es.length - (i + 1))
    else (List.replicate (i + 1 - es.length) .blank ++ es, 0)

/-- Gives a value to a place. What stands in the way is replaced by a table or a list. -/
def setAt (t : Tree) (v : Tree) : List Place → Tree
  | [] => v
  | [.member name] => t.put name (overlay (t.member? name) v)
  | .member name :: rest => t.put name (setAt ((t.member? name).getD .blank) v rest)
  | .element index :: rest =>
    let (es, i) := stretch t.elements index
    .list (es.set i (setAt (es.getD i .blank) v rest))

/-! ### Plain values -/

/-- The words for true, in lower case. -/
def yes : List String := ["1", "true", "on", "yes"]

/-- The words for false, in lower case. -/
def no : List String := ["0", "false", "off", "no"]

/-- A truth value. -/
def asBool? : Tree → Option Bool
  | .bool b => some b
  | .int n => some (n ≠ 0)
  | .float x => some !x.isZero
  | .text s =>
    if yes.contains s.toLower then some true
    else if no.contains s.toLower then some false
    else none
  | _ => none

/-- A whole number that fits 64 bits and has no sign. -/
def asCount? : Tree → Option Nat
  | .bool b => some b.toNat
  | .int n => if 0 ≤ n ∧ n < Word.size64 then some n.toNat else none
  | .float x => some x.toCount
  | .text s =>
    if (yes.drop 1).contains s.toLower then some 1
    else if (no.drop 1).contains s.toLower then some 0
    else (Decimal.readUnsigned? s.toList).filter (· < Word.size64)
  | _ => none

/-- As `asCount?`, for 32 bits. -/
def asSmallCount? (t : Tree) : Option Nat := t.asCount?.filter (· < Word.size32)

/-- A text. -/
def asText? : Tree → Option String
  | .text s => some s
  | .bool true => some "true"
  | .bool false => some "false"
  | .int n => some (Decimal.text n)
  | .float x => some x.text
  | _ => none

end Tree

end Popularity
