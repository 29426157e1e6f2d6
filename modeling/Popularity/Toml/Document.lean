import Popularity.Toml.Reader

/-!
# TOML documents

A header opens a table, and the settings after it go into that table. Names in a row share what they
can, but nothing is said twice: a table has one header at most, a table made by a setting's path
belongs to the settings beside it, and what stands between braces is complete.

## Main definitions

* `Toml.Shelf` — a table while it is being filled
* `Toml.read?` — the settings of a text
-/

namespace Popularity.Toml

/-- How a table came about. -/
inductive Maker where
  /-- By its own header; it is the top of the document otherwise. -/
  | header
  /-- By a header farther down; it may still get its own. -/
  | inner
  /-- By a setting's path. -/
  | path
  deriving DecidableEq, Repr, Inhabited

/-- What is at a name while a document is being read. -/
inductive Shelf where
  /-- Something complete. -/
  | closed (v : Tree)
  | table (maker : Maker) (members : List (String × Shelf))
  /-- Several tables of one name; the last one is open. -/
  | row (earlier : List (List (String × Shelf))) (last : List (String × Shelf))
  deriving Repr, Inhabited

/-- The members of a table. -/
abbrev Members : Type := List (String × Shelf)

/-- Replaces or adds a member. -/
def Members.put : Members → String → Shelf → Members
  | [], name, s => [(name, s)]
  | (n, t) :: ms, name, s => if n = name then (name, s) :: ms else (n, t) :: Members.put ms name s

/-- Goes down a path from a table to the table at its end, making what is missing, and changes that
one. Headers may pass through any table and go into the last of several; paths of settings may pass
only through tables that no header has named. -/
def within (bySetting : Bool) (change : Maker → Members → Option Members) :
    Maker → Members → List String → Option Members
  | maker, ms, [] => change maker ms
  | _, ms, name :: path =>
    match List.lookup name ms with
    | none => do
      let maker := if bySetting then .path else .inner
      return ms.put name (.table maker (← within bySetting change maker [] path))
    | some (.closed _) => none
    | some (.row earlier last) => do
      if bySetting then none
      return ms.put name (.row earlier (← within bySetting change .header last path))
    | some (.table maker inner) => do
      if bySetting && maker = .header then none
      return ms.put name (.table maker (← within bySetting change maker inner path))

/-- Adds a setting beside those of a table that is named as the setting's path says. -/
def addSetting (path : List String) (v : Tree) (maker : Maker) (ms : Members) : Option Members :=
  let parents := path.dropLast
  within true
    (fun made ms => do
      let name ← path.getLast?
      if !parents.isEmpty && made ≠ .path then none
      if (List.lookup name ms).isSome then none
      return ms.put name (.closed v))
    maker ms parents

/-- Opens a table by its header. -/
def openTable (path : List String) (top : Members) : Option Members :=
  within false
    (fun _ ms => do
      let name ← path.getLast?
      match List.lookup name ms with
      | none => return ms.put name (.table .header [])
      | some (.table .inner inner) => return ms.put name (.table .header inner)
      | _ => none)
    .header top path.dropLast

/-- Opens one more of several tables of a name. -/
def openRow (path : List String) (top : Members) : Option Members :=
  within false
    (fun _ ms => do
      let name ← path.getLast?
      match List.lookup name ms with
      | none => return ms.put name (.row [] [])
      | some (.row earlier last) => return ms.put name (.row (earlier ++ [last]) [])
      | _ => none)
    .header top path.dropLast

/-! ### Trees -/

mutual

/-- What is at a name, as a tree. -/
def Shelf.toTree : Shelf → Tree
  | .closed v => v
  | .table _ ms => .table (treeMembers ms)
  | .row earlier last => .list (treeRow earlier ++ [.table (treeMembers last)])

/-- Members as trees. -/
def treeMembers : List (String × Shelf) → List (String × Tree)
  | [] => []
  | (name, s) :: ms => (name, s.toTree) :: treeMembers ms

/-- Several tables as trees. -/
def treeRow : List (List (String × Shelf)) → List Tree
  | [] => []
  | ms :: rest => .table (treeMembers ms) :: treeRow rest

end

mutual

/-- The tree of a written value, unless it says something twice. -/
def Written.toTree? : Written → Option Tree
  | .plain v => some v
  | .list es => (elementTrees? es).map .list
  | .inline ss => (inlineMembers? .path [] ss).map fun ms => .table (treeMembers ms)

/-- The trees of the elements of a list. -/
def elementTrees? : List Written → Option (List Tree)
  | [] => some []
  | e :: es => do return (← e.toTree?) :: (← elementTrees? es)

/-- Adds the settings between braces to members. -/
def inlineMembers? (maker : Maker) (ms : List (String × Shelf)) :
    List (List String × Written) → Option (List (String × Shelf))
  | [] => some ms
  | (path, v) :: ss => do inlineMembers? maker (← addSetting path (← v.toTree?) maker ms) ss

end

/-! ### Documents -/

/-- Takes up one line, given the path of the table that is open. -/
def takeLine (open_ : List String) (top : Members) : Line → Option (List String × Members)
  | .header path => do return (path, ← openTable path top)
  | .arrayHeader path => do return (path, ← openRow path top)
  | .setting path value => do
    let v ← value.toTree?
    return (open_, ← within false (addSetting path v) .header top open_)

/-- The settings of a text: the members of the table at its top. -/
def read? (text : String) : Option (List (String × Tree)) := do
  let (_, top) ← (← lines? text).foldlM
    (fun (s : List String × Members) l => takeLine s.1 s.2 l) ([], [])
  return treeMembers top

end Popularity.Toml
