import Popularity.Database.Failure
import Popularity.Database.Tables

/-!
# Statements

What the store says to the database, and what each statement does to the tables. A statement is
refused as a whole; a refused statement has no effect.

An item's kind has at most 128 characters in a table. Blanks beyond that are dropped when a row is
put, anything else beyond it is refused; a search compares what it is given.

## Main definitions

* `Statement`, `Statement.Answer`
* `Statement.verb`, `Statement.relation?` — its name
* `Statement.exec` — its effect on the tables
-/

namespace Popularity

/-- One statement. -/
inductive Statement where
  /-- Opens a transaction. -/
  | begin_
  /-- Keeps what the open transaction did. -/
  | commit
  /-- Adds to a counter of an item, which gets a row of zeros first if it has none. -/
  | add (i : Item) (k : Counter) (by_ : Int64)
  /-- Takes one from a counter of an item that has a row. -/
  | subtract (i : Item) (k : Counter)
  /-- Puts a mark in force, unless it is. -/
  | mark (m : Mark) (i : Item) (user folder : Int64)
  /-- Takes a mark back that is in force. -/
  | unmark (m : Mark) (i : Item) (user : Int64)
  | selectCounts (i : Item)
  /-- By ascending id. -/
  | selectCountsOf (kind : String) (ids : List Int64)
  /-- Finds marks in force only. -/
  | selectMark (m : Mark) (i : Item) (user : Int64)
  /-- Asks for a value that is in no table. -/
  | ping
  /-- Makes the log of schema changes, unless there is one. -/
  | createLog
  | selectLog
  | insertLog
  | updateLog
  /-- Makes the tables. -/
  | createTables
  deriving DecidableEq, Repr, Inhabited

namespace Statement

/-- What a statement answers. -/
abbrev Answer : Statement → Type
  /- Whether there was a row. -/
  | .subtract .. => Bool
  /- Whether a row was put or changed. -/
  | .mark .. | .unmark .. => Bool
  | .selectCounts _ => Option (Stamped Counts)
  | .selectCountsOf .. => List (Item × Stamped Counts)
  | .selectMark .. => Option (Stamped Placed)
  | _ => Unit

/-- The word that a statement starts with. -/
def verb : Statement → String
  | .begin_ => "BEGIN"
  | .commit => "COMMIT"
  | .add .. | .mark .. | .insertLog => "INSERT"
  | .subtract .. | .unmark .. | .updateLog => "UPDATE"
  | .selectCounts _ | .selectCountsOf .. | .selectMark .. | .ping | .selectLog => "SELECT"
  | .createLog | .createTables => "CREATE"

/-- The name of the table of marks of one sort. -/
def markTable : Mark → String
  | .like => "user_like_bizs"
  | .collection => "user_collection_bizs"

/-- The name of the table of counts. -/
def countTable : String := "interactives"

/-- The name of the table that a statement is about. -/
def relation? : Statement → Option String
  | .add .. | .subtract .. | .selectCounts _ | .selectCountsOf .. | .createTables => some countTable
  | .mark m .. | .unmark m .. | .selectMark m .. => some (markTable m)
  | .createLog | .selectLog | .insertLog | .updateLog => some "_sqlx_migrations"
  | .begin_ | .commit | .ping => none

/-- Whether a statement needs the tables. -/
def needsTables : Statement → Bool
  | .add .. | .subtract .. | .mark .. | .unmark .. | .selectCounts _ | .selectCountsOf ..
  | .selectMark .. => true
  | _ => false

/-! ### Refusals -/

/-- The table that a statement is about does not exist. -/
def noTable (name : String) : Refusal :=
  { code := some "42P01", message := "relation \"" ++ name ++ "\" does not exist" }

/-- Text must not hold the character zero. -/
def zeroCharacter : Refusal :=
  { code := some "22021", message := "invalid byte sequence for encoding \"UTF8\": 0x00" }

def tooLong : Refusal :=
  { code := some "22001", message := "value too long for type character varying(128)" }

def outOfRange : Refusal := { code := some "22003", message := "bigint out of range" }

/-- The kind of item that a statement speaks of. -/
def kind? : Statement → Option String
  | .add i .. | .subtract i _ | .mark _ i .. | .unmark _ i _ | .selectCounts i
  | .selectMark _ i _ => some i.kind
  | .selectCountsOf kind _ => some kind
  | _ => none

/-- The number of characters that a kind may have in a table. -/
def kindWidth : Nat := 128

/-- A kind as it is put into a table. -/
def fit? (kind : String) : Option String :=
  if kind.length ≤ kindWidth then some kind
  else if (kind.toList.drop kindWidth).all (· = ' ') then
    some (String.ofList (kind.toList.take kindWidth))
  else none

/-- An item as it is put into a table. -/
def fitItem (i : Item) : Except Refusal Item :=
  match fit? i.kind with
  | some kind => .ok { i with kind }
  | none => .error tooLong

/-- The sum of two counts. -/
def plus (n : Counts) (k : Counter) (by_ : Int64) : Except Refusal Counts :=
  match n.add? k by_ with
  | some n => .ok n
  | none => .error outOfRange

/-! ### Effects -/

/-- Adds to a counter. -/
def execAdd (now : Nat) (i : Item) (k : Counter) (by_ : Int64) (t : Tables) :
    Except Refusal Tables := do
  let i ← fitItem i
  match t.counts.get? i with
  | some row => return t.putCounts i (row.update (← plus row.value k by_) now)
  | none => return t.putCounts i (.new (Counts.zero.put k by_) now)

/-- Takes one from a counter. -/
def execSubtract (now : Nat) (i : Item) (k : Counter) (t : Tables) :
    Except Refusal (Bool × Tables) :=
  match t.counts.get? i with
  | some row => do return (true, t.putCounts i (row.update (← plus row.value k (-1)) now))
  | none => .ok (false, t)

/-- Puts a mark in force. -/
def execMark (now : Nat) (m : Mark) (i : Item) (user folder : Int64) (t : Tables) :
    Except Refusal (Bool × Tables) := do
  let i ← fitItem i
  let placed : Placed := ⟨folder, .active⟩
  match (t.marks m).get? (i, user) with
  | none => return (true, t.putMark m (i, user) (.new placed now))
  | some row =>
    if row.value.standing = .active then return (false, t)
    else return (true, t.putMark m (i, user) (row.update placed now))

/-- Takes a mark back. -/
def execUnmark (now : Nat) (m : Mark) (i : Item) (user : Int64) (t : Tables) : Bool × Tables :=
  match t.active? m (i, user) with
  | none => (false, t)
  | some row =>
    (true, t.putMark m (i, user) (row.update { row.value with standing := .inactive } now))

/-- The rows of some items of a kind. -/
def execSelectOf (kind : String) (ids : List Int64) (t : Tables) : List (Item × Stamped Counts) :=
  (t.counts.filter fun r => r.1.kind = kind && ids.contains r.1.id).mergeSort
    fun a b => a.1.id ≤ b.1.id

/-- Does a statement about the tables at a time. Statements about anything else do nothing here. -/
def effect (now : Nat) (s : Statement) (t : Tables) : Except Refusal (s.Answer × Tables) :=
  match s with
  | .add i k by_ => (((), ·)) <$> execAdd now i k by_ t
  | .subtract i k => execSubtract now i k t
  | .mark m i user folder => execMark now m i user folder t
  | .unmark m i user => .ok (execUnmark now m i user t)
  | .selectCounts i => .ok (t.counts.get? i, t)
  | .selectCountsOf kind ids => .ok (execSelectOf kind ids t, t)
  | .selectMark m i user => .ok (t.active? m (i, user), t)
  | .begin_ | .commit | .ping | .createLog | .selectLog | .insertLog | .updateLog
  | .createTables => .ok ((), t)

/-- Does a statement at a time, unless it holds text that no table can hold. -/
def exec (now : Nat) (s : Statement) (t : Tables) : Except Refusal (s.Answer × Tables) :=
  if (s.kind?.any fun kind => kind.toList.contains '\x00') then .error zeroCharacter
  else s.effect now t

end Statement

end Popularity
