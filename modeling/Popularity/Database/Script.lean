import Popularity.Database.Statement
import Popularity.Dialogue

/-!
# Scripts

How the store answers requests by statements. A write that takes more than one statement is one
transaction, so it happens as a whole or not at all. The first statement of a like or a collection
tells whether anything changes; the counts follow only if it does.

A list of reads is put together before it is sent: one statement for each distinct item, in the
order of items. Whoever else counts reads touches rows in the same order, so no two of them wait
for each other.

## Main definitions

* `Script`
* `Script.merged` — a list of reads put together
* `Script.ofRequest`
-/

namespace Popularity

/-- A conversation with the database, which may end in a failure of the store. -/
abbrev Script (α : Type) : Type := ExceptT StoreFailure (Dialogue Statement Statement.Answer) α

namespace Script

/-- Sends one statement. -/
def send (s : Statement) : Script s.Answer := ExceptT.lift (Dialogue.question s)

/-- Statements that happen as a whole or not at all. -/
def transaction {α : Type} (body : Script α) : Script α := do
  send .begin_
  let a ← body
  send .commit
  return a

/-! ### Writes -/

/-- The distinct items of a list in their order, each with the number of its places. -/
def merged (is : List Item) : List (Item × Int64) :=
  ((is.eraseDups).mergeSort Item.before).map fun i => (i, Int64.ofNat (is.count i))

/-- Counts some reads. -/
def addReads (is : List Item) : Script Unit :=
  (merged is).forM fun (i, n) => send (.add i .reads n)

/-- A mark in force speaks of an item that has no counts. -/
def withoutCounts (i : Item) : StoreFailure :=
  .integrity ("active relation without aggregate for " ++ i.label)

/-- Puts a mark in force; whether it was put. -/
def mark (m : Mark) (i : Item) (user folder : Int64) : Script Bool :=
  transaction do
    let changed ← send (.mark m i user folder)
    if changed then send (.add i m.counter 1)
    return changed

/-- Takes a mark back; whether it was in force. -/
def unmark (m : Mark) (i : Item) (user : Int64) : Script Bool :=
  transaction do
    let changed ← send (.unmark m i user)
    if changed then
      if !(← send (.subtract i m.counter)) then throw (withoutCounts i)
    return changed

/-- Records a write. -/
def ofWrite : Write → Script Bool
  | .read i => do
    send (.add i .reads 1)
    return true
  | .readAll [] => return true
  | .readAll is => do
    transaction (addReads is)
    return true
  | .like i user => mark .like i user 0
  | .unlike i user => unmark .like i user
  | .collect i user folder => mark .collection i user folder
  | .uncollect i user _ => unmark .collection i user

/-! ### Requests -/

/-- The rows of some items of a kind; nothing is sent if there are none to look for. -/
def countsOf (kind : String) (ids : List Int64) : Script (List (Item × Stamped Counts)) :=
  if ids.isEmpty then return [] else send (.selectCountsOf kind ids)

/-- Answers a request. -/
def ofRequest : (r : Request) → Script r.Answer
  | .write w => ofWrite w
  | .counts i => do return (← send (.selectCounts i)).map (·.value)
  | .countsOf kind ids => do return (← countsOf kind ids).map fun r => (r.1, r.2.value)
  | .marked m i user => do return (← send (.selectMark m i user)).isSome

/-! ### The schema -/

/-- Makes the tables in one transaction, unless they are there. Whether they are is asked of the
log of schema changes, whose answer is the argument. -/
def migrate (done : Bool) : Script Unit := do
  send .ping
  send .ping
  send .createLog
  send .selectLog
  send .selectLog
  if !done then
    transaction do
      send .createTables
      send .insertLog
    send .updateLog
  send .ping
  send .ping

end Script

end Popularity
