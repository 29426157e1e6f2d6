import Popularity.CommandLine.Basic
import Popularity.Json.Domain
import Popularity.Service

/-!
# Replies

What each command asks of the service, and what its user gets for it: a lookup is printed, a write
is noted in the log.

## Main definitions

* `Reply`
* `Command.call?`
-/

namespace Popularity

/-- What a command that went well leaves for its user. -/
inductive Reply where
  | printed (v : Json)
  | noted (message : String) (fields : List (String × Field))

namespace Reply

/-- A write to an item that was made. -/
def ofWrite (message : String) (i : Item) (others : List (String × Int64) := []) : Reply :=
  .noted message (("key", .shown i.label) :: others.map fun o => (o.1, .int o.2.toInt))

/-- Several items by their ids, in order of the ids. -/
def ofTable (t : Table Int64 Summary) : Reply :=
  .printed (.record ((t.mergeSort fun a b => a.1 ≤ b.1).map fun (id, s) =>
    (Decimal.text id.toInt, s.toJson)))

/-- What is printed. -/
def output : Reply → Option String
  | .printed v => some v.prettyText
  | .noted .. => none

/-- What is logged. -/
def reports : Reply → List Report
  | .printed _ => []
  | .noted message fields => [.event { level := .info, origin := .tool, message, fields }]

end Reply

namespace Command

/-- The call that a command stands for. It is `none` for the command that makes the tables, which
comes before any service. -/
def call? : Command → Option (Call Reply)
  | .migrate => none
  | .showItem i (some user) => some do return .printed (← Service.summary i user).toJson
  | .showItem i none => some do return .printed (← Service.publicSummary i).toJson
  | .read i => some do
    Service.perform (.read i)
    return .ofWrite "read recorded" i
  | .like i user => some do
    Service.perform (.like i user)
    return .ofWrite "like recorded" i [("uid", user)]
  | .unlike i user => some do
    Service.perform (.unlike i user)
    return .ofWrite "like cancelled" i [("uid", user)]
  | .collect i user folder => some do
    Service.perform (.collect i user folder)
    return .ofWrite "collection recorded" i [("uid", user), ("cid", folder)]
  | .uncollect i user folder => some do
    Service.perform (.uncollect i user folder)
    return .ofWrite "collection cancelled" i [("uid", user), ("cid", folder)]
  | .stats kind ids => some do return .ofTable (← Service.byId kind ids)

end Command

end Popularity
