import Popularity.Database.Script
import Popularity.Engine

/-!
# The database server

A server with the connection through which the store talks to it. Statements outside a transaction
take effect at once; those inside work on a copy of the tables, which replaces the tables when the
transaction is committed and is thrown away if anything goes wrong before.

Single statements can be made to fail; see `SqlFault`.

## Main definitions

* `Server`, `Server.send`, `Server.run`
* `Server.site` — the server as a store for the service
-/

namespace Popularity

/-- A statement to come that will be refused. -/
structure SqlFault where
  /-- The statement's verb, alone or with a blank and the name of its table. -/
  on : String
  /-- How many such statements go through first. -/
  skip : Nat
  refusal : Refusal
  deriving DecidableEq, Repr, Inhabited

/-- Whether a fault is about statements like this one. -/
def SqlFault.concerns (f : SqlFault) (s : Statement) : Bool :=
  f.on = s.verb || s.relation?.any fun r => f.on = s.verb ++ " " ++ r

/-- The refusal that a statement meets, and the faults that remain. Only the first fault that
concerns the statement is looked at. -/
def SqlFault.meet (s : Statement) : List SqlFault → Option Refusal × List SqlFault
  | [] => (none, [])
  | f :: fs =>
    if f.concerns s then
      if f.skip = 0 then (some f.refusal, fs) else (none, { f with skip := f.skip - 1 } :: fs)
    else
      let (met, fs) := meet s fs
      (met, f :: fs)

/-- Where the store's only connection is. -/
inductive Pool where
  | ready
  /-- Somebody else holds it. -/
  | held
  | closed
  deriving DecidableEq, Repr, Inhabited

/-- A database server. -/
structure Server where
  /-- The committed tables, once there are any. -/
  tables : Option Tables := some {}
  /-- The tables as the open transaction sees them. -/
  draft : Option (Option Tables) := none
  pool : Pool := .ready
  faults : List SqlFault := []
  /-- Goes up by one for every script. -/
  clock : Nat := 0
  /-- The statements that have reached the server. -/
  issued : List Statement := []
  deriving Repr, Inhabited

namespace Server

/-- The failure of a connection that cannot be had. -/
def unreachable? (v : Server) : Option AccessFailure :=
  match v.pool with
  | .ready => none
  | .held => some .poolTimedOut
  | .closed => some .poolClosed

/-- The tables as a statement sees them. -/
def current (v : Server) : Option Tables := v.draft.getD v.tables

/-- Replaces the tables that statements see. -/
def replace (v : Server) (t : Option Tables) : Server :=
  match v.draft with
  | some _ => { v with draft := some t }
  | none => { v with tables := t }

/-- Does a statement that no fault stops. -/
def execute (v : Server) (s : Statement) : Except Refusal s.Answer × Server :=
  match s with
  | .begin_ => (.ok (), { v with draft := some v.tables })
  | .commit => (.ok (), { v with tables := v.current, draft := none })
  | .createTables => (.ok (), v.replace (some (v.current.getD {})))
  | s =>
    match v.current with
    | none =>
      if s.needsTables then (.error (Statement.noTable (s.relation?.getD "")), v)
      else match s.exec v.clock {} with
        | .ok (a, _) => (.ok a, v)
        | .error why => (.error why, v)
    | some t =>
      match s.exec v.clock t with
      | .ok (a, t) => (.ok a, v.replace (some t))
      | .error why => (.error why, v)

/-- Sends a statement. -/
def send (s : Statement) (v : Server) : Except AccessFailure s.Answer × Server :=
  match v.unreachable? with
  | some why => (.error why, v)
  | none =>
    let (met, faults) := SqlFault.meet s v.faults
    let v := { v with faults, issued := v.issued ++ [s] }
    match met with
    | some why => (.error (.refused why), v)
    | none =>
      let (a, v) := v.execute s
      (a.mapError .refused, v)

/-- A script at work, ended early by a failure to reach the server or a refusal. -/
abbrev Session : Type → Type := ExceptT AccessFailure (StateM Server)

/-- Runs a script. A transaction that is open at its end is thrown away. -/
def run {α : Type} (script : Script α) (v : Server) :
    Except AccessFailure (Except StoreFailure α) × Server :=
  let session : Session (Except StoreFailure α) := Dialogue.run (m := Session) send script.run
  let (result, v) := (session.run { v with clock := v.clock + 1 }).run
  (result, { v with draft := none })

/-- Runs a script for the store. -/
def serve {α : Type} (script : Script α) (v : Server) : Except StoreFailure α × Server :=
  match v.run script with
  | (.ok result, v) => (result, v)
  | (.error why, v) => (.error why.toStore, v)

/-- The server as a store. -/
def site : Site Server := ⟨fun r v => v.serve (.ofRequest r), true⟩

/-- Runs a script that says nothing about the store's own failures. -/
def attempt (script : Script Unit) (v : Server) : Except AccessFailure Unit × Server :=
  let (result, v) := v.run script
  (result.map fun _ => (), v)

/-- Looks whether the server answers. -/
def healthCheck (v : Server) : Except AccessFailure Unit × Server := v.attempt (Script.send .ping)

/-- Makes the tables. -/
def migrate (v : Server) : Except AccessFailure Unit × Server :=
  v.attempt (.migrate v.tables.isSome)

/-- The words for a failure to make the tables. -/
def migrationFailure (why : AccessFailure) : String := "while executing migrations: " ++ why.message

/-- Takes the connection for somebody else, in an empty transaction. -/
def hold (v : Server) : Except AccessFailure Unit × Server :=
  let (result, v) := v.attempt (Script.send .begin_)
  (result, if result.toBool then { v with pool := .held } else v)

/-- Gives the connection back. -/
def release (v : Server) : Server := if v.pool = .held then { v with pool := .ready } else v

/-- Closes the pool for good. -/
def close (v : Server) : Server := { v with pool := .closed }

end Server

end Popularity
