import Popularity.Failure

/-!
# Failures of database access

A statement may never reach the server, or the server may refuse it with a state code and, for a
broken rule of the schema, the name of that rule. Callers of the store see only what they can act
on: `AccessFailure.toStore` sorts failures by cause, and the first matching line decides.

## Main definitions

* `Refusal` — the server's answer to a statement it will not run
* `AccessFailure` with `message` and `toStore`
-/

namespace Popularity

/-- A statement refused by the server. -/
structure Refusal where
  /-- The five-character state code. -/
  code : Option String
  message : String
  /-- The rule of the schema that the statement would break. -/
  rule : Option String := none
  deriving DecidableEq, Repr, Inhabited

namespace Refusal

/-- Whether the text `w` occurs in a text. -/
def occurs (w : List Char) : List Char → Bool
  | [] => w.isEmpty
  | c :: cs => w.isPrefixOf (c :: cs) || occurs w cs

/-- Whether the server's message mentions `w`. -/
def mentions (r : Refusal) (w : String) : Bool := occurs w.toList r.message.toList

/-- Whether the server gave the state code `c`. -/
def hasCode (r : Refusal) (c : String) : Bool := r.code == some c

end Refusal

/-- Why a statement brought no result. -/
inductive AccessFailure where
  | noRow
  | poolTimedOut
  | poolClosed
  | workerCrashed
  | protocol (detail : String)
  | columnNotFound (name : String)
  | columnIndex (index len : Nat)
  | typeNotFound (name : String)
  | configuration (detail : String)
  | tls (detail : String)
  | io (detail : String)
  | refused (why : Refusal)
  deriving DecidableEq, Repr, Inhabited

namespace AccessFailure

/-- The failure in words. -/
def message : AccessFailure → String
  | .noRow => "no rows returned by a query that expected to return at least one row"
  | .poolTimedOut => "pool timed out while waiting for an open connection"
  | .poolClosed => "attempted to acquire a connection on a closed pool"
  | .workerCrashed => "attempted to communicate with a crashed background worker"
  | .protocol d => "encountered unexpected or invalid data: " ++ d
  | .columnNotFound n => "no column found for name: " ++ n
  | .columnIndex i n =>
    "column index out of bounds: the len is " ++ Decimal.text n ++ ", but the index is "
      ++ Decimal.text i
  | .typeNotFound n => "type named " ++ n ++ " not found"
  | .configuration d => "error with configuration: " ++ d
  | .tls d => "error occurred while attempting to establish a TLS connection: " ++ d
  | .io d => "error communicating with database: " ++ d
  | .refused r => "error returned from database: " ++ r.message

/-- The state code of a row that exists already. -/
def uniqueRule : String := "23505"

/-- The state code of a reference to a missing row. -/
def referenceRule : String := "23503"

/-- The state code of a value outside its allowed set. -/
def checkRule : String := "23514"

/-- The state code of a statement stopped by the server. -/
def canceled : String := "57014"

/-- The failure as callers of the store see it. -/
def toStore : AccessFailure → StoreFailure
  | .noRow => .notFound
  | .poolTimedOut => .timeout
  | .refused r =>
    if r.hasCode uniqueRule then .duplicate (r.rule.getD "unknown")
    else if r.hasCode referenceRule || r.mentions "invalid input syntax" then
      .invalidInput r.message
    else if r.hasCode checkRule || r.mentions "violates" then .integrity r.message
    else if r.hasCode canceled then .timeout
    else .persistence (message (.refused r))
  | other => .persistence other.message

end AccessFailure

end Popularity
