import Popularity.Item

/-!
# Failures

What can go wrong, by layer, and the words for it. A store failure says what the durable store
refused; a cache failure never reaches a caller; a call failure is what a service call returns; a
tool failure ends a run of the command line tool and fixes its exit code.

## Main definitions

* `StoreFailure`, `CacheFailure`, `CallFailure`, `SetupFailure`, `ToolFailure`, each with `message`
* `ToolFailure.exitCode`
-/

namespace Popularity

/-- Why a store operation was refused. -/
inductive StoreFailure where
  /-- A failure that callers cannot act on. -/
  | persistence (detail : String)
  | duplicate (rule : String)
  | notFound
  | invalidInput (detail : String)
  | integrity (detail : String)
  | timeout
  deriving DecidableEq, Repr, Inhabited

/-- The failure in words. -/
def StoreFailure.message : StoreFailure → String
  | .persistence d => "persistence error: " ++ d
  | .duplicate r => "duplicate record violates unique constraint `" ++ r ++ "`"
  | .notFound => "resource not found"
  | .invalidInput d => "invalid input: " ++ d
  | .integrity d => "integrity error: " ++ d
  | .timeout => "database timeout"

/-- Why the cache did not answer. -/
inductive CacheFailure where
  | unavailable (detail : String)
  | timeout
  deriving DecidableEq, Repr, Inhabited

/-- The failure in words. -/
def CacheFailure.message : CacheFailure → String
  | .unavailable d => "counter cache unavailable: " ++ d
  | .timeout => "counter cache operation timed out"

/-- Why a service call failed. Cache failures have no place here. -/
inductive CallFailure where
  | store (why : StoreFailure)
  /-- Nothing has ever been counted for the item. -/
  | uncounted (item : Item)
  | invalid (detail : String)
  deriving DecidableEq, Repr, Inhabited

namespace CallFailure

/-- The failure in words. -/
def message : CallFailure → String
  | .store why => why.message
  | .uncounted i => "no engagement aggregate for " ++ i.label
  | .invalid d => "domain validation failed: " ++ d

/-- Kinds and ids that cannot be paired. -/
def mismatched (kinds ids : Nat) : CallFailure :=
  .invalid ("got " ++ Decimal.text kinds ++ " biz tags but " ++ Decimal.text ids ++ " biz ids")

end CallFailure

/-- Why the tool could not be set up to serve a command. -/
inductive SetupFailure where
  | database (detail : String)
  | telemetry (detail : String)
  | configuration (detail : String)
  | runtime (detail : String)
  deriving DecidableEq, Repr, Inhabited

/-- The failure in words. -/
def SetupFailure.message : SetupFailure → String
  | .database d => "database error: " ++ d
  | .telemetry d => "telemetry initialization failed: " ++ d
  | .configuration d => "configuration error: " ++ d
  | .runtime d => "runtime error: " ++ d

/-- Why a run of the tool failed. -/
inductive ToolFailure where
  | setup (why : SetupFailure)
  | call (why : CallFailure)
  | validation (detail : String)
  | unexpected (detail : String)
  deriving DecidableEq, Repr, Inhabited

namespace ToolFailure

/-- The failure in words. -/
def message : ToolFailure → String
  | .setup why => why.message
  | .call why => why.message
  | .validation d => "validation failed: " ++ d
  | .unexpected d => "unexpected error: " ++ d

/-- The exit code tells apart what a script can react to: bad input (2), an item without counts
(3), a store that failed (4), anything else (1). -/
def exitCode : ToolFailure → Nat
  | .call (.invalid _) | .validation _ => 2
  | .call (.uncounted _) => 3
  | .setup (.database _) | .call (.store _) => 4
  | .setup _ | .unexpected _ => 1

end ToolFailure

end Popularity
