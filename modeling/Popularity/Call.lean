import Popularity.Dialogue
import Popularity.Upkeep

/-!
# Calls

A call of the service as a dialogue with its surroundings: the store, the cache, the background and
whoever listens to reports. The service in `Popularity.Service` is written in these questions and
knows nothing else.

## Main definitions

* `Call.Query` and `Call.Query.Answer`
* `Call α` — a call that may fail with a `CallFailure`
-/

namespace Popularity

/-- The answer of the cache to an operation that has a time limit. -/
inductive Bounded (α : Type) where
  | answered (a : α)
  | failed (why : CacheFailure)
  | late
  deriving Repr, Inhabited

/-- The answer of a cache that was in time. -/
def Bounded.ofResult {α : Type} : Except CacheFailure α → Bounded α
  | .ok a => .answered a
  | .error why => .failed why

namespace Call

/-- What a call may ask for. -/
inductive Query where
  /-- One request to the store. -/
  | store (r : Request)
  /-- Both marks of a user on an item, looked up at the same time. -/
  | marks (i : Item) (user : Int64)
  /-- The counts that the cache holds. -/
  | cached (i : Item)
  /-- An adjustment of the cache, for which the call waits no longer than a background job may
  take. -/
  | adjust (a : Adjustment)
  /-- A job for the background. -/
  | detach (u : Upkeep)
  | report (r : Report)

/-- What a call is answered. -/
abbrev Query.Answer : Query → Type
  | .store r => Except StoreFailure r.Answer
  | .marks .. => Except StoreFailure Bool × Except StoreFailure Bool
  | .cached _ => Except CacheFailure (Option Counts)
  | .adjust _ => Bounded Adjusted
  | .detach _ => Unit
  | .report _ => Unit

end Call

/-- A call of the service. -/
abbrev Call (α : Type) : Type := ExceptT CallFailure (Dialogue Call.Query Call.Query.Answer) α

namespace Call

/-- Asks one question. -/
def ask (q : Query) : Call q.Answer := ExceptT.lift (Dialogue.question q)

/-- Asks the store; its failure is the call's failure. -/
def store (r : Request) : Call r.Answer := do
  match ← ask (.store r) with
  | .ok a => return a
  | .error why => throw (.store why)

/-- Leaves a job to the background. -/
def detach (u : Upkeep) : Call Unit := ask (.detach u)

/-- Says something. -/
def report (r : Report) : Call Unit := ask (.report r)

/-- Logs an event. -/
def log (e : Event) : Call Unit := report (.event e)

/-- Counts an occurrence. -/
def count (m : Metric) : Call Unit := report (.count m)

end Call

end Popularity
