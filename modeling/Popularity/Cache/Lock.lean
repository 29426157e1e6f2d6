import Popularity.Cache.Basic
import Popularity.Report

/-!
# Working a cache

The cache as its users work it: there may be none, which then holds nothing and never crashes, and
each operation that takes a tainted lock says so.

## Main definitions

* `Cache.recovered` — the warning
* `Cache.work` — one operation on a cache that may be absent, with what it reports
-/

namespace Popularity.Cache

/-- The warning that an operation took a tainted lock. -/
def recovered (o : Op) : Event where
  level := .warn
  origin := .cacheLock
  message := "Recovered from poisoned counter cache lock"
  fields := [("op", .text o.name), ("target_module", .text "cache::store"),
    ("lock_kind", .text "mutex.lock"), ("result", .text "poisoned_recovered"),
    ("hint", .text "counter entries may be stale after panic in another thread")]

/-- What an operation says about the lock it takes. -/
def notices (c : Cache) (now : Nat) (o : Op) : List Report :=
  if c.tainted && c.locks now o then [.event (recovered o)] else []

/-- Runs one operation. -/
def work (now : Nat) (o : Op) : Option Cache → (Except Crash o.Answer × Option Cache) × List Report
  | none => ((.ok o.missed, none), [])
  | some c =>
    let (a, c') := c.exec now o
    ((a, some c'), c.notices now o)

end Popularity.Cache
