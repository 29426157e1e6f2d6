import Popularity.Cache.Basic
import Popularity.Failure
import Popularity.Report
import Popularity.Request

/-!
# Upkeep of the cache

What the service does to the cache without letting its callers wait: to follow a write, and to
fill in counts that had to be fetched. How each job ended is reported and has no other effect.

## Main definitions

* `Upkeep`, its `name` and the cache operation `op` it stands for
* `Upkeep.outcome`, `Upkeep.failure`
-/

namespace Popularity

/-- A job for the background. -/
inductive Upkeep where
  | adjust (a : Adjustment)
  | populate (i : Item) (n : Counts)
  deriving DecidableEq, Repr, Inhabited

/-- The name of the job that follows a change of a counter. -/
def Counter.upkeepName : Counter → String
  | .reads => "cache.adjust_read"
  | .likes => "cache.adjust_like"
  | .collects => "cache.adjust_collect"

/-- The adjustment as a cache operation. -/
def Adjustment.op (a : Adjustment) : Cache.Op := .adjust a.item a.counter a.by_

namespace Upkeep

/-- The job's name in reports. -/
def name : Upkeep → String
  | .adjust a => a.counter.upkeepName
  | .populate .. => "cache.populate"

/-- The item that the job is about. -/
def item : Upkeep → Item
  | .adjust a => a.item
  | .populate i _ => i

/-- What the job does to the cache. -/
def op : Upkeep → Cache.Op
  | .adjust a => a.op
  | .populate i n => .set i n

end Upkeep

namespace Metric

/-- The cache failed at something. -/
def cacheError (op : String) : Metric := ⟨"engagement_cache_error_total", [("op", op)]⟩

def cacheHit : Metric := ⟨"engagement_cache_hit_total", []⟩

def cacheMiss : Metric := ⟨"engagement_cache_miss_total", []⟩

/-- There was nothing in the cache to adjust. -/
def adjustSkipped (k : Counter) : Metric :=
  ⟨"engagement_cache_adjust_skipped_total", [("field", k.column)]⟩

end Metric

/-- The fields that name an item. -/
def Item.fields (i : Item) : List (String × Field) :=
  [("biz", .shown i.kind), ("biz_id", .int i.id.toInt)]

/-- What is said about an adjustment that came to an end. -/
def Adjustment.reports (a : Adjustment) (within : List Span) : Adjusted → List Report
  | .applied v =>
    [.event { level := .debug, origin := .caching, message := "cached counter adjusted", within,
              fields := a.item.fields
                ++ [("field", .shown a.counter.column), ("value", .int v.toInt)] }]
  | .skipped =>
    [.count (.adjustSkipped a.counter),
     .event { level := .debug, origin := .caching, message := "no cached entry to adjust", within,
              fields := a.item.fields ++ [("field", .shown a.counter.column)] }]

namespace Upkeep

/-- What is said when the cache has answered. -/
def outcome : (u : Upkeep) → u.op.Answer → List Report
  | .adjust a, answer => a.reports [] answer
  | .populate .., _ => []

/-- The words for a job that the cache refused. -/
def failure (u : Upkeep) (why : CacheFailure) : String :=
  u.name ++ " for " ++ u.item.label ++ " failed: " ++ why.message

end Upkeep

end Popularity
