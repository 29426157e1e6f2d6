import Popularity.Call
import Popularity.Summary
import Popularity.Table

/-!
# The service

What users of the library call. The store is written first and decides; the cache only follows, and
its failures are reported and dropped. A single read waits for the cache to follow it, within the
time limit of background jobs, so that whoever read an item sees the read counted; all other writes
leave the cache to the background.

## Main definitions

* `Service.perform` — a write
* `Service.counts`, `Service.summary`, `Service.byId`, `Service.marked` — what can be looked up
-/

namespace Popularity.Service

/-- The work on one item, for those who read the log. -/
def span (origin : Origin) (name : String) (i : Item) (others : List (String × Int64) := []) :
    Span :=
  ⟨origin, name, ("key", i.described) :: others.map (fun o => (o.1, Decimal.text o.2.toInt))
    ++ [("biz", i.kind), ("biz_id", Decimal.text i.id.toInt)]⟩

/-! ### Writes -/

/-- The work of a write, if it is about one item. -/
def spans : Write → List Span
  | .read i => [span .caching "incr_read_cnt" i]
  | .readAll _ => []
  | .like i user => [span .caching "incr_like" i [("uid", user)]]
  | .unlike i user => [span .caching "decr_like" i [("uid", user)]]
  | .collect i user folder => [span .caching "incr_collect" i [("uid", user), ("cid", folder)]]
  | .uncollect i user folder => [span .caching "decr_collect" i [("uid", user), ("cid", folder)]]

/-- Lets the cache follow a single read. -/
def followRead (a : Adjustment) (within : List Span) : Call Unit := do
  match ← Call.ask (.adjust a) with
  | .answered outcome => (a.reports within outcome).forM Call.report
  | .failed why =>
    Call.count (.cacheError "cache.adjust_read")
    Call.log { level := .warn, origin := .caching, within,
               message := "failed to adjust cached read count",
               fields := a.item.fields ++ [("error", .shown why.message)] }
  | .late =>
    Call.count (.cacheError "cache.adjust_read")
    Call.log { level := .warn, origin := .caching, within,
               message := "timed out adjusting cached read count", fields := a.item.fields }

/-- Lets the cache follow a write that changed something. -/
def follow (w : Write) : Call Unit :=
  match w with
  | .read i => followRead ⟨i, .reads, 1⟩ (spans w)
  | _ => w.adjustments.forM fun a => Call.detach (.adjust a)

/-- What is said of a write that had nothing to change. -/
def unchanged (w : Write) : List Report :=
  match w with
  | .read _ | .readAll _ => []
  | .like _ user => [say "like already active" [("uid", user)]]
  | .unlike _ user => [say "no active like to cancel" [("uid", user)]]
  | .collect _ user folder => [say "collection already active" [("uid", user), ("cid", folder)]]
  | .uncollect _ user folder =>
    [say "no active collection to cancel" [("uid", user), ("cid", folder)]]
where
  say (message : String) (fields : List (String × Int64)) : Report :=
    .event { level := .debug, origin := .caching, message, within := spans w,
             fields := fields.map fun f => (f.1, .int f.2.toInt) }

/-- Records a write. An empty list of reads is nothing to record. -/
def perform (w : Write) : Call Unit := do
  if w = .readAll [] then return
  if ← Call.store (.write w) then follow w
  else (unchanged w).forM Call.report

/-- Records one read for each kind and the id at its place. -/
def readZipped (kinds : List String) (ids : List Int64) : Call Unit :=
  match Item.zip? kinds ids with
  | some is => perform (.readAll is)
  | none => throw (.mismatched kinds.length ids.length)

/-! ### Looking up -/

/-- Whether a mark is in force, given what the store said. Not to find it is no failure. -/
def found : Except StoreFailure Bool → Except CallFailure Bool
  | .ok b => .ok b
  | .error .notFound => .ok false
  | .error why => .error (.store why)

/-- Whether a user's mark is in force. -/
def marked (m : Mark) (i : Item) (user : Int64) : Call Bool := do
  match found (← Call.ask (.store (.marked m i user))) with
  | .ok b => return b
  | .error why => throw why

/-- The counts from the store, and into the cache. -/
def fetch (i : Item) : Call Counts := do
  match ← Call.store (.counts i) with
  | some n =>
    Call.detach (.populate i n)
    return n
  | none => throw (.uncounted i)

/-- The counts of an item, from the cache if it holds them. -/
def counts (i : Item) (within : List Span := []) : Call Counts := do
  match ← Call.ask (.cached i) with
  | .ok (some n) =>
    Call.count .cacheHit
    return n
  | .ok none =>
    Call.count .cacheMiss
    fetch i
  | .error why =>
    Call.count (.cacheError "cache.get")
    Call.log { level := .warn, origin := .caching, within := within ++ [span .caching "get" i],
               message := "counter cache read failed, falling back to store",
               fields := [("error", .shown why.message)] }
    fetch i

/-- An item as everybody sees it. -/
def publicSummary (i : Item) : Call Summary := return .ofCounts i (← counts i)

/-- A mark that was looked up; a failure is logged and taken for no mark. -/
def markOr (within : List Span) (user : Int64) (what : String)
    (looked : Except StoreFailure Bool) : Call Bool := do
  match found looked with
  | .ok b => return b
  | .error why =>
    Call.log { level := .error, origin := .service, message := "failed to look up " ++ what, within,
               fields := [("uid", .int user.toInt), ("error", .shown why.message)] }
    return false

/-- An item as one user sees it. Only a failure to get at the counts is a failure. -/
def summary (i : Item) (user : Int64) : Call Summary := do
  let within := [span .service "get" i [("uid", user)]]
  let n ← counts i within
  let (liked, collected) ← Call.ask (.marks i user)
  let liked ← markOr within user "like state" liked
  let collected ← markOr within user "collection state" collected
  return ⟨i, n, liked, collected⟩

/-- Several items of a kind as everybody sees them, as the store lists them; those without counts
are left out. -/
def listed (kind : String) (ids : List Int64) : Call (List Summary) := do
  return (← Call.store (.countsOf kind ids)).map fun (i, n) => .ofCounts i n

/-- Several items of a kind by their ids. -/
def byId (kind : String) (ids : List Int64) : Call (Table Int64 Summary) := do
  return (← listed kind ids).foldl (fun t s => t.put s.item.id s) []

end Popularity.Service
