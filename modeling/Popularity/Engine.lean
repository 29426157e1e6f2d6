import Popularity.Background
import Popularity.Cache.Lock
import Popularity.Ledger
import Popularity.Service

/-!
# The engine

The service at work: a store, a cache and a crew for the background, on one virtual clock. Calls are
answered by carrying their questions to the store and the cache. Troubles can be laid in the way of
single operations: they may fail, come late, or never come to an end.

What is taken for a cache may be of any kind. The cache of `Popularity.Cache`, or none at all, is
the kind that is meant, and the one where nothing else is said.

Nothing takes time but troubles. A call that is answered without a wait leaves its background jobs
unstarted; see `Popularity.Background`.

## Main definitions

* `CacheKind` — what can be taken for a cache
* `World`, `Scene` — what there is, and the crew beside it
* `Site` — a sort of store
* `Act`, `Action` — what can be done in a scene; a crash ends it early
* `Site.call` — runs a call of the service
* `observe` — what an action can be seen to do
-/

namespace Popularity

/-! ### Troubles -/

/-- What may befall a request to the store. -/
inductive StoreTrouble where
  /-- The request waits first. -/
  | delay (time : Nat)
  | fail (why : StoreFailure)
  deriving DecidableEq, Repr, Inhabited

/-- What may befall a cache operation. -/
inductive CacheTrouble where
  /-- The operation waits first. -/
  | delay (time : Nat)
  | fail (why : CacheFailure)
  /-- The operation never ends. -/
  | stall
  deriving DecidableEq, Repr, Inhabited

/-- The name under which a request is known. -/
def Request.method : Request → String
  | .write (.read _) => "incr_read_cnt"
  | .write (.readAll _) => "batch_incr_read_cnt"
  | .write (.like ..) => "insert_like"
  | .write (.unlike ..) => "delete_like"
  | .write (.collect ..) => "insert_collection"
  | .write (.uncollect ..) => "delete_collection"
  | .counts _ => "find"
  | .countsOf .. => "find_by_ids"
  | .marked .like .. => "find_like"
  | .marked .collection .. => "find_collection"

/-- The name under which a cache operation is known. -/
def Cache.Op.method : Cache.Op → String
  | .get _ => "get"
  | .set .. => "set"
  | .adjust .. => "adjust"
  | .delete _ => "delete"
  | .size => "size"

/-- How long a request has to wait. -/
def StoreTrouble.time : Option StoreTrouble → Nat
  | some (.delay t) => t
  | _ => 0

/-- Takes the first value under a name, and leaves the others. -/
def takeFirst {α : Type} (name : String) : List (String × α) → Option α × List (String × α)
  | [] => (none, [])
  | (n, a) :: rest =>
    if n = name then (some a, rest)
    else
      let (found, rest) := takeFirst name rest
      (found, (n, a) :: rest)

/-! ### Kinds of cache -/

/-- What can be taken for a cache by the service. An operation is asked at one time and done at
another; what lies between is up to the cache. -/
class CacheKind (C : Type) where
  /-- The trouble that the cache makes of itself when an operation is asked. -/
  mood : Nat → Cache.Op → C → Option CacheTrouble × C
  /-- Does an operation at a time, with what it reports. -/
  work : Nat → (o : Cache.Op) → C →
    (Except Crash (Except CacheFailure o.Answer) × C) × List Report

/-- A cache in memory, or none, makes no trouble of itself and refuses nothing. -/
instance Cache.kind : CacheKind (Option Cache) where
  mood _ _ c := (none, c)
  work now o c := let ((a, c), rs) := Cache.work now o c; ((.ok <$> a, c), rs)

/-! ### Scenes -/

/-- Something asked of the store or the cache. -/
inductive Step where
  | store (r : Request)
  | cache (o : Cache.Op)
  deriving DecidableEq, Repr, Inhabited

/-- What there is: a store, a cache, troubles by the names of what they will befall, and what has
been asked and said so far. -/
structure World (S : Type) (C : Type := Option Cache) where
  store : S
  cache : C
  storeTroubles : List (String × StoreTrouble) := []
  cacheTroubles : List (String × CacheTrouble) := []
  steps : List Step := []
  reports : List Report := []

/-- An upkeep job under way: the cache operation will be done, or refused. -/
structure Underway where
  job : Upkeep
  refusal : Option CacheFailure
  deriving DecidableEq, Repr, Inhabited

/-- A world and the crew that keeps its cache. -/
abbrev Scene (S : Type) (C : Type := Option Cache) : Type := Crew Upkeep Underway × World S C

namespace World

variable {S C : Type}

/-- Notes what is asked for. -/
def note (w : World S C) (s : Step) : World S C := { w with steps := w.steps ++ [s] }

/-- Passes reports on. -/
def tell (rs : List Report) (w : World S C) : World S C := { w with reports := w.reports ++ rs }

/-- The trouble in the way of a request. -/
def takeStoreTrouble (w : World S C) (r : Request) : Option StoreTrouble × World S C :=
  let (t, rest) := takeFirst r.method w.storeTroubles
  (t, { w with storeTroubles := rest })

variable [CacheKind C]

/-- The trouble in the way of a cache operation. One that was laid there comes before the cache's
own. -/
def takeCacheTrouble (now : Nat) (o : Cache.Op) (w : World S C) : Option CacheTrouble × World S C :=
  match takeFirst o.method w.cacheTroubles with
  | (some t, rest) => (some t, { w with cacheTroubles := rest })
  | (none, rest) =>
    let (t, c) := CacheKind.mood now o w.cache
    (t, { w with cache := c, cacheTroubles := rest })

/-- Does a cache operation. -/
def work (now : Nat) (o : Cache.Op) (w : World S C) :
    Except Crash (Except CacheFailure o.Answer) × World S C :=
  let ((a, c), rs) := CacheKind.work now o w.cache
  (a, { w with cache := c }.tell rs)

/-! ### Upkeep -/

/-- Starts an upkeep job. A job that is refused knows so at once. -/
def startUpkeep (now : Nat) (u : Upkeep) (w : World S C) : (Option Nat × Underway) × World S C :=
  let (trouble, w) := (w.note (.cache u.op)).takeCacheTrouble now u.op
  match trouble with
  | none => ((some 0, ⟨u, none⟩), w)
  | some (.delay t) => ((some t, ⟨u, none⟩), w)
  | some (.fail why) => ((some 0, ⟨u, some why⟩), w)
  | some .stall => ((none, ⟨u, none⟩), w)

/-- An upkeep job that the cache refused. -/
def refuseUpkeep (u : Upkeep) (why : CacheFailure) (w : World S C) : Ending × World S C :=
  (.failed (u.failure why), w.tell [.count (.cacheError u.name)])

/-- Does what an upkeep job has left to do. -/
def finishUpkeep (now : Nat) (p : Underway) (w : World S C) : Ending × World S C :=
  match p.refusal with
  | some why => w.refuseUpkeep p.job why
  | none =>
    match w.work now p.job.op with
    | (.ok (.ok a), w) => (.ok, w.tell (p.job.outcome a))
    | (.ok (.error why), w) => w.refuseUpkeep p.job why
    | (.error _, w) => (.crashed, w)

/-- How the cache is kept. -/
def upkeep : Craft Upkeep Underway (World S C) where
  name := Upkeep.name
  start := startUpkeep
  finish := finishUpkeep
  tell := tell

end World

/-! ### Actions -/

/-- What can be done in a scene with any kind of cache. A crash ends it early; what it did
remains. -/
abbrev Act (S C α : Type) : Type := ExceptT Crash (StateM (Scene S C)) α

/-- What can be done in a scene. -/
abbrev Action (S α : Type) : Type := Act S (Option Cache) α

namespace Action

variable {S C α : Type}

/-- Changes the world. -/
def onWorld (f : World S C → α × World S C) : Act S C α :=
  modifyGet fun s => let (a, w) := f s.2; (a, s.1, w)

variable [CacheKind C]

/-- Lets time pass. -/
def sleep (time : Nat) : Act S C Unit := modify (World.upkeep.sleep time)

/-- Lets the crew do what it can at once. -/
def settle : Act S C Unit := modify World.upkeep.settle

/-- Waits until the crew has no jobs. -/
def waitIdle : Act S C Unit := modify World.upkeep.drain

/-- Waits until the crew has no jobs, but only for some time; whether it has none. -/
def waitIdleWithin (time : Nat) : Act S C Bool := modifyGet (World.upkeep.drainWithin time)

/-- Notes a cache operation and meets the trouble in its way. -/
def meet (o : Cache.Op) : Act S C (Option CacheTrouble) :=
  modifyGet fun s =>
    let (t, w) := (s.2.note (.cache o)).takeCacheTrouble s.1.now o
    (t, s.1, w)

/-- Does a cache operation now; its crash is the action's crash. -/
def work (o : Cache.Op) : Act S C (Except CacheFailure o.Answer) := do
  let s ← get
  let (a, w) := s.2.work s.1.now o
  set (s.1, w)
  match a with
  | .ok a => return a
  | .error crash => throw crash

/-- A cache operation that is waited for. Nobody waits for ever: an operation that never ends is
given up. -/
def cache (o : Cache.Op) : Act S C (Except CacheFailure o.Answer) := do
  match ← meet o with
  | none => work o
  | some (.delay time) =>
    sleep time
    work o
  | some (.fail why) => return .error why
  | some .stall => return .error .timeout

/-- A cache operation that is waited for no longer than a background job may take. -/
def bounded (o : Cache.Op) : Act S C (Bounded o.Answer) := do
  let limit := (← get).1.limit
  match ← meet o with
  | none => .ofResult <$> work o
  | some (.delay time) =>
    if time ≤ limit then
      sleep time
      .ofResult <$> work o
    else
      sleep limit
      return .late
  | some (.fail why) => return .failed why
  | some .stall =>
    sleep limit
    return .late

/-- Lets the crew finish after an action, however it ended. -/
def thenIdle (act : Act S C α) : Act S C α := do
  let result ← tryCatch (.ok <$> act)
    (fun crash => pure (.error crash) : Crash → Act S C (Except Crash α))
  waitIdle
  match result with
  | .ok a => return a
  | .error crash => throw crash

end Action

/-! ### Calls -/

/-- A sort of store. -/
structure Site (S : Type) where
  answer : (r : Request) → S → Except StoreFailure r.Answer × S
  /-- Whether going there gives waiting jobs the time to start. -/
  remote : Bool

/-- The ledger is at hand. -/
def Ledger.site : Site Ledger := ⟨Ledger.answer, false⟩

namespace Site

variable {S C : Type}

/-- Notes a request and meets the trouble in its way. -/
def meet (r : Request) : Act S C (Option StoreTrouble) :=
  Action.onWorld fun w => (w.note (.store r)).takeStoreTrouble r

variable [CacheKind C]

/-- Has a request answered, unless its trouble is a failure. -/
def carry (site : Site S) (r : Request) (trouble : Option StoreTrouble) :
    Act S C (Except StoreFailure r.Answer) := do
  match trouble with
  | some (.fail why) => return .error why
  | _ =>
    if site.remote then Action.settle
    Action.onWorld fun w => let (a, s) := site.answer r w.store; (a, { w with store := s })

/-- A request to the store. -/
def request (site : Site S) (r : Request) : Act S C (Except StoreFailure r.Answer) := do
  let trouble ← meet r
  Action.sleep (StoreTrouble.time trouble)
  site.carry r trouble

/-- Both marks of a user, asked for at the same time. -/
def marks (site : Site S) (i : Item) (user : Int64) :
    Act S C (Except StoreFailure Bool × Except StoreFailure Bool) := do
  let first ← meet (.marked .like i user)
  let second ← meet (.marked .collection i user)
  Action.sleep (max (StoreTrouble.time first) (StoreTrouble.time second))
  let liked ← site.carry (.marked .like i user) first
  let collected ← site.carry (.marked .collection i user) second
  return (liked, collected)

/-- Answers one question of a call. -/
def reply (site : Site S) : (q : Call.Query) → Act S C q.Answer
  | .store r => site.request r
  | .marks i user => site.marks i user
  | .cached i => Action.cache (.get i)
  | .adjust a => Action.bounded a.op
  | .detach u => modify fun s => (s.1.leave u, s.2)
  | .report r => Action.onWorld fun w => ((), w.tell [r])

/-- Runs a call. -/
def call {α : Type} (site : Site S) (c : Call α) : Act S C (Except CallFailure α) :=
  Dialogue.run site.reply c.run

end Site

/-! ### Calls side by side -/

namespace Site

variable {S C α : Type} [CacheKind C]

/-- A call under way, whose failure is its result. -/
abbrev CallUnderway (α : Type) : Type :=
  Dialogue Call.Query Call.Query.Answer (Except CallFailure α)

/-- Whether a question is for the store. -/
def isForStore : Call.Query → Bool
  | .store _ | .marks .. => true
  | _ => false

/-- Goes on with a call until it needs the store. -/
def untilStore (site : Site S) : CallUnderway α → Act S C (CallUnderway α)
  | .done a => return .done a
  | .ask q next =>
    if isForStore q then return .ask q next
    else do untilStore site (next (← site.reply q))

/-- Lets a call have its turn at the store. -/
def turn (site : Site S) : CallUnderway α → Act S C (CallUnderway α)
  | .done a => return .done a
  | .ask q next => do untilStore site (next (← site.reply q))

/-- The result of a call that is done. -/
def result? : CallUnderway α → Option (Except CallFailure α)
  | .done a => some a
  | .ask .. => none

/-- Runs calls side by side: those that need the store get there in turns, in their order. No call
needs it more than twice. -/
def together (site : Site S) (calls : List (Call α)) :
    Act S C (List (Option (Except CallFailure α))) := do
  let calls ← calls.mapM fun c => site.untilStore c.run
  let calls ← calls.mapM site.turn
  let calls ← calls.mapM site.turn
  return calls.map result?

end Site

/-! ### Seen from outside -/

/-- What an action can be seen to do. -/
structure Observation (α : Type) where
  result : Except Crash α
  elapsed : Nat
  /-- Jobs left and not at their end. -/
  inflight : Nat
  steps : List Step
  reports : List Report

/-- Does an action and looks at what it did. Where time has passed or `restless` says so of the
result, the crew first does all it can. -/
def observe {S C α : Type} [CacheKind C] (act : Act S C α) (restless : α → Bool)
    (s : Scene S C) : Observation α × Scene S C :=
  let before := s.1.now
  let (result, s) := (act.run (s.1, { s.2 with steps := [], reports := [] })).run
  let stirred := s.1.now != before || (match result with | .ok a => restless a | .error _ => false)
  let s := if stirred then World.upkeep.settle s else s
  (⟨result, s.1.now - before, s.1.inflight, s.2.steps, s.2.reports⟩, s)

end Popularity
