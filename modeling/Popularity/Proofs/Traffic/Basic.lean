import Popularity.Cache.Options
import Popularity.Proofs.Registry
import Popularity.Proofs.Service.Upkeep
import Mathlib.Logic.Relation

/-!
# Calls and jobs side by side

The service with any number of calls under way at the same time, and the jobs that they left, all at
work on one store and one cache. Nobody says whose turn it is: a step is taken by any call or job
that can take one, or time passes. Troubles need not be laid, they just happen: a request is
refused, the cache fails, a job gets stuck.

What each call asks is what the service asks, the store answers as its `Site` does, and the cache
works as `Popularity.Cache` does. Only the turns are free.

## How much happens at once

A request to the store happens as a whole, and so does an operation of the cache, which is done
under its lock. All else is its own step: between the answer of the store and the upkeep that it
obliges to, and between two jobs that one call leaves, anything may happen. Both marks of a user are
looked up at times of their own; no counts depend on them, so they may be answered in any way.

The time limit of a job counts from its start, and that of an awaited adjustment from when it is
awaited. Something that is done at the last moment of its limit is done in time.

## The history

Each state carries what has been done so far, the latest first. No step depends on it.

## Main definitions

* `Visit`, `Chore` — a call and a job on the way
* `Deed`, `History`
* `Traffic`, `Traffic.Replies`, `Traffic.Step`, `Traffic.Run`
* `Traffic.pending` — the upkeep that is owed but not at its end
-/

namespace Popularity

/-! ### What is on the way -/

/-- A call on its way. -/
structure Visit where
  order : Service.Order
  /-- What it still has to say; a crash leaves it speechless. -/
  rest : Option (Site.CallUnderway Service.Answer)
  /-- Since when it awaits the adjustment that it has asked for. -/
  since : Option Nat := none

/-- The upkeep that a call is about to see to. -/
def Visit.due (v : Visit) : List Upkeep := v.rest.elim [] Call.due

/-- A job on its way. -/
structure Chore where
  job : Upkeep
  /-- When it was left. -/
  left : Nat
  /-- When it was started. -/
  since : Option Nat := none
  /-- Whether it has come to its end, well or not. -/
  ended : Bool := false
  deriving DecidableEq, Repr, Inhabited

/-- The upkeep that a job stands for. -/
def Chore.due (ch : Chore) : List Upkeep := if ch.ended then [] else [ch.job]

/-! ### Histories -/

/-- Something worth remembering. Calls and jobs go by their numbers. -/
inductive Deed where
  /-- A call looked into the cache, or tried to. -/
  | looked (call : Nat) (i : Item)
  /-- A call was told the row of an item by the store. -/
  | found (call : Nat) (i : Item) (n : Option Counts)
  /-- A call has changed the store. -/
  | recorded (call : Nat) (w : Write)
  | left (call job : Nat) (u : Upkeep)
  /-- A job has set an entry. -/
  | placed (job : Nat) (i : Item) (n : Counts)
  /-- An adjustment has come to its end, and whether it did anything. -/
  | settled (a : Adjustment) (took : Bool)
  deriving DecidableEq, Repr, Inhabited

/-- Deeds with their times, the latest first. -/
abbrev History : Type := List (Nat × Deed)

namespace Deed

/-- What the answer of the store is remembered as. -/
def ofAnswer (c : Nat) : (r : Request) → Except StoreFailure r.Answer → Option Deed
  | .write w, .ok true => some (.recorded c w)
  | .counts i, .ok n => some (.found c i n)
  | _, _ => none

/-- What the work of a job is remembered as. -/
def ofWork (j : Nat) : (u : Upkeep) → Except Crash u.op.Answer → Option Deed
  | .adjust a, r => some (.settled a (Adjusted.took r))
  | .populate i n, .ok _ => some (.placed j i n)
  | .populate .., .error _ => none

/-- What a job that did no work is remembered as. -/
def ofLoss : Upkeep → Option Deed
  | .adjust a => some (.settled a false)
  | .populate .. => none

/-- The changes to the counts that a deed has made in the store. -/
def changes : Deed → List Adjustment
  | .recorded _ w => w.adjustments
  | _ => []

/-- The adjustments of the cache that a deed has brought to their end. -/
def endings : Deed → List Adjustment
  | .settled a _ => [a]
  | _ => []

/-- The adjustments that a deed has made in the cache. -/
def applied : Deed → List Adjustment
  | .settled a true => [a]
  | _ => []

@[simp] theorem changes_ofWork (j : Nat) (u : Upkeep) (x : Except Crash u.op.Answer) :
    (ofWork j u x).elim [] changes = [] := by
  cases u with
  | adjust b => rfl
  | populate i n => cases x <;> rfl

@[simp] theorem changes_ofLoss (u : Upkeep) : (ofLoss u).elim [] changes = [] := by
  cases u <;> rfl

theorem ofWork_ne_looked {j c : Nat} {u : Upkeep} {x : Except Crash u.op.Answer} {i : Item} :
    ofWork j u x ≠ some (.looked c i) := by
  cases u with
  | adjust a => simp [ofWork]
  | populate i n => cases x <;> simp [ofWork]

theorem ofLoss_ne_looked {c : Nat} {u : Upkeep} {i : Item} : ofLoss u ≠ some (.looked c i) := by
  cases u <;> simp [ofLoss]

theorem mem_applied {a : Adjustment} {d : Deed} : a ∈ d.applied ↔ d = .settled a true := by
  cases d with
  | settled b took => cases took <;> simp [applied, eq_comm]
  | looked | found | recorded | left | placed => simp [applied]

end Deed

namespace History

/-- The changes to the counts made in the store. -/
def changes (h : History) : List Adjustment := h.flatMap fun d => d.2.changes

/-- The adjustments of the cache that have come to their end. -/
def endings (h : History) : List Adjustment := h.flatMap fun d => d.2.endings

/-- The adjustments made in the cache. -/
def applied (h : History) : List Adjustment := h.flatMap fun d => d.2.applied

section Append

variable {h h' : History} {d : Nat × Deed}

@[simp] theorem changes_nil : changes [] = [] := rfl

@[simp] theorem changes_cons : changes (d :: h) = d.2.changes ++ changes h := rfl

@[simp] theorem changes_append : changes (h ++ h') = changes h ++ changes h' := by simp [changes]

@[simp] theorem endings_cons : endings (d :: h) = d.2.endings ++ endings h := rfl

@[simp] theorem endings_append : endings (h ++ h') = endings h ++ endings h' := by simp [endings]

@[simp] theorem applied_nil : applied [] = [] := rfl

@[simp] theorem applied_cons : applied (d :: h) = d.2.applied ++ applied h := rfl

@[simp] theorem applied_append : applied (h ++ h') = applied h ++ applied h' := by simp [applied]

end Append

end History

/-! ### States -/

/-- A store, a cache, and the calls and jobs at work on them. -/
structure Traffic (S : Type) where
  /-- The time limit of a job, and of an awaited adjustment. -/
  limit : Nat
  now : Nat := 0
  store : S
  cache : Cache
  calls : Table Nat Visit := []
  jobs : Table Nat Chore := []
  history : History := []

namespace Traffic

variable {S : Type}

/-- Nothing is on the way, and nothing is cached. -/
def opening (limit : Nat) (store : S) (o : Cache.Options) : Traffic S :=
  { limit, store, cache := o.build }

/-- Remembers a deed, if there is one. -/
def note (s : Traffic S) (d : Option Deed) : Traffic S :=
  { s with history := d.toList.map (s.now, ·) ++ s.history }

/-- Puts a call in its next state. -/
def visit (s : Traffic S) (c : Nat) (v : Visit) : Traffic S :=
  { s with calls := s.calls.put c v }

/-- Puts a job in its next state. -/
def chore (s : Traffic S) (j : Nat) (ch : Chore) : Traffic S :=
  { s with jobs := s.jobs.put j ch }

/-- The upkeep that is owed and has not come to its end. -/
def pending (s : Traffic S) : List Upkeep :=
  s.calls.flatMap (fun r => r.2.due) ++ s.jobs.flatMap fun r => r.2.due

/-! ### What is not touched -/

section Frame

variable {s : Traffic S} {c j : Nat} {v : Visit} {ch : Chore} {d : Option Deed}

@[simp] theorem limit_note : (s.note d).limit = s.limit := rfl
@[simp] theorem now_note : (s.note d).now = s.now := rfl
@[simp] theorem store_note : (s.note d).store = s.store := rfl
@[simp] theorem cache_note : (s.note d).cache = s.cache := rfl
@[simp] theorem calls_note : (s.note d).calls = s.calls := rfl
@[simp] theorem jobs_note : (s.note d).jobs = s.jobs := rfl
theorem history_note : (s.note d).history = d.toList.map (s.now, ·) ++ s.history := rfl

@[simp] theorem limit_visit : (s.visit c v).limit = s.limit := rfl
@[simp] theorem now_visit : (s.visit c v).now = s.now := rfl
@[simp] theorem store_visit : (s.visit c v).store = s.store := rfl
@[simp] theorem cache_visit : (s.visit c v).cache = s.cache := rfl
@[simp] theorem calls_visit : (s.visit c v).calls = s.calls.put c v := rfl
@[simp] theorem jobs_visit : (s.visit c v).jobs = s.jobs := rfl
@[simp] theorem history_visit : (s.visit c v).history = s.history := rfl

@[simp] theorem limit_chore : (s.chore j ch).limit = s.limit := rfl
@[simp] theorem now_chore : (s.chore j ch).now = s.now := rfl
@[simp] theorem store_chore : (s.chore j ch).store = s.store := rfl
@[simp] theorem cache_chore : (s.chore j ch).cache = s.cache := rfl
@[simp] theorem calls_chore : (s.chore j ch).calls = s.calls := rfl
@[simp] theorem jobs_chore : (s.chore j ch).jobs = s.jobs.put j ch := rfl
@[simp] theorem history_chore : (s.chore j ch).history = s.history := rfl

end Frame

/-! ### Steps -/

/-- What a call may be answered, and what that does to all but the calls. -/
inductive Replies (site : Site S) (s : Traffic S) (c : Nat) (v : Visit) :
    (q : Call.Query) → q.Answer → Traffic S → Prop
  | store (r : Request) :
    Replies site s c v (.store r) (site.answer r s.store).1
      ({ s with store := (site.answer r s.store).2 }.note
        (Deed.ofAnswer c r (site.answer r s.store).1))
  | storeFailed (r : Request) (why : StoreFailure) : Replies site s c v (.store r) (.error why) s
  | marks (i : Item) (user : Int64) (looked : Except StoreFailure Bool × Except StoreFailure Bool) :
    Replies site s c v (.marks i user) looked s
  | cached (i : Item) :
    Replies site s c v (.cached i) (.ok (s.cache.get s.now i).1)
      ({ s with cache := (s.cache.get s.now i).2 }.note (some (.looked c i)))
  | cacheFailed (i : Item) (why : CacheFailure) :
    Replies site s c v (.cached i) (.error why) (s.note (some (.looked c i)))
  | adjusted (a : Adjustment) (t : Nat) (out : Adjusted) (cache : Cache) (ht : v.since = some t)
    (hnow : s.now ≤ t + s.limit)
    (hout : s.cache.adjust s.now a.item a.counter a.by_ = (.ok out, cache)) :
    Replies site s c v (.adjust a) (.answered out)
      ({ s with cache }.note (some (.settled a (Adjusted.took (.ok out)))))
  | adjustFailed (a : Adjustment) (t : Nat) (why : CacheFailure) (ht : v.since = some t) :
    Replies site s c v (.adjust a) (.failed why) (s.note (some (.settled a false)))
  | adjustLate (a : Adjustment) (t : Nat) (ht : v.since = some t) (hnow : t + s.limit ≤ s.now) :
    Replies site s c v (.adjust a) .late (s.note (some (.settled a false)))
  | detached (u : Upkeep) (j : Nat) (hj : s.jobs.get? j = none) :
    Replies site s c v (.detach u) ()
      ((s.chore j ⟨u, s.now, none, false⟩).note (some (.left c j u)))
  | reported (r : Report) : Replies site s c v (.report r) () s

/-- The answer of the store, where it is known. -/
theorem Replies.answered {site : Site S} {s : Traffic S} {c : Nat} {v : Visit} {r : Request}
    {x : Except StoreFailure r.Answer} {store : S} (h : site.answer r s.store = (x, store)) :
    Replies site s c v (.store r) x ({ s with store }.note (Deed.ofAnswer c r x)) := by
  have hr : Replies site s c v (.store r) (site.answer r s.store).1 _ := .store r
  rwa [h] at hr

/-- What may happen next. -/
inductive Step (site : Site S) : Traffic S → Traffic S → Prop
  | pass (s : Traffic S) (time : Nat) : Step site s { s with now := s.now + time }
  | enter (s : Traffic S) (c : Nat) (o : Service.Order) (hc : s.calls.get? c = none) :
    Step site s (s.visit c ⟨o, some o.call.run, none⟩)
  /-- A call is answered and goes on. -/
  | hear {s s' : Traffic S} {c : Nat} {v : Visit} {q : Call.Query} {a : q.Answer}
    {next : q.Answer → Site.CallUnderway Service.Answer} (hc : s.calls.get? c = some v)
    (hv : v.rest = some (.ask q next)) (hr : Replies site s c v q a s') :
    Step site s (s'.visit c ⟨v.order, some (next a), none⟩)
  /-- A call begins to await an adjustment. -/
  | await {s : Traffic S} {c : Nat} {v : Visit} {a : Adjustment}
    {next : Bounded Adjusted → Site.CallUnderway Service.Answer} (hc : s.calls.get? c = some v)
    (hv : v.rest = some (.ask (.adjust a) next)) (ht : v.since = none) :
    Step site s (s.visit c { v with since := some s.now })
  /-- An awaited adjustment crashes, and the call with it. -/
  | crash {s : Traffic S} {c t : Nat} {v : Visit} {a : Adjustment} {cache : Cache} {crash : Crash}
    {next : Bounded Adjusted → Site.CallUnderway Service.Answer} (hc : s.calls.get? c = some v)
    (hv : v.rest = some (.ask (.adjust a) next)) (ht : v.since = some t)
    (hnow : s.now ≤ t + s.limit)
    (hout : s.cache.adjust s.now a.item a.counter a.by_ = (.error crash, cache)) :
    Step site s (({ s with cache }.note (some (.settled a false))).visit c ⟨v.order, none, none⟩)
  | start {s : Traffic S} {j : Nat} {ch : Chore} (hj : s.jobs.get? j = some ch)
    (ht : ch.since = none) : Step site s (s.chore j { ch with since := some s.now })
  /-- A job does its work. -/
  | finish {s : Traffic S} {j t : Nat} {ch : Chore} (hj : s.jobs.get? j = some ch)
    (hended : ch.ended = false) (ht : ch.since = some t) (hnow : s.now ≤ t + s.limit) :
    Step site s (({ s with cache := (s.cache.exec s.now ch.job.op).2 }.note
      (Deed.ofWork j ch.job (s.cache.exec s.now ch.job.op).1)).chore j { ch with ended := true })
  /-- A job is refused by the cache, or is stopped. -/
  | lose {s : Traffic S} {j t : Nat} {ch : Chore} (hj : s.jobs.get? j = some ch)
    (hended : ch.ended = false) (ht : ch.since = some t) :
    Step site s ((s.note (Deed.ofLoss ch.job)).chore j { ch with ended := true })

/-- Any number of steps. -/
abbrev Run (site : Site S) : Traffic S → Traffic S → Prop := Relation.ReflTransGen (Step site)

end Traffic

end Popularity
