import Popularity.Report

/-!
# Background jobs

Jobs that nobody waits for. A crew works on all its jobs at the same time; each job has the same
time limit, counted from its own start, and is stopped when the limit is over. How a job ended is
reported and has no other effect: not on whoever left it, and not on other jobs.

Time is virtual. Whoever leaves jobs goes on without a pause; a job starts when that one next
waits. While the clock is moved, jobs end in the order of their due times, and jobs that are due
at the same time in the order of their starts.

## Main definitions

* `Crew` — jobs left and jobs under way, on a clock
* `Craft` — how jobs of a sort are done, and what that does to a state
* `Craft.settle`, `Craft.sleep`, `Craft.drain`, `Craft.drainWithin` — ways to wait
-/

namespace Popularity

/-- How a job that was not stopped came to its end. -/
inductive Ending where
  | ok
  | failed (why : String)
  | crashed
  deriving DecidableEq, Repr, Inhabited

/-- A job under way. -/
structure Task (P : Type) where
  name : String
  /-- When it ends. -/
  due : Nat
  /-- Whether it gets done by then. Otherwise it is stopped. -/
  inTime : Bool
  /-- What it will do at its end, if it gets done. -/
  rest : P
  deriving Repr, Inhabited

/-- The jobs of sort `J` in hand; one that is under way has a `P` left to do. -/
structure Crew (J P : Type) where
  /-- The time limit of each job, in milliseconds. -/
  limit : Nat
  now : Nat := 0
  /-- Jobs left but not started, the oldest first. -/
  waiting : List J := []
  /-- Jobs under way in the order of their starts. -/
  running : List (Task P) := []
  deriving Repr, Inhabited

/-- How jobs are done on a state `S`. -/
structure Craft (J P S : Type) where
  name : J → String
  /-- Starts a job at a time: how long it will need, where `none` is for ever, and what is left to
  do then. -/
  start : Nat → J → S → (Option Nat × P) × S
  /-- Does what was left, at a time. -/
  finish : Nat → P → S → Ending × S
  /-- Passes reports on. -/
  tell : List Report → S → S

/-! ### Reports -/

namespace Metric

/-- A background job did not end well. -/
def jobFailed (name : String) : Metric :=
  ⟨"engagement_background_task_failed_total", [("task", name)]⟩

end Metric

/-- What is said of a job that came to its end. A crash has nobody left to speak of it. -/
def Ending.reports (name : String) : Ending → List Report
  | .ok =>
    [.event { level := .debug, origin := .background, message := "background task finished",
              fields := [("task", .text name)] }]
  | .failed why =>
    [.count (.jobFailed name),
     .event { level := .warn, origin := .background, message := "background task failed",
              fields := [("task", .text name), ("error", .shown why)] }]
  | .crashed => []

/-- What is said of a job that was stopped. -/
def stoppedReports (name : String) (limit : Nat) : List Report :=
  [.count (.jobFailed name),
   .event { level := .warn, origin := .background, message := "background task timed out",
            fields := [("task", .text name), ("timeout_ms", .int limit)] }]

namespace Crew

variable {J P : Type}

/-- The number of jobs left and not at their end. -/
def inflight (c : Crew J P) : Nat := c.waiting.length + c.running.length

/-- Leaves a job. -/
def leave (c : Crew J P) (j : J) : Crew J P := { c with waiting := c.waiting ++ [j] }

/-- A job that starts now and needs some time. -/
def task (c : Crew J P) (name : String) (needs : Option Nat) (rest : P) : Task P :=
  match needs with
  | some n =>
    if n ≤ c.limit then ⟨name, c.now + n, true, rest⟩
    else ⟨name, c.now + c.limit, false, rest⟩
  | none => ⟨name, c.now + c.limit, false, rest⟩

end Crew

namespace Craft

variable {J P S : Type}

/-- Ends a job at a time. -/
def conclude (k : Craft J P S) (limit now : Nat) (t : Task P) (s : S) : S :=
  if t.inTime then
    let (ending, s) := k.finish now t.rest s
    k.tell (ending.reports t.name) s
  else k.tell (stoppedReports t.name limit) s

/-- Ends a job that is due and sets the clock to its due time. -/
def reach (k : Craft J P S) (w : Crew J P × S) (t : Task P) : Crew J P × S :=
  ({ w.1 with now := max w.1.now t.due }, k.conclude w.1.limit (max w.1.now t.due) t w.2)

/-- Ends the jobs that `isDue` picks, in the order of their due times. -/
def reachAll (k : Craft J P S) (isDue : Task P → Bool) (w : Crew J P × S) : Crew J P × S :=
  let due := (w.1.running.filter isDue).mergeSort fun a b => a.due ≤ b.due
  due.foldl k.reach ({ w.1 with running := w.1.running.filter fun t => !isDue t }, w.2)

/-- Starts a job. One that needs no time, or has none, is at its end already. -/
def begin_ (k : Craft J P S) (w : Crew J P × S) (j : J) : Crew J P × S :=
  let ((needs, rest), s) := k.start w.1.now j w.2
  let t := w.1.task (k.name j) needs rest
  if t.due ≤ w.1.now then (w.1, k.conclude w.1.limit w.1.now t s)
  else ({ w.1 with running := w.1.running ++ [t] }, s)

/-! ### Waiting -/

/-- Lets the crew do all it can without moving the clock. -/
def settle (k : Craft J P S) (w : Crew J P × S) : Crew J P × S :=
  let w := k.reachAll (fun t => t.due ≤ w.1.now) w
  w.1.waiting.foldl k.begin_ ({ w.1 with waiting := [] }, w.2)

/-- Waits for some time. Jobs that are due at its end are not done when the wait is over; a wait for
no time is none. -/
def sleep (k : Craft J P S) (time : Nat) (w : Crew J P × S) : Crew J P × S :=
  if time = 0 then w
  else
    let w := k.settle w
    let until_ := w.1.now + time
    let w := k.reachAll (fun t => t.due < until_) w
    ({ w.1 with now := until_ }, w.2)

/-- Waits until there are no jobs. -/
def drain (k : Craft J P S) (w : Crew J P × S) : Crew J P × S :=
  k.reachAll (fun _ => true) (k.settle w)

/-- Waits until there are no jobs, but only for some time; whether there are none. The last moment
of that time is too late. -/
def drainWithin (k : Craft J P S) (time : Nat) (w : Crew J P × S) : Bool × Crew J P × S :=
  if w.1.inflight = 0 then (true, w)
  else if time = 0 then (false, w)
  else
    let w := k.settle w
    let until_ := w.1.now + time
    let w := k.reachAll (fun t => t.due < until_) w
    if w.1.inflight = 0 then (true, w) else (false, { w.1 with now := until_ }, w.2)

end Craft

/-! ### Errands -/

/-- A job whose time and ending are known beforehand. -/
structure Errand where
  name : String
  /-- How long it needs; `none` is for ever. -/
  needs : Option Nat
  ending : Ending
  deriving DecidableEq, Repr, Inhabited

/-- What errands leave behind. -/
structure ErrandLog where
  /-- The names of those that ended well, the latest first. -/
  done : List String := []
  reports : List Report := []
  deriving DecidableEq, Repr, Inhabited

/-- How errands are done. -/
def Errand.craft : Craft Errand Errand ErrandLog where
  name := Errand.name
  start _ e s := ((e.needs, e), s)
  finish _ e s := (e.ending, if e.ending = .ok then { s with done := e.name :: s.done } else s)
  tell rs s := { s with reports := s.reports ++ rs }

end Popularity
