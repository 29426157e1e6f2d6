import Popularity.Background
import Popularity.Dialogue
import Popularity.Proofs.Table
import Mathlib.Algebra.Group.Nat.Defs
import Mathlib.Logic.Relation

/-!
# Counting the jobs in hand

How it is known that a crew has nothing left to do. Every job counts itself in before it starts and
counts itself out at its end, however it ends; the job that finds itself the last one rings a bell.
Whoever waits for the crew takes a ticket for the next ring, looks at the count, and awaits the
ticket if the count is not zero.

`Crew` has all this done at once, since nothing else happens on a clock meanwhile. Here each of the
moves is a step of its own, and any number of jobs and waits take their steps in any order: a job
can start between the moment in which another one counts itself out and the ring, and a wait can
look at the count before the last job is gone and await its ticket after that.

## The bell

The bell is not made here, so it is any `Bell`. All that is relied on is `Bell.Wakes`: a ring wakes
everybody who took a ticket before it, also those who do not await it yet. `Bell.counted` is such a
bell.

## The room for guards

The count is a machine word. It cannot run over, since a job holds a handle on the count from before
it counts itself in, and the program is aborted when there are more than `2 ^ 63` handles.

## Main definitions

* `Bell`, `Bell.Wakes`
* `Tally.stay`, `Tally.round` — what a job does about the count, and what a wait does
* `Tally`, `Tally.Step`, `Tally.Run`
* `Tally.guards` — the number of jobs that have counted themselves in and not out
-/

namespace Popularity

/-! ### Bells -/

/-- A bell with states `N` that hands out tickets `T`. -/
structure Bell (N T : Type) where
  listen : N → T × N
  ring : N → N
  /-- Whether the holder of a ticket may go on. -/
  heard : N → T → Bool

namespace Bell

variable {N T : Type}

/-- What is done with a bell. -/
inductive Use where
  | listen
  | ring
  deriving DecidableEq, Repr

def exec (b : Bell N T) (n : N) : Use → N
  | .listen => (b.listen n).2
  | .ring => b.ring n

/-- The bell after some uses, the oldest first. -/
def after (b : Bell N T) (n : N) (us : List Use) : N := us.foldl b.exec n

theorem after_concat (b : Bell N T) (n : N) (us : List Use) (u : Use) :
    b.after n (us ++ [u]) = b.exec (b.after n us) u := by
  simp [after]

/-- A ring wakes everybody who has a ticket. -/
def Wakes (b : Bell N T) : Prop :=
  ∀ n us, .ring ∈ us → b.heard (b.after (b.listen n).2 us) (b.listen n).1 = true

/-- A bell that counts its rings. A ticket is the number of rings so far. -/
def counted : Bell Nat Nat where
  listen n := (n, n)
  ring n := n + 1
  heard n t := n != t

theorem le_after_counted (n : Nat) (us : List Use) : n ≤ counted.after n us := by
  induction us generalizing n with
  | nil => exact Nat.le_refl n
  | cons u us ih =>
    refine Nat.le_trans ?_ (ih (counted.exec n u))
    cases u with
    | listen => exact Nat.le_refl n
    | ring => exact Nat.le_succ n

theorem counted_wakes : counted.Wakes := by
  intro n us hring
  have hlt : n < counted.after n us := by
    obtain ⟨us₁, us₂, rfl⟩ := List.append_of_mem hring
    calc n < counted.after n us₁ + 1 := Nat.lt_succ_of_le (le_after_counted n us₁)
      _ ≤ counted.after (counted.after n us₁ + 1) us₂ := le_after_counted _ us₂
      _ = counted.after n (us₁ ++ .ring :: us₂) := by
        simp only [after, List.foldl_append, List.foldl_cons]; rfl
  exact bne_iff_ne.mpr (Nat.ne_of_gt hlt)

end Bell

/-! ### Programs -/

/-- How the work of a job came to its end. -/
inductive Fate where
  | ended (e : Ending)
  | stopped
  /-- There was nobody to do it. -/
  | refused
  deriving DecidableEq, Repr, Inhabited

namespace Tally

/-- What can be asked of the count and of the bell, where a ticket is a `T`. -/
inductive Query (T : Type) where
  /-- To count oneself in. -/
  | enter
  | work
  /-- To count oneself out. -/
  | leave
  | ring
  | listen
  | load
  | await (ticket : T)

/-- The sort of its answer. To leave is to learn what the count was before. -/
abbrev Query.Answer {T : Type} : Query T → Type
  | .enter | .ring | .await _ => Unit
  | .work => Fate
  | .leave | .load => UInt64
  | .listen => T

/-- A job or a wait on its way. -/
abbrev Party (T α : Type) : Type := Dialogue (Query T) Query.Answer α

section Programs

variable {T : Type}

/-- Asks one thing. -/
def ask (q : Query T) : Party T q.Answer := Dialogue.question q

/-- Rings, if nobody else was counted. -/
def ringIfLast (before : UInt64) : Party T Unit := if before = 1 then ask .ring else pure ()

/-- Gives a guard up. -/
def depart : Party T Unit := do
  let before ← ask .leave
  ringIfLast before

/-- Works under a guard, which is given up however the work ends. -/
def labour : Party T Unit := do
  let _fate ← ask .work
  depart

/-- A job. -/
def stay : Party T Unit := do
  ask .enter
  labour

/-- Goes to sleep. -/
def sleep (ticket : T) : Party T Bool := do
  ask (.await ticket)
  pure false

/-- Looks at the count and is done if there is nothing to wait for. -/
def look (ticket : T) : Party T Bool := do
  let n : UInt64 ← ask .load
  if n = 0 then pure true else sleep ticket

/-- One round of a wait; whether the wait is over. Otherwise there is another round. -/
def round : Party T Bool := do
  let ticket ← ask .listen
  look ticket

/-- A job is counted while it works and until it leaves. -/
def guarded : Party T Unit → Bool
  | .ask .work _ | .ask .leave _ => true
  | _ => false

/-- A job is about to ring. -/
def rings : Party T Unit → Bool
  | .ask .ring _ => true
  | _ => false

/-- A job is finished, and so is its hold on the count. -/
def finished : Party T Unit → Bool
  | .done _ => true
  | .ask .. => false

end Programs

end Tally

/-! ### States -/

/-- A count and a bell, and the jobs and waits at work on them. -/
structure Tally (N T : Type) where
  count : UInt64 := 0
  bell : N
  jobs : Table Nat (Tally.Party T Unit) := []
  waits : Table Nat (Tally.Party T Bool) := []

namespace Tally

variable {N T : Type}

/-- The number of guards. -/
def guards (s : Tally N T) : Nat := s.jobs.countP fun r => guarded r.2

/-- The number of handles on the count that jobs hold. -/
def handles (s : Tally N T) : Nat := s.jobs.countP fun r => !finished r.2

/-- Nobody has come yet. -/
def opening (n : N) : Tally N T := { bell := n }

/-- Puts a job in its next state. -/
def job (s : Tally N T) (j : Nat) (d : Party T Unit) : Tally N T :=
  { s with jobs := s.jobs.put j d }

/-- Puts a wait in its next state. -/
def wait (s : Tally N T) (w : Nat) (d : Party T Bool) : Tally N T :=
  { s with waits := s.waits.put w d }

section Frame

variable {s : Tally N T} {j w : Nat} {d : Party T Unit} {e : Party T Bool}

@[simp] theorem count_job : (s.job j d).count = s.count := rfl
@[simp] theorem bell_job : (s.job j d).bell = s.bell := rfl
@[simp] theorem jobs_job : (s.job j d).jobs = s.jobs.put j d := rfl
@[simp] theorem waits_job : (s.job j d).waits = s.waits := rfl
@[simp] theorem count_wait : (s.wait w e).count = s.count := rfl
@[simp] theorem bell_wait : (s.wait w e).bell = s.bell := rfl
@[simp] theorem jobs_wait : (s.wait w e).jobs = s.jobs := rfl
@[simp] theorem waits_wait : (s.wait w e).waits = s.waits.put w e := rfl

theorem get?_jobs_job : (s.job j d).jobs.get? j = some d := by simp [Table.get?_put]

theorem get?_waits_wait : (s.wait w e).waits.get? w = some e := by simp [Table.get?_put]

end Frame

/-- A job has been left: it has counted itself in. -/
def Spawned (s : Tally N T) (j : Nat) : Prop :=
  ∃ d, s.jobs.get? j = some d ∧ (guarded d = true ∨ rings d = true ∨ finished d = true)

/-- A job has come to its end: it has counted itself out. -/
def Ended (s : Tally N T) (j : Nat) : Prop :=
  ∃ d, s.jobs.get? j = some d ∧ (rings d = true ∨ finished d = true)

/-- A job is about to ring. -/
def Ringing (s : Tally N T) (j : Nat) : Prop := ∃ d, s.jobs.get? j = some d ∧ rings d = true

/-- A wait is over. -/
def Returned (s : Tally N T) (w : Nat) : Prop := s.waits.get? w = some (.done true)

/-- A wait awaits a ticket for which the bell has not been rung. -/
def Blocked (b : Bell N T) (s : Tally N T) (w : Nat) : Prop :=
  ∃ t next, s.waits.get? w = some (.ask (.await t) next) ∧ b.heard s.bell t = false

/-! ### Steps -/

/-- What may be answered, and what that does to the count and the bell. -/
inductive Replies (b : Bell N T) (s : Tally N T) : (q : Query T) → q.Answer → Tally N T → Prop
  | enter : Replies b s .enter () { s with count := s.count + 1 }
  | work (f : Fate) : Replies b s .work f s
  | leave : Replies b s .leave s.count { s with count := s.count - 1 }
  | ring : Replies b s .ring () { s with bell := b.ring s.bell }
  | listen : Replies b s .listen (b.listen s.bell).1 { s with bell := (b.listen s.bell).2 }
  | load : Replies b s .load s.count s
  | await (t : T) (h : b.heard s.bell t = true) : Replies b s (.await t) () s

/-- What may happen next. A wait that is dropped, and a job that works for ever, take no step. -/
inductive Step (b : Bell N T) : Tally N T → Tally N T → Prop
  | spawn (s : Tally N T) (j : Nat) (hj : s.jobs.get? j = none) (hroom : s.handles < 2 ^ 63) :
    Step b s (s.job j stay)
  | call (s : Tally N T) (w : Nat) (hw : s.waits.get? w = none) : Step b s (s.wait w round)
  | hearJob {s s' : Tally N T} {j : Nat} {q : Query T} {a : q.Answer}
    {next : q.Answer → Party T Unit} (hj : s.jobs.get? j = some (.ask q next))
    (hr : Replies b s q a s') : Step b s (s'.job j (next a))
  | hearWait {s s' : Tally N T} {w : Nat} {q : Query T} {a : q.Answer}
    {next : q.Answer → Party T Bool} (hw : s.waits.get? w = some (.ask q next))
    (hr : Replies b s q a s') : Step b s (s'.wait w (next a))
  | again {s : Tally N T} {w : Nat} (hw : s.waits.get? w = some (.done false)) :
    Step b s (s.wait w round)

/-- Any number of steps. -/
abbrev Run (b : Bell N T) : Tally N T → Tally N T → Prop := Relation.ReflTransGen (Step b)

end Tally

end Popularity
