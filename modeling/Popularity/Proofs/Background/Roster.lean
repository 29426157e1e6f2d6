import Popularity.Proofs.Background
import Popularity.Proofs.InOrder

/-!
# The roster of a crew

Where it is known beforehand how long each job needs, all that a crew does is known from its roster:
which jobs were left, and when. A job ends when its own time or the limit is over, and does what it
has to do just if its own time is not the longer one. That is computed from one line of the roster,
so neither the other jobs nor whoever left the job can have a part in it. The lines of a roster
never change; later lines are added behind them.

While the clock is moved, the crew ends its jobs in the order in which they are due, and what
matters is that this is the order of the whole roster: of jobs that end at the same time, the one
that was left first is the first, no matter when the crew was given a moment to do it.

## Main definitions

* `Happening`, `Shift`, `Craft.after` — what happens to a crew in the course of time
* `Shift.roster` — the jobs that were left, with their times
* `Craft.Plan`, `Plan.ends`, `Plan.effect` — jobs that are known beforehand
* `Plan.Abreast`, `Plan.Follows` — a crew that is up to date with its roster
* `Plan.Outcome`

## Main results

* `Plan.outcome` — what becomes of a crew, from its roster alone
* `Shift.roster_prefix` — what was left stays on the roster
-/

namespace Popularity

/-! ### Shifts -/

/-- Something that happens to a crew. -/
inductive Happening (J : Type) where
  /-- A job is left. -/
  | left (j : J)
  /-- The crew is given a moment. -/
  | paused
  /-- Time passes. -/
  | passed (time : Nat)
  deriving DecidableEq, Repr, Inhabited

/-- What has happened to a crew, the latest first. -/
abbrev Shift (J : Type) : Type := List (Happening J)

namespace Shift

variable {J : Type}

/-- How much time has passed. -/
def time : Shift J → Nat
  | [] => 0
  | .passed time :: h => Shift.time h + time
  | _ :: h => Shift.time h

/-- The jobs that were left, each with the time at which it was, the first of them first. -/
def roster : Shift J → List (Nat × J)
  | [] => []
  | .left j :: h => roster h ++ [(Shift.time h, j)]
  | _ :: h => roster h

/-- **What was left stays on the roster as it is**, whatever happens later. -/
theorem roster_prefix (later h : Shift J) : h.roster <+: Shift.roster (later ++ h) := by
  induction later with
  | nil => exact List.prefix_rfl
  | cons happening later ih =>
    cases happening with
    | left j => exact ih.trans (List.prefix_append _ _)
    | paused => exact ih
    | passed time => exact ih

end Shift

namespace Craft

variable {J P S : Type} {k : Craft J P S}

/-- Lets something happen. -/
def befall (k : Craft J P S) (w : Crew J P × S) : Happening J → Crew J P × S
  | .left j => (w.1.leave j, w.2)
  | .paused => k.settle w
  | .passed time => k.sleep time w

/-- A crew after a shift. -/
def after (k : Craft J P S) (w : Crew J P × S) : Shift J → Crew J P × S
  | [] => w
  | happening :: h => k.befall (k.after w h) happening

/-! ### Plans -/

/-- Jobs of which it is known beforehand how long they need and what they will have left to do. How
they end, and what they do then, may still depend on the state. -/
structure Plan (k : Craft J P S) where
  needs : J → Option Nat
  rest : J → P
  start : ∀ now j s, k.start now j s = ((needs j, rest j), s)

namespace Plan

variable {p : k.Plan} {limit : Nat} {s₀ : S} {es : List (Nat × J)} {w : Crew J P × S}

/-- When a job ends that is left at a time. -/
def ends (p : k.Plan) (limit : Nat) (e : Nat × J) : Nat :=
  e.1 + match p.needs e.2 with
    | some n => min n limit
    | none => limit

/-- What a job does to the state at its end. -/
def effect (p : k.Plan) (limit : Nat) (s : S) (e : Nat × J) : S :=
  match (p.needs e.2).filter (· ≤ limit) with
  | some n =>
    let (ending, s) := k.finish (e.1 + n) (p.rest e.2) s
    k.tell (ending.reports (k.name e.2)) s
  | none => k.tell (stoppedReports (k.name e.2) limit) s

/-- What the jobs of a roster do, in the order of their ends. -/
def effects (p : k.Plan) (limit : Nat) (s : S) (es : List (Nat × J)) : S :=
  (inOrder (p.ends limit) es).foldl (p.effect limit) s

/-- A job under way. -/
def task (p : k.Plan) (limit : Nat) (e : Nat × J) : Task P where
  name := k.name e.2
  due := p.ends limit e
  inTime := (p.needs e.2).any (· ≤ limit)
  rest := p.rest e.2

@[simp] theorem task_due (e : Nat × J) : (p.task limit e).due = p.ends limit e := rfl

theorem le_ends (e : Nat × J) : e.1 ≤ p.ends limit e := Nat.le_add_right _ _

theorem task_eq (c : Crew J P) (j : J) :
    c.task (k.name j) (p.needs j) (p.rest j) = p.task c.limit (c.now, j) := by
  unfold Crew.task task ends
  cases p.needs j with
  | none => rfl
  | some n =>
    dsimp only
    split
    next h => simp [h]
    next h => simp [h, Nat.min_eq_right (Nat.le_of_not_le h)]

theorem conclude_task (p : k.Plan) (limit : Nat) (e : Nat × J) (s : S) :
    k.conclude limit (p.ends limit e) (p.task limit e) s = p.effect limit s e := by
  unfold Craft.conclude effect task ends
  cases p.needs e.2 with
  | none => rfl
  | some n =>
    by_cases h : n ≤ limit
    · simp [Option.filter, h]
    · simp [Option.filter, h]

/-! ### Up to date -/

/-- Of the jobs that were started, those that end before a bound are at their end, and the others
are under way. -/
structure Abreast (p : k.Plan) (limit : Nat) (s₀ : S) (es : List (Nat × J)) (bound : Nat)
    (w : Crew J P × S) : Prop where
  limit_eq : w.1.limit = limit
  now_le : w.1.now ≤ bound
  running_eq : w.1.running = (es.filter (bound ≤ p.ends limit ·)).map (p.task limit)
  state_eq : w.2 = p.effects limit s₀ (es.filter (p.ends limit · < bound))

theorem effects_split (p : k.Plan) (limit bound : Nat) (s : S) (es : List (Nat × J)) :
    p.effects limit (p.effects limit s (es.filter (p.ends limit · < bound)))
      (es.filter (bound ≤ p.ends limit ·)) = p.effects limit s es := by
  rw [effects, effects, ← List.foldl_append, inOrder_split, effects]

@[simp] theorem effects_nil (s : S) : p.effects limit s [] = s := by
  simp [effects, inOrder]

theorem effects_concat {e : Nat × J} (h : ∀ e' ∈ es, p.ends limit e' ≤ p.ends limit e) (s : S) :
    p.effects limit s (es ++ [e]) = p.effect limit (p.effects limit s es) e := by
  have hlast : inOrder (p.ends limit) [e] = [e] := List.mergeSort_singleton e
  rw [effects, inOrder_append fun e' he' _ he => List.mem_singleton.mp he ▸ h e' he',
    List.foldl_append, hlast]
  rfl

/-- Jobs that are due end at their times. -/
theorem foldl_reach {c : Crew J P} {s : S} (hlimit : c.limit = limit)
    (hsorted : es.Pairwise (p.ends limit · ≤ p.ends limit ·))
    (hnow : ∀ e ∈ es, c.now ≤ p.ends limit e) :
    (es.map (p.task limit)).foldl k.reach (c, s) =
      ({ c with now := (es.map (p.ends limit)).foldl max c.now }, es.foldl (p.effect limit) s) := by
  induction es generalizing c s with
  | nil => rfl
  | cons e es ih =>
    obtain ⟨hhead, hsorted⟩ := List.pairwise_cons.mp hsorted
    have hmax : max c.now (p.ends limit e) = p.ends limit e :=
      Nat.max_eq_right (hnow e List.mem_cons_self)
    have hreach : k.reach (c, s) (p.task limit e) =
        ({ c with now := max c.now (p.ends limit e) }, p.effect limit s e) := by
      simp only [reach, task_due, hmax, hlimit, conclude_task]
    have hrest : ∀ e' ∈ es, max c.now (p.ends limit e) ≤ p.ends limit e' := by
      rw [hmax]
      exact hhead
    rw [List.map_cons, List.foldl_cons, hreach,
      ih (c := { c with now := max c.now (p.ends limit e) }) hlimit hsorted hrest]
    rfl

namespace Abreast

variable {bound bound' : Nat}

theorem reachAll (h : p.Abreast limit s₀ es bound w) (isDue : Task P → Bool) (hle : bound ≤ bound')
    (hdue : ∀ e ∈ es, bound ≤ p.ends limit e →
      isDue (p.task limit e) = decide (p.ends limit e < bound')) :
    p.Abreast limit s₀ es bound' (k.reachAll isDue w) ∧
      (k.reachAll isDue w).1.now = (((es.filter (p.ends limit · < bound')).filter
        (bound ≤ p.ends limit ·)).map (p.ends limit)).foldl max w.1.now := by
  let due := (es.filter (p.ends limit · < bound')).filter (bound ≤ p.ends limit ·)
  have hrunning : w.1.running.filter isDue = due.map (p.task limit) := by
    rw [h.running_eq, List.filter_map, List.filter_filter]
    refine congrArg _ (Eq.trans (List.filter_congr fun e he => ?_) List.filter_filter.symm)
    by_cases hb : bound ≤ p.ends limit e
    · simp [hb, hdue e he hb]
    · simp [hb]
  have hothers : (w.1.running.filter fun t => !isDue t) =
      (es.filter (bound' ≤ p.ends limit ·)).map (p.task limit) := by
    rw [h.running_eq, List.filter_map, List.filter_filter]
    refine congrArg _ (List.filter_congr fun e he => ?_)
    by_cases hb : bound ≤ p.ends limit e
    · simp only [Function.comp_apply, hdue e he hb, hb, decide_true, Bool.and_true, ← decide_not,
        Nat.not_lt]
    · simp [hb, Nat.lt_of_lt_of_le (Nat.lt_of_not_le hb) hle]
  have hsort : (due.map (p.task limit)).mergeSort (fun a b => a.due ≤ b.due) =
      (inOrder (p.ends limit) due).map (p.task limit) :=
    (List.map_mergeSort (f := p.task limit) fun _ _ _ _ => rfl).symm
  have hnow : ∀ e ∈ inOrder (p.ends limit) due, w.1.now ≤ p.ends limit e := fun e he =>
    Nat.le_trans h.now_le
      (of_decide_eq_true (List.mem_filter.mp (inOrder_perm.mem_iff.mp he)).2)
  have hplay : k.reachAll isDue w = ({ w.1 with
      running := (es.filter (bound' ≤ p.ends limit ·)).map (p.task limit)
      now := (due.map (p.ends limit)).foldl max w.1.now }, p.effects limit w.2 due) := by
    have hperm : (inOrder (p.ends limit) due).Perm due := inOrder_perm
    have hmax := foldl_max_perm (hperm.map (p.ends limit)) w.1.now
    have hreach := foldl_reach (s := w.2) (c := { w.1 with
      running := (es.filter (bound' ≤ p.ends limit ·)).map (p.task limit) }) h.limit_eq
      pairwise_inOrder hnow
    unfold Craft.reachAll
    dsimp only
    rw [hrunning, hothers, hsort, hreach, hmax, effects]
  rw [hplay]
  refine ⟨⟨h.limit_eq, ?_, rfl, ?_⟩, rfl⟩
  · refine foldl_max_le (Nat.le_trans h.now_le hle) fun n hn => ?_
    obtain ⟨e, he, rfl⟩ := List.mem_map.mp hn
    exact Nat.le_of_lt (of_decide_eq_true (List.mem_filter.mp (List.mem_of_mem_filter he)).2)
  · have hsplit := p.effects_split limit bound s₀
      (es.filter (p.ends limit · < bound'))
    rw [List.filter_filter, List.filter_congr (q := (p.ends limit · < bound))
      fun e _ => by simpa using fun he => Nat.lt_of_lt_of_le he hle, ← h.state_eq] at hsplit
    exact hsplit

/-- A job that is started now. -/
theorem begin_ (h : p.Abreast limit s₀ es (w.1.now + 1) w) (j : J) :
    p.Abreast limit s₀ (es ++ [(w.1.now, j)]) (w.1.now + 1) (k.begin_ w j) := by
  have hstart := p.start w.1.now j w.2
  have htask := h.limit_eq ▸ p.task_eq w.1 j
  unfold Craft.begin_
  rw [hstart]
  dsimp only
  rw [htask, task_due]
  split
  next hdue =>
    have hends : p.ends limit (w.1.now, j) = w.1.now := Nat.le_antisymm hdue (le_ends (w.1.now, j))
    have hlast : ∀ e ∈ es.filter (p.ends limit · < w.1.now + 1),
        p.ends limit e ≤ p.ends limit (w.1.now, j) := by
      intro e he
      rw [hends]
      exact Nat.le_of_lt_succ (of_decide_eq_true (List.mem_filter.mp he).2)
    have hconclude := p.conclude_task limit (w.1.now, j) w.2
    rw [hends] at hconclude
    refine ⟨h.limit_eq, Nat.le_succ _, ?_, ?_⟩
    · rw [List.filter_append, List.map_append, h.running_eq]
      simp [hends]
    · rw [List.filter_append, List.filter_cons_of_pos (by simp [hends]), List.filter_nil,
        effects_concat hlast, ← h.state_eq, h.limit_eq, hconclude]
  next hdue =>
    have hlater : w.1.now + 1 ≤ p.ends limit (w.1.now, j) := Nat.lt_of_not_le hdue
    refine ⟨h.limit_eq, Nat.le_succ _, ?_, ?_⟩
    · rw [List.filter_append, List.filter_cons_of_pos (by simpa using hlater), List.filter_nil,
        List.map_append, ← h.running_eq]
      rfl
    · rw [List.filter_append, List.filter_cons_of_neg (by simpa using hlater), List.filter_nil,
        List.append_nil, h.state_eq]

/-- Jobs are started one after another. -/
theorem foldl_begin (h : p.Abreast limit s₀ es (w.1.now + 1) w) (js : List J) :
    p.Abreast limit s₀ (es ++ js.map (w.1.now, ·)) (w.1.now + 1) (js.foldl k.begin_ w) := by
  induction js generalizing es w with
  | nil => simpa using h
  | cons j js ih =>
    have hbegin := h.begin_ j
    rw [← begin_now (k := k) j] at hbegin
    have hrest := ih hbegin
    rwa [begin_now, List.append_assoc] at hrest

/-- A crew that is given a moment starts what was waiting. -/
theorem settle (h : p.Abreast limit s₀ es bound w) (hbound : bound ≤ w.1.now + 1) :
    p.Abreast limit s₀ (es ++ w.1.waiting.map (w.1.now, ·)) (w.1.now + 1) (k.settle w) := by
  have hdue := (h.reachAll (fun t => t.due ≤ w.1.now) hbound
    fun e _ _ => decide_eq_decide.mpr Nat.lt_succ_iff.symm).1
  have hnow : (k.reachAll (fun t => t.due ≤ w.1.now) w).1.now = w.1.now := Nat.le_antisymm
    (reachAll_now_le (Nat.le_refl _) fun t _ => of_decide_eq_true) (le_reachAll_now _)
  have hwaiting := waiting_reachAll (k := k) (w := w) fun t => t.due ≤ w.1.now
  rw [Craft.settle]
  generalize k.reachAll (fun t => t.due ≤ w.1.now) w = w' at hdue hnow hwaiting
  have hcleared : p.Abreast limit s₀ es (w'.1.now + 1) ({ w'.1 with waiting := [] }, w'.2) := by
    rw [hnow]
    exact ⟨hdue.limit_eq, hdue.now_le, hdue.running_eq, hdue.state_eq⟩
  have hstarted :=
    foldl_begin (w := ({ w'.1 with waiting := [] }, w'.2)) hcleared w'.1.waiting
  dsimp only at hstarted ⊢
  rwa [hnow, hwaiting] at hstarted ⊢

/-- A crew that has nothing to start ends all its jobs. -/
theorem reachAll_true (h : p.Abreast limit s₀ es bound w) (hbound : bound ≤ w.1.now + 1) :
    (k.reachAll (fun _ => true) w).1.now = (es.map (p.ends limit)).foldl max w.1.now ∧
      (k.reachAll (fun _ => true) w).2 = p.effects limit s₀ es := by
  let last := (es.map (p.ends limit)).foldl max bound
  have hlast : ∀ e ∈ es, p.ends limit e < last + 1 := fun e he =>
    Nat.lt_succ_of_le (le_foldl_max (List.mem_map_of_mem he) bound)
  have hall : es.filter (p.ends limit · < last + 1) = es :=
    List.filter_eq_self.mpr fun e he => decide_eq_true (hlast e he)
  obtain ⟨hreached, hnow⟩ := h.reachAll (fun _ => true)
    (Nat.le_succ_of_le (low_le_foldl_max bound)) fun e he _ => (decide_eq_true (hlast e he)).symm
  rw [hall] at hnow
  refine ⟨hnow.trans ?_, by rw [hreached.state_eq, hall]⟩
  have hmap : (es.filter (bound ≤ p.ends limit ·)).map (p.ends limit) =
      (es.map (p.ends limit)).filter (bound ≤ ·) := by
    rw [List.filter_map]
    rfl
  rw [hmap]
  refine foldl_max_filter fun n _ hn => Nat.le_of_lt_succ (Nat.lt_of_lt_of_le ?_ hbound)
  simpa using hn

end Abreast

/-- A crew keeps to its roster. The jobs that are waiting are the last ones there and were left just
now; of the others, those that end before this moment are at their end. -/
def Follows (p : k.Plan) (limit : Nat) (s₀ : S) (es : List (Nat × J)) (w : Crew J P × S) : Prop :=
  ∃ started bound, es = started ++ w.1.waiting.map (w.1.now, ·) ∧ bound ≤ w.1.now + 1 ∧
    p.Abreast limit s₀ started bound w

namespace Follows

theorem leave (h : p.Follows limit s₀ es w) (j : J) :
    p.Follows limit s₀ (es ++ [(w.1.now, j)]) (w.1.leave j, w.2) := by
  obtain ⟨started, bound, rfl, hbound, habreast⟩ := h
  refine ⟨started, bound, ?_, hbound, ⟨habreast.limit_eq, habreast.now_le, habreast.running_eq,
    habreast.state_eq⟩⟩
  simp [Crew.leave]

theorem settle (h : p.Follows limit s₀ es w) :
    p.Abreast limit s₀ es (w.1.now + 1) (k.settle w) := by
  obtain ⟨started, bound, rfl, hbound, habreast⟩ := h
  exact habreast.settle hbound

theorem of_abreast {bound : Nat} (h : p.Abreast limit s₀ es bound w)
    (hbound : bound ≤ w.1.now + 1) (hwaiting : w.1.waiting = []) : p.Follows limit s₀ es w :=
  ⟨es, bound, by simp [hwaiting], hbound, h⟩

theorem sleep (h : p.Follows limit s₀ es w) (time : Nat) :
    p.Follows limit s₀ es (k.sleep time w) := by
  by_cases htime : time = 0
  · rw [htime, sleep_zero]
    exact h
  · have hle : w.1.now + 1 ≤ w.1.now + time :=
      Nat.add_le_add_left (Nat.one_le_iff_ne_zero.mpr htime) _
    obtain ⟨hreached, -⟩ := h.settle.reachAll (fun t => t.due < w.1.now + time) hle
      fun _ _ _ => rfl
    unfold Craft.sleep
    rw [if_neg htime]
    dsimp only
    rw [settle_now]
    refine of_abreast ?_ (Nat.le_succ _) ((waiting_reachAll _).trans settle_waiting)
    exact ⟨hreached.limit_eq, Nat.le_refl _, hreached.running_eq, hreached.state_eq⟩

end Follows

/-! ### After a shift -/

/-- A crew that starts with nothing keeps to its roster in all that happens. -/
theorem follows_after (p : k.Plan) (limit : Nat) (s₀ : S) (h : Shift J) :
    p.Follows limit s₀ h.roster (k.after ({ limit }, s₀) h) ∧
      (k.after ({ limit }, s₀) h).1.now = h.time := by
  induction h with
  | nil =>
    have hstart : p.Abreast limit s₀ [] 0 ({ limit }, s₀) :=
      ⟨rfl, Nat.le_refl _, rfl, effects_nil s₀ |>.symm⟩
    exact ⟨⟨[], 0, rfl, Nat.zero_le _, hstart⟩, rfl⟩
  | cons happening h ih =>
    obtain ⟨hfollows, hnow⟩ := ih
    cases happening with
    | left j =>
      have hleft := hfollows.leave j
      rw [hnow] at hleft
      exact ⟨hleft, hnow⟩
    | paused =>
      refine ⟨.of_abreast hfollows.settle ?_ settle_waiting, settle_now.trans hnow⟩
      exact Nat.le_of_eq (congrArg (· + 1) settle_now.symm)
    | passed time => exact ⟨hfollows.sleep time, (sleep_now time).trans (congrArg (· + time) hnow)⟩

/-- **The jobs in hand** are those that were left and are not at their end. Those that end at this
very moment may be either. -/
theorem inflight_after (p : k.Plan) (limit : Nat) (s₀ : S) (h : Shift J) :
    h.roster.countP (h.time < p.ends limit ·) ≤ (k.after ({ limit }, s₀) h).1.inflight ∧
      (k.after ({ limit }, s₀) h).1.inflight ≤ h.roster.countP (h.time ≤ p.ends limit ·) := by
  obtain ⟨⟨started, bound, hroster, hbound, habreast⟩, hnow⟩ := p.follows_after limit s₀ h
  have hnow_le := habreast.now_le
  rw [hnow] at hroster hbound hnow_le
  rw [Crew.inflight, habreast.running_eq, List.length_map, ← List.countP_eq_length_filter, hroster,
    List.countP_append, List.countP_append]
  generalize (k.after ({ limit }, s₀) h).1.waiting = js
  have hall : (js.map (h.time, ·)).countP (h.time ≤ p.ends limit ·) = js.length := by
    have heq := List.countP_eq_length (p := fun e => decide (h.time ≤ p.ends limit e))
      (l := js.map (h.time, ·))
    rw [heq.mpr fun e he => ?_, List.length_map]
    obtain ⟨j, -, rfl⟩ := List.mem_map.mp he
    exact decide_eq_true (le_ends (h.time, j))
  have hsome : (js.map (h.time, ·)).countP (h.time < p.ends limit ·) ≤ js.length :=
    List.countP_le_length.trans_eq (List.length_map _)
  have hlow : started.countP (h.time < p.ends limit ·) ≤ started.countP (bound ≤ p.ends limit ·) :=
    List.countP_mono_left fun e _ he => by
      simp only [decide_eq_true_eq] at he ⊢
      omega
  have hhigh : started.countP (bound ≤ p.ends limit ·) ≤ started.countP (h.time ≤ p.ends limit ·) :=
    List.countP_mono_left fun e _ he => by
      simp only [decide_eq_true_eq] at he ⊢
      omega
  omega

/-- **A crew that is given a moment** has done what its jobs do that are at their end by now, in the
order of their ends. The others are in hand. -/
theorem settle_after (p : k.Plan) (limit : Nat) (s₀ : S) (h : Shift J) :
    (k.settle (k.after ({ limit }, s₀) h)).1.inflight =
        h.roster.countP (h.time < p.ends limit ·) ∧
      (k.settle (k.after ({ limit }, s₀) h)).2 =
        p.effects limit s₀ (h.roster.filter (p.ends limit · ≤ h.time)) := by
  obtain ⟨hfollows, hnow⟩ := p.follows_after limit s₀ h
  have hsettle := hfollows.settle
  rw [hnow] at hsettle
  refine ⟨?_, ?_⟩
  · rw [Crew.inflight, settle_waiting, hsettle.running_eq, List.length_map, List.length_nil,
      Nat.zero_add, List.countP_eq_length_filter]
    rfl
  · rw [hsettle.state_eq]
    exact congrArg _ (List.filter_congr fun e _ => decide_eq_decide.mpr Nat.lt_succ_iff)

/-- **A crew that is waited for** does what all its jobs do, and the wait is over when the last one
is at its end. -/
theorem drain_after (p : k.Plan) (limit : Nat) (s₀ : S) (h : Shift J) :
    (k.drain (k.after ({ limit }, s₀) h)).1.inflight = 0 ∧
      (k.drain (k.after ({ limit }, s₀) h)).1.now =
        (h.roster.map (p.ends limit)).foldl max h.time ∧
      (k.drain (k.after ({ limit }, s₀) h)).2 = p.effects limit s₀ h.roster := by
  obtain ⟨hfollows, hnow⟩ := p.follows_after limit s₀ h
  obtain ⟨hlast, hstate⟩ := hfollows.settle.reachAll_true (by rw [settle_now])
  rw [settle_now, hnow] at hlast
  exact ⟨inflight_drain, hlast, hstate⟩

/-- What becomes of a crew with a roster. At any time the jobs in hand are those that were left and
are not at their end, where those that end at that very time may be either until the crew is given
a moment; it has done then what the others do, in the order of their ends. And if nothing more is
left, a wait for the crew is over when the last job is at its end. -/
structure Outcome (p : k.Plan) (limit : Nat) (s₀ : S) (h : Shift J) : Prop where
  now : (k.after ({ limit }, s₀) h).1.now = h.time
  inflight : h.roster.countP (h.time < p.ends limit ·) ≤ (k.after ({ limit }, s₀) h).1.inflight ∧
    (k.after ({ limit }, s₀) h).1.inflight ≤ h.roster.countP (h.time ≤ p.ends limit ·)
  settled : (k.settle (k.after ({ limit }, s₀) h)).1.inflight =
      h.roster.countP (h.time < p.ends limit ·) ∧
    (k.settle (k.after ({ limit }, s₀) h)).2 =
      p.effects limit s₀ (h.roster.filter (p.ends limit · ≤ h.time))
  drained : (k.drain (k.after ({ limit }, s₀) h)).1.inflight = 0 ∧
    (k.drain (k.after ({ limit }, s₀) h)).1.now = (h.roster.map (p.ends limit)).foldl max h.time ∧
    (k.drain (k.after ({ limit }, s₀) h)).2 = p.effects limit s₀ h.roster

/-- **What becomes of a crew is known from its roster.** -/
theorem outcome (p : k.Plan) (limit : Nat) (s₀ : S) (h : Shift J) : p.Outcome limit s₀ h where
  now := (p.follows_after limit s₀ h).2
  inflight := p.inflight_after limit s₀ h
  settled := p.settle_after limit s₀ h
  drained := p.drain_after limit s₀ h

end Plan

end Craft

/-! ### Errands -/

namespace Errand

/-- Errands are known beforehand. -/
def plan : craft.Plan := ⟨Errand.needs, id, fun _ _ _ => rfl⟩

end Errand

end Popularity
