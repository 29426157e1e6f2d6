import Popularity.Proofs.Traffic.Balance

/-!
# Courses

A run with its turns written down. The history of a state has what was achieved; to speak of writes
that were refused, of requests that were made and came to nothing, and of who made them, all turns
of calls and jobs that concern the cache are needed, those that failed as well. A `Course` is a run
with these turns and their times, the latest first. Every run has a course, so that nothing is
assumed by speaking of one.

## Main definitions

* `Traffic.Turn`, `Traffic.Turns`
* `Traffic.Move`, `Traffic.Course`

## Main results

* `Traffic.exists_course` — every run has a course
* `Traffic.Course.exists_after` — it can be looked at after any of its turns
-/

namespace Popularity

/-- Whether a job that came to its end did anything to an entry. -/
def Upkeep.took : (u : Upkeep) → Except Crash u.op.Answer → Bool
  | .adjust _, x => Adjusted.took x
  | .populate .., .ok _ => true
  | .populate .., .error _ => false

/-- Whether an adjustment that was awaited did anything to an entry. -/
def Bounded.took : Bounded Adjusted → Bool
  | .answered out => Adjusted.took (.ok out)
  | .failed _ | .late => false

namespace Traffic

variable {S : Type} {site : Site S} {s₀ s s' : Traffic S}

/-! ### Turns -/

/-- What a call or a job did at its turn. Calls and jobs go by their numbers. -/
inductive Turn where
  /-- A write was answered by the store. -/
  | wrote (call : Nat) (w : Write) (x : Except StoreFailure Bool)
  /-- A call has left upkeep to a job. -/
  | left (call : Nat) (u : Upkeep) (job : Nat)
  /-- A call has asked the cache for an adjustment, which it awaits. -/
  | asked (call : Nat) (a : Adjustment)
  /-- The adjustment that a call awaits has come to its end. -/
  | answered (call : Nat) (a : Adjustment) (took : Bool)
  | started (job : Nat)
  | ended (job : Nat) (u : Upkeep) (took : Bool)

namespace Turn

/-- The call whose turn it was. -/
def call? : Turn → Option Nat
  | .wrote c .. | .left c .. | .asked c _ | .answered c .. => some c
  | .started _ | .ended .. => none

/-- The job that the turn is about. -/
def job? : Turn → Option Nat
  | .left _ _ j | .started j | .ended j .. => some j
  | .wrote .. | .asked .. | .answered .. => none

/-- What an answer is written down as. -/
def ofAnswer (c : Nat) : (q : Call.Query) → q.Answer → Option Turn
  | .store (.write w), x => some (.wrote c w x)
  | .adjust a, b => some (.answered c a b.took)
  | _, _ => none

end Turn

/-- Turns with their times, the latest first. -/
abbrev Turns : Type := List (Nat × Turn)

namespace Turns

/-- The turns of one call. -/
def ofCall (ts : Turns) (c : Nat) : Turns := ts.filter (·.2.call? = some c)

/-- The turns that are about one job. -/
def ofJob (ts : Turns) (j : Nat) : Turns := ts.filter (·.2.job? = some j)

variable {ts : Turns} {c j t : Nat} {e : Option Turn}

theorem mem_ofCall {x : Nat × Turn} : x ∈ ts.ofCall c ↔ x ∈ ts ∧ x.2.call? = some c := by
  simp [ofCall]

/-- The next turn of a call, if anything is written down of it. -/
theorem ofCall_next (h : ∀ d ∈ e, d.call? = some c) :
    ofCall (e.toList.map (t, ·) ++ ts) c = e.toList.map (t, ·) ++ ofCall ts c := by
  cases e with
  | none => rfl
  | some d => exact List.filter_cons_of_pos (by simpa using h d rfl)

theorem ofCall_next_of_ne (h : ∀ d ∈ e, d.call? ≠ some c) :
    ofCall (e.toList.map (t, ·) ++ ts) c = ofCall ts c := by
  cases e with
  | none => rfl
  | some d => exact List.filter_cons_of_neg (by simpa using h d rfl)

theorem ofJob_next (h : ∀ d ∈ e, d.job? = some j) :
    ofJob (e.toList.map (t, ·) ++ ts) j = e.toList.map (t, ·) ++ ofJob ts j := by
  cases e with
  | none => rfl
  | some d => exact List.filter_cons_of_pos (by simpa using h d rfl)

theorem ofJob_next_of_ne (h : ∀ d ∈ e, d.job? ≠ some j) :
    ofJob (e.toList.map (t, ·) ++ ts) j = ofJob ts j := by
  cases e with
  | none => rfl
  | some d => exact List.filter_cons_of_neg (by simpa using h d rfl)

end Turns

/-! ### Moves -/

/-- A step with what is written down of it. -/
inductive Move (site : Site S) : Traffic S → Option Turn → Traffic S → Prop
  | pass (s : Traffic S) (time : Nat) : Move site s none { s with now := s.now + time }
  | enter (s : Traffic S) (c : Nat) (o : Service.Order) (hc : s.calls.get? c = none) :
    Move site s none (s.visit c ⟨o, some o.call.run, none⟩)
  | hear {s s' : Traffic S} {c : Nat} {v : Visit} {q : Call.Query} {x : q.Answer}
    {next : q.Answer → Site.CallUnderway Service.Answer} (hc : s.calls.get? c = some v)
    (hv : v.rest = some (.ask q next)) (hq : ∀ u, q ≠ .detach u) (hr : Replies site s c v q x s') :
    Move site s (Turn.ofAnswer c q x) (s'.visit c ⟨v.order, some (next x), none⟩)
  | leave {s : Traffic S} {c j : Nat} {v : Visit} {u : Upkeep}
    {next : Unit → Site.CallUnderway Service.Answer} (hc : s.calls.get? c = some v)
    (hv : v.rest = some (.ask (.detach u) next)) (hj : s.jobs.get? j = none) :
    Move site s (some (.left c u j))
      (((s.chore j ⟨u, s.now, none, false⟩).note (some (.left c j u))).visit c
        ⟨v.order, some (next ()), none⟩)
  | await {s : Traffic S} {c : Nat} {v : Visit} {a : Adjustment}
    {next : Bounded Adjusted → Site.CallUnderway Service.Answer} (hc : s.calls.get? c = some v)
    (hv : v.rest = some (.ask (.adjust a) next)) (ht : v.since = none) :
    Move site s (some (.asked c a)) (s.visit c { v with since := some s.now })
  | crash {s : Traffic S} {c t : Nat} {v : Visit} {a : Adjustment} {cache : Cache} {crash : Crash}
    {next : Bounded Adjusted → Site.CallUnderway Service.Answer} (hc : s.calls.get? c = some v)
    (hv : v.rest = some (.ask (.adjust a) next)) (ht : v.since = some t)
    (hnow : s.now ≤ t + s.limit)
    (hout : s.cache.adjust s.now a.item a.counter a.by_ = (.error crash, cache)) :
    Move site s (some (.answered c a false))
      (({ s with cache }.note (some (.settled a false))).visit c ⟨v.order, none, none⟩)
  | start {s : Traffic S} {j : Nat} {ch : Chore} (hj : s.jobs.get? j = some ch)
    (ht : ch.since = none) :
    Move site s (some (.started j)) (s.chore j { ch with since := some s.now })
  | finish {s : Traffic S} {j t : Nat} {ch : Chore} (hj : s.jobs.get? j = some ch)
    (hended : ch.ended = false) (ht : ch.since = some t) (hnow : s.now ≤ t + s.limit) :
    Move site s (some (.ended j ch.job (ch.job.took (s.cache.exec s.now ch.job.op).1)))
      (({ s with cache := (s.cache.exec s.now ch.job.op).2 }.note
        (Deed.ofWork j ch.job (s.cache.exec s.now ch.job.op).1)).chore j { ch with ended := true })
  | lose {s : Traffic S} {j t : Nat} {ch : Chore} (hj : s.jobs.get? j = some ch)
    (hended : ch.ended = false) (ht : ch.since = some t) :
    Move site s (some (.ended j ch.job false))
      ((s.note (Deed.ofLoss ch.job)).chore j { ch with ended := true })

variable {e : Option Turn}

theorem Move.step (h : Move site s e s') : Step site s s' := by
  cases h with
  | pass time => exact .pass s time
  | enter c o hc => exact .enter s c o hc
  | hear hc hv hq hr => exact .hear hc hv hr
  | leave hc hv hj => exact .hear hc hv (.detached _ _ hj)
  | await hc hv ht => exact .await hc hv ht
  | crash hc hv ht hnow hout => exact .crash hc hv ht hnow hout
  | start hj ht => exact .start hj ht
  | finish hj hended ht hnow => exact .finish hj hended ht hnow
  | lose hj hended ht => exact .lose hj hended ht

theorem Step.exists_move (h : Step site s s') : ∃ e, Move site s e s' := by
  cases h with
  | pass time => exact ⟨_, .pass s time⟩
  | enter c o hc => exact ⟨_, .enter s c o hc⟩
  | @hear s₁ c v q x next hc hv hr =>
    cases q with
    | detach u =>
      cases hr with
      | detached u j hj => exact ⟨_, .leave hc hv hj⟩
    | store | marks | cached | adjust | report => exact ⟨_, .hear hc hv (by simp) hr⟩
  | await hc hv ht => exact ⟨_, .await hc hv ht⟩
  | crash hc hv ht hnow hout => exact ⟨_, .crash hc hv ht hnow hout⟩
  | start hj ht => exact ⟨_, .start hj ht⟩
  | finish hj hended ht hnow => exact ⟨_, .finish hj hended ht hnow⟩
  | lose hj hended ht => exact ⟨_, .lose hj hended ht⟩

/-- A reply does not touch the time limit. -/
theorem Replies.limit_eq {c : Nat} {v : Visit} {q : Call.Query} {x : q.Answer}
    (h : Replies site s c v q x s') : s'.limit = s.limit := by
  cases h <;> rfl

theorem Move.limit_eq (h : Move site s e s') : s'.limit = s.limit := by
  cases h with
  | hear hc hv hq hr => exact hr.limit_eq
  | pass | enter | leave | await | crash | start | finish | lose => rfl

/-! ### Courses -/

/-- Any number of moves, with all that is written down of them. -/
inductive Course (site : Site S) (s₀ : Traffic S) : Turns → Traffic S → Prop
  | start : Course site s₀ [] s₀
  | next {ts : Turns} {s s' : Traffic S} {e : Option Turn} (h : Course site s₀ ts s)
    (hm : Move site s e s') : Course site s₀ (e.toList.map (s.now, ·) ++ ts) s'

variable {ts : Turns}

theorem Course.run (h : Course site s₀ ts s) : Run site s₀ s := by
  induction h with
  | start => exact .refl
  | next _ hm ih => exact ih.tail hm.step

/-- **Every run has a course.** -/
theorem exists_course (h : Run site s₀ s) : ∃ ts, Course site s₀ ts s := by
  induction h with
  | refl => exact ⟨[], .start⟩
  | tail _ hstep ih =>
    obtain ⟨ts, h⟩ := ih
    obtain ⟨e, hm⟩ := hstep.exists_move
    exact ⟨_, h.next hm⟩

theorem Course.limit_eq (h : Course site s₀ ts s) : s.limit = s₀.limit := by
  induction h with
  | start => rfl
  | next _ hm ih => exact hm.limit_eq.trans ih

/-- A course can be looked at just after any of its turns. -/
theorem Course.exists_after (h : Course site s₀ ts s) {newer older : Turns} {x : Nat × Turn}
    (hts : ts = newer ++ x :: older) :
    ∃ s₁, Course site s₀ (x :: older) s₁ ∧ Run site s₁ s := by
  induction h generalizing newer with
  | start => cases newer <;> cases hts
  | @next ts s s' e h hm ih =>
    cases e with
    | none =>
      obtain ⟨s₁, h₁, hrun⟩ := ih hts
      exact ⟨s₁, h₁, hrun.tail hm.step⟩
    | some e =>
      rcases List.cons_eq_append_iff.mp hts with ⟨rfl, heq⟩ | ⟨newer', rfl, heq⟩
      · exact ⟨s', heq ▸ h.next hm, .refl⟩
      · obtain ⟨s₁, h₁, hrun⟩ := ih heq
        exact ⟨s₁, h₁, hrun.tail hm.step⟩

end Traffic

end Popularity
