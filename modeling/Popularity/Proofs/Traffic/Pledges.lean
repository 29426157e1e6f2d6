import Popularity.Proofs.Traffic.Balance
import Popularity.Proofs.Traffic.Progress

/-!
# What upkeep goes back to

Upkeep that is on its way, in the hands of a call or of a job, can be traced back to the answer of
the store that obliged to it. A call owes it since it was given that answer, and a job was left by
the very call that owed it, and later than that.

## Time

Nothing is said yet about how much later. Calls and jobs are *prompt* if time does not pass while
one of them could go on: a call that owes upkeep leaves it or begins to await it at the moment when
it was obliged to, and a job starts at the moment when it was left. Then the times agree as well:
what a call awaits since a certain time was owed at that time, and so was what a job was left for.

Both facts are proved at once. `Pledged p` states the first, and the second under the proviso `p`.

## Main definitions

* `Deed.Obliges`, `History.Owed`, `History.Handed`
* `Traffic.Attended`, `Traffic.Prompt`, `Traffic.PromptRun`
* `Traffic.Pledged`

## Main results

* `Traffic.Step.pledged`
-/

namespace Popularity

/-! ### Obligations in a history -/

/-- Which upkeep a deed obliges a call to. -/
inductive Deed.Obliges (c : Nat) : Deed → Upkeep → Prop
  | found (i : Item) (n : Counts) : Obliges c (.found c i (some n)) (.populate i n)
  | recorded {w : Write} {a : Adjustment} (ha : a ∈ w.adjustments) :
    Obliges c (.recorded c w) (.adjust a)

namespace History

/-- Whether a call was obliged to an upkeep at a time. -/
def Owed (h : History) (c : Nat) (u : Upkeep) (t : Nat) : Prop :=
  ∃ d, d.Obliges c u ∧ (t, d) ∈ h

/-- Whether a call that was obliged to an upkeep at the time `t` has left it to a job at the time
`t'`. -/
def Handed (h : History) (j : Nat) (u : Upkeep) (t t' : Nat) : Prop :=
  ∃ newer c before, h = newer ++ (t', .left c j u) :: before ∧ Owed before c u t

variable {h h' : History} {c j t t' : Nat} {u : Upkeep}

theorem Owed.append (hu : Owed h c u t) (h' : History) : Owed (h' ++ h) c u t := by
  obtain ⟨d, hd, hmem⟩ := hu
  exact ⟨d, hd, List.mem_append_right h' hmem⟩

theorem Handed.append (hu : Handed h j u t t') (h' : History) : Handed (h' ++ h) j u t t' := by
  obtain ⟨newer, c, before, rfl, hu⟩ := hu
  exact ⟨h' ++ newer, c, before, (List.append_assoc ..).symm, hu⟩

end History

/-- What an answer of the store obliges to, it obliges to as the deed that it is. -/
theorem Deed.obliges_of_mem_owes {c : Nat} {r : Request} {x : Except StoreFailure r.Answer}
    {u : Upkeep} (hu : u ∈ Call.Query.owes (.store r) x) :
    ∃ d, Deed.ofAnswer c r x = some d ∧ d.Obliges c u := by
  cases r with
  | write w =>
    rcases x with why | b
    · cases hu
    · cases b with
      | false => cases hu
      | true =>
        obtain ⟨a, ha, rfl⟩ := List.mem_map.mp hu
        exact ⟨_, rfl, .recorded ha⟩
  | counts i =>
    rcases x with why | n
    · cases hu
    · cases n with
      | none => cases hu
      | some n =>
        obtain rfl := List.mem_singleton.mp hu
        exact ⟨_, rfl, .found i n⟩
  | countsOf kind ids => cases hu
  | marked m i user => cases hu

namespace Traffic

variable {S : Type} {site : Site S} {s s' : Traffic S} {p : Prop}

/-! ### Promptness -/

/-- Whether all who could go on without an answer have done so. -/
structure Attended (s : Traffic S) : Prop where
  call : ∀ c v, s.calls.get? c = some v → v.due ≠ [] → v.since ≠ none
  job : ∀ j ch, s.jobs.get? j = some ch → ch.since ≠ none

/-- Time passes only when all is attended to. -/
def Prompt (s s' : Traffic S) : Prop := s.now < s'.now → Attended s

/-- Any number of prompt steps. -/
abbrev PromptRun (site : Site S) : Traffic S → Traffic S → Prop :=
  Relation.ReflTransGen fun s s' => Step site s s' ∧ Prompt s s'

/-! ### Pledges -/

/-- Upkeep on its way goes back to an answer of the store, and at once if `p`. -/
structure Pledged (p : Prop) (s : Traffic S) : Prop where
  call : ∀ c v u, s.calls.get? c = some v → u ∈ v.due →
    ∃ t, s.history.Owed c u t ∧ (p → v.since.getD s.now = t)
  /-- Nothing is awaited but an adjustment. -/
  awaited : ∀ c v t, s.calls.get? c = some v → v.since = some t →
    ∃ a next, v.rest = some (.ask (.adjust a) next)
  job : ∀ j ch, s.jobs.get? j = some ch → ch.ended = false →
    ∃ t, s.history.Handed j ch.job t ch.left ∧
      (p → t = ch.left ∧ ch.since.getD s.now = ch.left)

namespace Pledged

theorem opening (limit : Nat) (store : S) (o : Cache.Options) :
    Pledged p (opening limit store o) where
  call _ _ _ hc := nomatch hc
  awaited _ _ _ hc := nomatch hc
  job _ _ hj := nomatch hj

/-- What is owed stays owed while the history goes on. -/
theorem extend (hs : Pledged p s) {h : History} (hcalls : s'.calls = s.calls)
    (hjobs : s'.jobs = s.jobs) (hnow : s'.now = s.now) (hh : s'.history = h ++ s.history) :
    Pledged p s' where
  call c v u hc hu := by
    obtain ⟨t, ht, hp⟩ := hs.call c v u (hcalls ▸ hc) hu
    exact ⟨t, hh ▸ ht.append h, hnow ▸ hp⟩
  awaited c v t hc ht := hs.awaited c v t (hcalls ▸ hc) ht
  job j ch hj hended := by
    obtain ⟨t, ht, hp⟩ := hs.job j ch (hjobs ▸ hj) hended
    exact ⟨t, hh ▸ ht.append h, hnow ▸ hp⟩

theorem note (hs : Pledged p s) (d : Option Deed) : Pledged p (s.note d) :=
  hs.extend rfl rfl rfl rfl

theorem with_store (hs : Pledged p s) (store : S) : Pledged p { s with store } :=
  ⟨hs.call, hs.awaited, hs.job⟩

theorem with_cache (hs : Pledged p s) (cache : Cache) : Pledged p { s with cache } :=
  ⟨hs.call, hs.awaited, hs.job⟩

/-- A call that asks for anything but an adjustment awaits nothing. -/
theorem since_eq_none (hs : Pledged p s) {c : Nat} {v : Visit} {q : Call.Query}
    {next : q.Answer → Site.CallUnderway Service.Answer} (hc : s.calls.get? c = some v)
    (hv : v.rest = some (.ask q next)) (hq : q.isAside = true) : v.since = none := by
  cases hsv : v.since with
  | none => rfl
  | some t =>
    obtain ⟨a, next', ha⟩ := hs.awaited c v t hc hsv
    rw [hv] at ha
    cases ha
    cases hq

/-- A call may go on if it can account for what it owes then. -/
theorem visit (hs : Pledged p s) {c : Nat} {v : Visit}
    (hdue : ∀ u ∈ v.due, ∃ t, s.history.Owed c u t ∧ (p → v.since.getD s.now = t))
    (hwait : ∀ t, v.since = some t → ∃ a next, v.rest = some (.ask (.adjust a) next)) :
    Pledged p (s.visit c v) where
  call c' v' u hc hu := by
    rw [calls_visit] at hc
    rcases Table.get?_put_eq_some hc with ⟨rfl, rfl⟩ | ⟨-, hc⟩
    · exact hdue u hu
    · exact hs.call c' v' u hc hu
  awaited c' v' t hc ht := by
    rw [calls_visit] at hc
    rcases Table.get?_put_eq_some hc with ⟨-, rfl⟩ | ⟨-, hc⟩
    · exact hwait t ht
    · exact hs.awaited c' v' t hc ht
  job := hs.job

theorem chore (hs : Pledged p s) {j : Nat} {ch : Chore}
    (hjob : ch.ended = false → ∃ t, s.history.Handed j ch.job t ch.left ∧
      (p → t = ch.left ∧ ch.since.getD s.now = ch.left)) : Pledged p (s.chore j ch) where
  call := hs.call
  awaited := hs.awaited
  job j' ch' hj hended := by
    rw [jobs_chore] at hj
    rcases Table.get?_put_eq_some hj with ⟨rfl, rfl⟩ | ⟨-, hj⟩
    · exact hjob hended
    · exact hs.job j' ch' hj hended

end Pledged

/-! ### Steps -/

/-- A reply lets a job be left only by a call that owes it. -/
theorem Replies.pledged {c : Nat} {v : Visit} {q : Call.Query} {x : q.Answer}
    {next : q.Answer → Site.CallUnderway Service.Answer} (h : Replies site s c v q x s')
    (hc : s.calls.get? c = some v) (hv : v.rest = some (.ask q next)) (hs : Pledged p s) :
    Pledged p s' := by
  cases h with
  | store r => exact (hs.with_store _).note _
  | storeFailed r why => exact hs
  | marks i user looked => exact hs
  | cached i => exact (hs.with_cache _).note _
  | cacheFailed i why => exact hs.note _
  | adjusted b t out cache ht hnow hout => exact (hs.with_cache _).note _
  | adjustFailed b t why ht => exact hs.note _
  | adjustLate b t ht hnow => exact hs.note _
  | detached u j hj =>
    obtain ⟨t, ht, hp⟩ := hs.call c v u hc (by simp [Visit.due, hv])
    rw [hs.since_eq_none hc hv rfl] at hp
    exact Pledged.chore (hs.note (some (.left c j u))) fun _ =>
      ⟨t, ⟨[], c, s.history, rfl, ht⟩, fun h => ⟨(hp h).symm, rfl⟩⟩
  | reported r => exact hs

/-- What a call owes after a reply it owed before, or it was obliged to it by the reply. -/
theorem Replies.mem_due {c : Nat} {v : Visit} {q : Call.Query} {x : q.Answer} {u : Upkeep}
    {next : q.Answer → Site.CallUnderway Service.Answer} (h : Replies site s c v q x s')
    (hd : Call.Dutiful (.ask q next)) (hu : u ∈ Call.due (next x)) :
    q.isAside = true ∧ u ∈ Call.due (.ask q next) ∨ s'.history.Owed c u s.now := by
  cases h with
  | store r =>
    rw [(hd _).1 rfl] at hu
    obtain ⟨d, hd', hob⟩ := Deed.obliges_of_mem_owes (c := c) hu
    exact .inr ⟨d, hob, by simp [history_note, hd']⟩
  | storeFailed r why =>
    rw [(hd _).1 rfl, Call.Query.owes_store_error] at hu
    cases hu
  | detached u' j hj => exact .inl ⟨rfl, List.mem_cons_of_mem _ hu⟩
  | reported r => exact .inl ⟨rfl, hu⟩
  | marks => rw [(hd _).1 rfl] at hu; cases hu
  | cached => rw [(hd _).1 rfl] at hu; cases hu
  | cacheFailed => rw [(hd _).1 rfl] at hu; cases hu
  | adjusted => rw [(hd _).1 rfl] at hu; cases hu
  | adjustFailed => rw [(hd _).1 rfl] at hu; cases hu
  | adjustLate => rw [(hd _).1 rfl] at hu; cases hu

/-- A reply takes no time. -/
theorem Replies.now_eq {c : Nat} {v : Visit} {q : Call.Query} {x : q.Answer}
    (h : Replies site s c v q x s') : s'.now = s.now := by
  cases h <;> rfl

/-- A reply adds to the history. -/
theorem Replies.history {c : Nat} {v : Visit} {q : Call.Query} {x : q.Answer}
    (h : Replies site s c v q x s') : ∃ h, s'.history = h ++ s.history := by
  cases h
  all_goals first
    | exact ⟨_, rfl⟩
    | exact ⟨[], rfl⟩

/-- **Upkeep goes back to the store**, whatever step is taken. -/
theorem Step.pledged (h : Step site s s') (hp : p → Prompt s s') (hd : Dutiful s)
    (hs : Pledged p s) : Pledged p s' := by
  cases h with
  | pass time =>
    -- whoever owes something since it could go on keeps the time from passing
    have hatt : p → time ≠ 0 → Attended s := fun h ht => hp h (by simpa using Nat.pos_of_ne_zero ht)
    refine ⟨?_, hs.awaited, ?_⟩
    · intro c v u hc hu
      obtain ⟨t, ht, hpt⟩ := hs.call c v u hc hu
      refine ⟨t, ht, ?_⟩
      intro h
      rcases eq_or_ne time 0 with rfl | hne
      · exact hpt h
      · obtain ⟨t', ht'⟩ := Option.ne_none_iff_exists'.mp
          ((hatt h hne).call c v hc (List.ne_nil_of_mem hu))
        simpa [ht'] using hpt h
    · intro j ch hj hended
      obtain ⟨t, ht, hpt⟩ := hs.job j ch hj hended
      refine ⟨t, ht, fun h => ⟨(hpt h).1, ?_⟩⟩
      rcases eq_or_ne time 0 with rfl | hne
      · exact (hpt h).2
      · obtain ⟨t', ht'⟩ := Option.ne_none_iff_exists'.mp ((hatt h hne).job j ch hj)
        simpa [ht'] using (hpt h).2
  | enter c o hc => exact hs.visit (by simp [Visit.due, o.due_call]) (by simp)
  | @hear s₁ c v q x next hc hv hr =>
    refine (hr.pledged hc hv hs).visit ?_ (by simp)
    intro u hu
    rcases hr.mem_due (hd c v _ hc hv) hu with ⟨hq, hu'⟩ | hu'
    · obtain ⟨t, ht, hpt⟩ := hs.call c v u hc (by simpa [Visit.due, hv] using hu')
      rw [hs.since_eq_none hc hv hq] at hpt
      obtain ⟨l, hl⟩ := hr.history
      exact ⟨t, hl ▸ ht.append l, fun h => hr.now_eq.trans (hpt h)⟩
    · exact ⟨s.now, hu', fun _ => hr.now_eq⟩
  | @await c v a next hc hv ht =>
    refine hs.visit ?_ fun t _ => ⟨a, next, hv⟩
    intro u hu
    obtain ⟨t, howed, hpt⟩ := hs.call c v u hc hu
    rw [ht] at hpt
    exact ⟨t, howed, hpt⟩
  | crash hc hv ht hnow hout =>
    exact ((hs.with_cache _).note _).visit (by simp [Visit.due]) (by simp)
  | @start j ch hj ht =>
    refine hs.chore ?_
    intro hended
    obtain ⟨t, hhanded, hpt⟩ := hs.job j ch hj hended
    rw [ht] at hpt
    exact ⟨t, hhanded, hpt⟩
  | finish hj hended ht hnow => exact ((hs.with_cache _).note _).chore (by simp)
  | lose hj hended ht => exact (hs.note _).chore (by simp)

end Traffic

end Popularity
