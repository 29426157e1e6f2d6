import Popularity.Proofs.Service.Recording
import Popularity.Proofs.Traffic.Course

/-!
# The life of a call and of a job

The turns of one call are few and come in a fixed order, whatever the others do: a write is
answered, and what the answer obliges to is left to jobs, or awaited. The turns of one job are that
it is left, started and ended. So the part of a course that is about one call, or about one job, can
have a few forms only, and each of them goes with one state that the call or the job is in.

What holds of all turns together can be read off these forms, and needs no induction of its own.

## Main definitions

* `Traffic.Life` — the turns of one call and what has become of it
* `Traffic.Tenure` — the turns of one job and what has become of it

## Main results

* `Traffic.Course.life`, `Traffic.Course.tenure`
-/

namespace Popularity

namespace Traffic

variable {S : Type} {site : Site S} {s₀ s s' : Traffic S} {e : Option Turn} {ts : Turns}
variable {limit c j : Nat} {v : Visit} {q : Call.Query} {x : q.Answer}
variable {next : q.Answer → Site.CallUnderway Service.Answer}

/-! ### The life of a call -/

/-- The turns of a call and what has become of it by now. -/
inductive Life (limit c : Nat) : Turns → Option Visit → Prop
  | absent : Life limit c [] none
  /-- It is for no write, and leaves nothing but counts to be populated. -/
  | looking {o : Service.Order} {d : Site.CallUnderway Service.Answer} {ts : Turns}
    (ho : ∀ w, o.request? ≠ some (.write w))
    (hd : d.Meets (fun q => q.isLookup = true) (fun _ _ => True) fun _ => True)
    (hdue : ∀ u ∈ Call.due d, ∃ i n, u = .populate i n)
    (hts : ∀ x ∈ ts, ∃ t i n j, x = (t, .left c (.populate i n) j)) :
    Life limit c ts (some ⟨o, some d, none⟩)
  | fresh {o : Service.Order} {w : Write} (ho : o.request? = some (.write w)) :
    Life limit c [] (some ⟨o, some o.call.run, none⟩)
  /-- Its write was answered. What it has left and what it is about to see to is what it was obliged
  to by the answer. -/
  | told {o : Service.Order} {w : Write} {x : Except StoreFailure Bool} {t₀ : Nat}
    {l : List (Nat × Upkeep × Nat)} {d : Site.CallUnderway Service.Answer}
    (ho : o.request? = some (.write w))
    (hdue : l.reverse.map (fun b => b.2.1) ++ Call.due d = Call.Query.owes (.store (.write w)) x)
    (hd : Call.Settled o.awaits (Service.toldWrite x) d)
    (hwhy : ∀ why, x = .error why → d = .done (.error (.store why))) :
    Life limit c (l.map (fun b => (b.1, .left c b.2.1 b.2.2)) ++ [(t₀, .wrote c w x)])
      (some ⟨o, some d, none⟩)
  /-- It has counted a read and awaits the adjustment. -/
  | awaiting {o : Service.Order} {i : Item} {t₀ t₁ : Nat}
    {next : Bounded Adjusted → Site.CallUnderway Service.Answer}
    (hnext : ∀ b, Call.Reports (.ok .recorded) (next b)) :
    Life limit c [(t₁, .asked c ⟨i, .reads, 1⟩), (t₀, .wrote c (.read i) (.ok true))]
      (some ⟨o, some (.ask (.adjust ⟨i, .reads, 1⟩) next), some t₁⟩)
  | followed {o : Service.Order} {i : Item} {t₀ t₁ t₂ : Nat} {took : Bool}
    {d : Site.CallUnderway Service.Answer} (htook : took = true → t₂ ≤ t₁ + limit)
    (hd : Call.Reports (.ok .recorded) d) :
    Life limit c [(t₂, .answered c ⟨i, .reads, 1⟩ took), (t₁, .asked c ⟨i, .reads, 1⟩),
      (t₀, .wrote c (.read i) (.ok true))] (some ⟨o, some d, none⟩)
  | crashed {o : Service.Order} {i : Item} {t₀ t₁ t₂ : Nat} :
    Life limit c [(t₂, .answered c ⟨i, .reads, 1⟩ false), (t₁, .asked c ⟨i, .reads, 1⟩),
      (t₀, .wrote c (.read i) (.ok true))] (some ⟨o, none, none⟩)

/-- Upkeep that is left is no write. -/
theorem eq_of_wrote_mem_told {l : List (Nat × Upkeep × Nat)} {t t₀ : Nat} {w w₀ : Write}
    {x x₀ : Except StoreFailure Bool}
    (h : (t, Turn.wrote c w x) ∈
      l.map (fun b => (b.1, .left c b.2.1 b.2.2)) ++ [(t₀, .wrote c w₀ x₀)]) :
    (t, Turn.wrote c w x) = (t₀, .wrote c w₀ x₀) := by
  rcases List.mem_append.mp h with h | h
  · obtain ⟨b, -, hb⟩ := List.mem_map.mp h
    cases hb
  · exact List.mem_singleton.mp h

theorem Life.enter (limit c : Nat) (o : Service.Order) :
    Life limit c [] (some ⟨o, some o.call.run, none⟩) := by
  by_cases ho : ∃ w, o.request? = some (.write w)
  · obtain ⟨w, ho⟩ := ho
    exact .fresh ho
  · have ho' : ∀ w, o.request? ≠ some (.write w) := fun w hw => ho ⟨w, hw⟩
    exact .looking ho' (Service.Order.meets_lookup ho') (by simp [o.due_call]) (by simp)

/-- Of a lookup, nothing is due but counts to be populated. -/
theorem populate_of_mem_owes (hq : q.isLookup = true) {u : Upkeep} (hu : u ∈ q.owes x) :
    ∃ i n, u = .populate i n := by
  unfold Call.Query.owes at hu
  split at hu
  · cases hq
  · exact ⟨_, _, List.mem_singleton.mp hu⟩
  · cases hu

/-- An answer takes a call from one form to the next. -/
theorem Life.hear (hs : Life s.limit c ts (some v)) (hv : v.rest = some (.ask q next))
    (hd : Call.Dutiful (.ask q next)) (hq : ∀ u, q ≠ .detach u) (hr : Replies site s c v q x s') :
    Life s.limit c ((Turn.ofAnswer c q x).toList.map (s.now, ·) ++ ts)
      (some ⟨v.order, some (next x), none⟩) := by
  cases hs with
  | looking ho hmeets hdue hts =>
    cases hv
    have hnone : Turn.ofAnswer c q x = none := by
      have hlook := hmeets.1
      unfold Turn.ofAnswer
      split
      · cases hlook
      · cases hlook
      · rfl
    rw [hnone]
    refine .looking ho (hmeets.2 x trivial) ?_ hts
    intro u hu
    cases q with
    | report r => exact hdue u hu
    | detach u => exact absurd rfl (hq u)
    | store r => exact populate_of_mem_owes hmeets.1 ((hd x).1 rfl ▸ hu)
    | marks i user => exact populate_of_mem_owes hmeets.1 ((hd x).1 rfl ▸ hu)
    | cached i => exact populate_of_mem_owes hmeets.1 ((hd x).1 rfl ▸ hu)
    | adjust a => cases hmeets.1
  | fresh ho =>
    obtain ⟨next', hrun, hwhy, hsettled⟩ := Service.Order.run_of_records ho
    cases hrun.symm.trans (Option.some.inj hv)
    exact .told (l := []) ho ((hd x).1 rfl) (hsettled x) fun why hx => hx ▸ hwhy why
  | told ho hdue hsettled hwhy =>
    cases hv
    rcases hsettled with hmeets | ⟨-, a, next', heq, -⟩
    · cases q with
      | report r =>
        exact .told ho hdue (.inl (hmeets.2 x trivial)) fun why hx => nomatch hwhy why hx
      | detach u => exact absurd rfl (hq u)
      | store r => cases hmeets.1
      | marks i user => cases hmeets.1
      | cached i => cases hmeets.1
      | adjust a => cases hmeets.1
    · -- an adjustment that nobody has asked for yet is not answered
      cases heq
      cases hr with
      | adjusted _ _ _ _ ht => cases ht
      | adjustFailed _ _ _ ht => cases ht
      | adjustLate _ _ ht => cases ht
  | awaiting hnext =>
    cases hv
    refine .followed ?_ (hnext x)
    intro htook
    cases hr with
    | adjusted _ _ _ _ ht hnow => cases ht; exact hnow
    | adjustFailed => cases htook
    | adjustLate => cases htook
  | followed htook hmeets =>
    cases hv
    obtain ⟨r, rfl⟩ := hmeets.1
    exact .followed htook (hmeets.2 x trivial)
  | crashed => cases hv

/-- A call leaves what is due to a job. -/
theorem Life.leave {u : Upkeep} {next : Unit → Site.CallUnderway Service.Answer}
    (hs : Life limit c ts (some v)) (hv : v.rest = some (.ask (.detach u) next)) (t j : Nat) :
    Life limit c ((t, .left c u j) :: ts) (some ⟨v.order, some (next ()), none⟩) := by
  cases hs with
  | looking ho hmeets hdue hts =>
    cases hv
    refine .looking ho (hmeets.2 () trivial) (fun u' hu' => hdue u' (List.mem_cons_of_mem u hu')) ?_
    intro b hb
    rcases List.mem_cons.mp hb with rfl | hb
    · obtain ⟨i, n, rfl⟩ := hdue u List.mem_cons_self
      exact ⟨t, i, n, j, rfl⟩
    · exact hts b hb
  | fresh ho =>
    obtain ⟨next', hrun, -, -⟩ := Service.Order.run_of_records ho
    cases hrun.symm.trans (Option.some.inj hv)
  | @told o w x t₀ l d ho hdue hsettled hwhy =>
    cases hv
    refine .told (l := (t, u, j) :: l) ho ?_ ?_ fun why hx => nomatch hwhy why hx
    · rw [← hdue, List.reverse_cons, List.map_append, List.append_assoc]
      rfl
    · rcases hsettled with hmeets | ⟨-, a, next', heq, -⟩
      · exact .inl (hmeets.2 () trivial)
      · cases heq
  | awaiting hnext => cases hv
  | followed htook hmeets =>
    cases hv
    obtain ⟨r, hr⟩ := hmeets.1
    cases hr
  | crashed => cases hv

/-- What a call begins to await is the adjustment of the read that it has counted. -/
theorem Life.await {a : Adjustment} {next : Bounded Adjusted → Site.CallUnderway Service.Answer}
    (hs : Life limit c ts (some v)) (hv : v.rest = some (.ask (.adjust a) next))
    (hd : Call.Dutiful (.ask (.adjust a) next)) (ht : v.since = none) (t : Nat) :
    Life limit c ((t, .asked c a) :: ts) (some { v with since := some t }) := by
  cases hs with
  | looking ho hmeets hdue hts =>
    cases hv
    cases hmeets.1
  | fresh ho =>
    obtain ⟨next', hrun, -, -⟩ := Service.Order.run_of_records ho
    cases hrun.symm.trans (Option.some.inj hv)
  | @told o w x t₀ l d ho hdue hsettled hwhy =>
    cases hv
    rcases hsettled with hmeets | ⟨haw, a', next', heq, hmeets⟩
    · cases hmeets.1
    · cases heq
      obtain ⟨i, rfl⟩ := Service.Order.eq_of_awaits haw
      cases (Option.some.inj ho : Request.write (.read i) = .write w)
      rcases x with why | b
      · cases hwhy why rfl
      · cases b with
        | false => simp [Call.Query.owes] at hdue
        | true =>
          -- the read obliges to this one adjustment, so nothing was left before
          obtain ⟨hleft, hadjust⟩ := List.append_eq_singleton_iff.mp hdue |>.resolve_right (by simp)
          obtain rfl : l = [] := by simpa using hleft
          cases hadjust
          exact .awaiting fun b => .of_due (hmeets b) ((hd b).1 rfl)
  | awaiting hnext => cases ht
  | followed htook hmeets =>
    cases hv
    obtain ⟨r, hr⟩ := hmeets.1
    cases hr
  | crashed => cases hv

/-- A call that crashes was awaiting an adjustment. -/
theorem Life.crash {a : Adjustment} {next : Bounded Adjusted → Site.CallUnderway Service.Answer}
    (hs : Life limit c ts (some v)) (hv : v.rest = some (.ask (.adjust a) next)) {t₁ : Nat}
    (ht : v.since = some t₁) (t : Nat) :
    Life limit c ((t, .answered c a false) :: ts) (some ⟨v.order, none, none⟩) := by
  cases hs with
  | awaiting hnext => cases hv; exact .crashed
  | looking => cases ht
  | fresh => cases ht
  | told => cases ht
  | followed => cases ht
  | crashed => cases ht

/-- A turn is that of the call that was answered. -/
theorem call?_of_mem_ofAnswer {d : Turn} (h : d ∈ Turn.ofAnswer c q x) : d.call? = some c := by
  unfold Turn.ofAnswer at h
  split at h <;> cases h <;> rfl

/-- What happens to one call leaves the others alone. -/
theorem Life.put {calls : Table Nat Visit} {c₁ t : Nat} {v' : Visit}
    (he : ∀ d ∈ e, d.call? = some c₁) (hs : ∀ c, Life limit c (ts.ofCall c) (calls.get? c))
    (h : Life limit c₁ (e.toList.map (t, ·) ++ ts.ofCall c₁) (some v')) (c : Nat) :
    Life limit c (Turns.ofCall (e.toList.map (t, ·) ++ ts) c) ((calls.put c₁ v').get? c) := by
  rw [Table.get?_put]
  by_cases hc : c = c₁
  · subst hc
    rw [if_pos (beq_self_eq_true c), Turns.ofCall_next he]
    exact h
  · rw [if_neg (by simpa using hc), Turns.ofCall_next_of_ne]
    · exact hs c
    · intro d hd heq
      exact hc (Option.some.inj (heq.symm.trans (he d hd)))

/-- A move takes every call from one form to the next, or leaves it alone. -/
theorem Move.life (h : Move site s e s') (hd : Dutiful s)
    (hs : ∀ c, Life s.limit c (ts.ofCall c) (s.calls.get? c)) (c : Nat) :
    Life s'.limit c (Turns.ofCall (e.toList.map (s.now, ·) ++ ts) c) (s'.calls.get? c) := by
  rw [h.limit_eq]
  -- a call that has a turn is in the form that goes with its state before
  have hform : ∀ c₁ v, s.calls.get? c₁ = some v → Life s.limit c₁ (ts.ofCall c₁) (some v) :=
    fun c₁ v hc => hc ▸ hs c₁
  cases h with
  | pass time => exact hs c
  | enter c₁ o hc =>
    refine Life.put (e := none) (t := s.now) nofun hs ?_ c
    have hnone := hs c₁
    rw [hc] at hnone
    generalize ts.ofCall c₁ = ts' at hnone
    cases hnone
    exact Life.enter s.limit c₁ o
  | @hear s₁ c₁ v q x next hc hv hq hr =>
    rw [calls_visit, hr.calls_eq]
    exact Life.put (fun _ => call?_of_mem_ofAnswer) hs
      ((hform c₁ v hc).hear hv (hd c₁ v _ hc hv) hq hr) c
  | @leave c₁ j v u next hc hv hj =>
    exact Life.put (by simp [Turn.call?]) hs ((hform c₁ v hc).leave hv s.now j) c
  | @await c₁ v a next hc hv ht =>
    exact Life.put (by simp [Turn.call?]) hs
      ((hform c₁ v hc).await hv (hd c₁ v _ hc hv) ht s.now) c
  | @crash c₁ t v a cache crash next hc hv ht hnow hout =>
    exact Life.put (by simp [Turn.call?]) hs ((hform c₁ v hc).crash hv ht s.now) c
  | start hj ht =>
    rw [Turns.ofCall_next_of_ne (by simp [Turn.call?])]
    exact hs c
  | finish hj hended ht hnow =>
    rw [Turns.ofCall_next_of_ne (by simp [Turn.call?])]
    exact hs c
  | lose hj hended ht =>
    rw [Turns.ofCall_next_of_ne (by simp [Turn.call?])]
    exact hs c

/-- **The turns of every call have one of the forms.** -/
theorem Course.life {store : S} {o : Cache.Options} (h : Course site (opening limit store o) ts s)
    (c : Nat) : Life s.limit c (ts.ofCall c) (s.calls.get? c) := by
  induction h generalizing c with
  | start => exact .absent
  | next h hm ih => exact hm.life (h.run.dutiful nofun) ih c

/-! ### The tenure of a job -/

/-- The turns of a job and what has become of it by now. It does nothing after its time. -/
inductive Tenure (limit j : Nat) : Turns → Option Chore → Prop
  | absent : Tenure limit j [] none
  | left {c t₀ : Nat} {u : Upkeep} :
    Tenure limit j [(t₀, .left c u j)] (some ⟨u, t₀, none, false⟩)
  | started {c t₀ t₁ : Nat} {u : Upkeep} :
    Tenure limit j [(t₁, .started j), (t₀, .left c u j)] (some ⟨u, t₀, some t₁, false⟩)
  | ended {c t₀ t₁ t₂ : Nat} {u : Upkeep} {took : Bool} (htook : took = true → t₂ ≤ t₁ + limit) :
    Tenure limit j [(t₂, .ended j u took), (t₁, .started j), (t₀, .left c u j)]
      (some ⟨u, t₀, some t₁, true⟩)

variable {ch : Chore} {t : Nat}

theorem Tenure.start (hs : Tenure limit j ts (some ch)) (ht : ch.since = none) :
    Tenure limit j ((t, .started j) :: ts) (some { ch with since := some t }) := by
  cases hs with
  | left => exact .started
  | started => cases ht
  | ended => cases ht

theorem Tenure.finish (hs : Tenure limit j ts (some ch)) {t₁ : Nat} {took : Bool}
    (hended : ch.ended = false) (ht : ch.since = some t₁) (htook : took = true → t ≤ t₁ + limit) :
    Tenure limit j ((t, .ended j ch.job took) :: ts) (some { ch with ended := true }) := by
  cases hs with
  | left => cases ht
  | started => cases ht; exact .ended htook
  | ended => cases hended

/-- What happens to one job leaves the others alone. -/
theorem Tenure.put {jobs : Table Nat Chore} {d : Turn} {j₁ : Nat} {ch' : Chore}
    (hd : d.job? = some j₁) (hs : ∀ j, Tenure limit j (ts.ofJob j) (jobs.get? j))
    (h : Tenure limit j₁ ((t, d) :: ts.ofJob j₁) (some ch')) (j : Nat) :
    Tenure limit j (Turns.ofJob ((t, d) :: ts) j) ((jobs.put j₁ ch').get? j) := by
  rw [Table.get?_put]
  by_cases hj : j = j₁
  · subst hj
    have hnext : Turns.ofJob ((t, d) :: ts) j = (t, d) :: ts.ofJob j :=
      Turns.ofJob_next (e := some d) fun _ hd' => by rwa [← Option.some.inj hd']
    rw [if_pos (beq_self_eq_true j), hnext]
    exact h
  · have hnext : Turns.ofJob ((t, d) :: ts) j = ts.ofJob j :=
      Turns.ofJob_next_of_ne (e := some d) fun _ hd' => by
        rw [← Option.some.inj hd', hd]
        exact fun heq => hj (Option.some.inj heq.symm)
    rw [if_neg (by simpa using hj), hnext]
    exact hs j

/-- A move takes every job from one form to the next, or leaves it alone. -/
theorem Move.tenure (h : Move site s e s')
    (hs : ∀ j, Tenure s.limit j (ts.ofJob j) (s.jobs.get? j)) (j : Nat) :
    Tenure s'.limit j (Turns.ofJob (e.toList.map (s.now, ·) ++ ts) j) (s'.jobs.get? j) := by
  rw [h.limit_eq]
  have hform : ∀ j₁ ch, s.jobs.get? j₁ = some ch → Tenure s.limit j₁ (ts.ofJob j₁) (some ch) :=
    fun j₁ ch hj => hj ▸ hs j₁
  cases h with
  | pass time => exact hs j
  | enter c o hc => exact hs j
  | @hear s₁ c v q x next hc hv hq hr =>
    have hjobs : s₁.jobs = s.jobs := by
      cases hr with
      | detached u j' hj => exact absurd rfl (hq u)
      | store | storeFailed | marks | cached | cacheFailed | adjusted | adjustFailed | adjustLate
      | reported => rfl
    rw [jobs_visit, hjobs, Turns.ofJob_next_of_ne]
    · exact hs j
    · intro d hd
      unfold Turn.ofAnswer at hd
      split at hd <;> cases hd <;> simp [Turn.job?]
  | @leave c j₁ v u next hc hv hj =>
    refine Tenure.put rfl hs ?_ j
    have hnone := hs j₁
    rw [hj] at hnone
    generalize ts.ofJob j₁ = ts' at hnone
    cases hnone
    exact .left
  | await hc hv ht =>
    rw [Turns.ofJob_next_of_ne (by simp [Turn.job?])]
    exact hs j
  | crash hc hv ht hnow hout =>
    rw [Turns.ofJob_next_of_ne (by simp [Turn.job?])]
    exact hs j
  | @start j₁ ch hj ht => exact Tenure.put rfl hs ((hform j₁ ch hj).start ht) j
  | @finish j₁ t₁ ch hj hended ht hnow =>
    exact Tenure.put rfl hs ((hform j₁ ch hj).finish hended ht fun _ => hnow) j
  | @lose j₁ t₁ ch hj hended ht =>
    have hlost : false = true → s.now ≤ t₁ + s.limit := nofun
    exact Tenure.put rfl hs ((hform j₁ ch hj).finish hended ht hlost) j

/-- **The turns about every job have one of the forms.** -/
theorem Course.tenure {store : S} {o : Cache.Options} (h : Course site (opening limit store o) ts s)
    (j : Nat) : Tenure s.limit j (ts.ofJob j) (s.jobs.get? j) := by
  induction h generalizing j with
  | start => exact .absent
  | next h hm ih => exact hm.tenure ih j

end Traffic

end Popularity
