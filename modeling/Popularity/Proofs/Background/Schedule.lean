import Popularity.Proofs.Background
import Popularity.Proofs.Background.Wakeup

/-!
# A crew counts its jobs

A crew on a clock has no count and no bell: whoever waits for it is told at once when no job is in
hand. That is one of the orders in which the parties of a `Tally` can take their steps. The jobs of
the crew are the jobs that are at work there, each of them leaves when the crew has ended it, and a
wait for the crew is a wait there: it is over just if the crew says so.

## Main definitions

* `Tally.AtWork` — the jobs that are at work, and no other guards

## Main results

* `Craft.drainWithin_fst_iff`, `Craft.inflight_drainWithin_le`
* `Tally.AtWork.spawn`, `Tally.AtWork.drainWithin` — a job left to a crew and a wait for a crew are
  runs of the tally
-/

namespace Popularity

/-! ### The jobs in hand -/

theorem Crew.inflight_leave {J P : Type} (c : Crew J P) (j : J) :
    (c.leave j).inflight = c.inflight + 1 := by
  rw [inflight, inflight, leave, List.length_append, List.length_singleton]
  exact Nat.add_right_comm _ _ _

namespace Craft

variable {J P S : Type} {k : Craft J P S} {w : Crew J P × S}

theorem inflight_reachAll_le (isDue : Task P → Bool) :
    (k.reachAll isDue w).1.inflight ≤ w.1.inflight := by
  rw [Crew.inflight, Crew.inflight, waiting_reachAll, running_reachAll]
  exact Nat.add_le_add_left (List.length_filter_le _ _) _

/-- A job that is started is under way or at its end. -/
theorem inflight_begin_le (j : J) : (k.begin_ w j).1.inflight ≤ w.1.inflight + 1 := by
  unfold begin_ Crew.inflight
  dsimp only
  split
  · exact Nat.le_succ _
  · simp only [List.length_append, List.length_singleton]
    omega

theorem inflight_foldl_begin_le (js : List J) :
    (js.foldl k.begin_ w).1.inflight ≤ w.1.inflight + js.length := by
  induction js generalizing w with
  | nil => exact Nat.le_refl _
  | cons j js ih =>
    have hrest := ih (w := k.begin_ w j)
    have hfirst := inflight_begin_le (k := k) (w := w) j
    rw [List.foldl_cons, List.length_cons]
    omega

theorem inflight_settle_le : (k.settle w).1.inflight ≤ w.1.inflight := by
  have hdue := inflight_reachAll_le (k := k) (w := w) fun t => decide (t.due ≤ w.1.now)
  have hbegin := inflight_foldl_begin_le (k := k)
    (w := ({ (k.reachAll (fun t => t.due ≤ w.1.now) w).1 with waiting := [] },
      (k.reachAll (fun t => t.due ≤ w.1.now) w).2))
    (k.reachAll (fun t => t.due ≤ w.1.now) w).1.waiting
  refine Nat.le_trans hbegin (Nat.le_trans (Nat.le_of_eq ?_) hdue)
  simp only [Crew.inflight, List.length_nil]
  omega

/-- To wait leaves no jobs. -/
theorem inflight_drainWithin_le (time : Nat) :
    (k.drainWithin time w).2.1.inflight ≤ w.1.inflight := by
  have hwait (isDue : Task P → Bool) : (k.reachAll isDue (k.settle w)).1.inflight ≤ w.1.inflight :=
    Nat.le_trans (inflight_reachAll_le _) inflight_settle_le
  unfold drainWithin
  dsimp only
  split
  · exact Nat.le_refl _
  split
  · exact Nat.le_refl _
  split
  · exact hwait _
  · exact hwait _

/-- A wait is over just if no job is in hand. -/
theorem drainWithin_fst_iff (time : Nat) :
    (k.drainWithin time w).1 = true ↔ (k.drainWithin time w).2.1.inflight = 0 := by
  unfold drainWithin
  dsimp only
  split
  next h => simp [h]
  next h =>
    split
    · simp [h]
    split
    next h' => exact ⟨fun _ => h', fun _ => rfl⟩
    next h' => exact ⟨nofun, fun h => absurd h h'⟩

end Craft

/-! ### One order of steps -/

namespace Tally

variable {N T : Type} {b : Bell N T} {s s' : Tally N T}

/-- Some jobs are at work, and nobody else has a guard. -/
structure AtWork (s : Tally N T) (js : List Nat) : Prop where
  nodup : js.Nodup
  working : ∀ j ∈ js, s.jobs.get? j = some labour
  guards : s.guards = js.length

/-- What jobs that leave do to all others: they ring in the end, if that leaves no job at work. -/
structure Gone (b : Bell N T) (s s' : Tally N T) (js : List Nat) : Prop where
  run : Run b s s'
  atWork : s'.AtWork js
  waits : s'.waits = s.waits
  issued : ∀ t, b.Issued s.bell t → b.Issued s'.bell t
  rung : js = [] → ∀ t, b.Issued s.bell t → b.Rung s'.bell t

theorem AtWork.congr {js : List Nat} (h : s.AtWork js) (hjobs : s'.jobs = s.jobs) :
    s'.AtWork js :=
  ⟨h.nodup, hjobs ▸ h.working, (congrArg _ hjobs).trans h.guards⟩

/-- **A job that is left to a crew is a job of the tally**, at work as soon as it is left. -/
theorem AtWork.spawn {J P : Type} {w : Crew J P} {js : List Nat} (h : s.AtWork js)
    (hlen : js.length = w.inflight) {j : Nat} (hj : s.jobs.get? j = none)
    (hroom : s.handles < 2 ^ 63) (x : J) :
    ∃ s', Run b s s' ∧ s'.AtWork (j :: js) ∧ (j :: js).length = (w.leave x).inflight ∧
      s'.waits = s.waits := by
  have hnew : ∀ j' ∈ js, j' ≠ j := by
    rintro j' hj' rfl
    rw [h.working j' hj'] at hj
    cases hj
  have henter : Step b (s.job j stay) ({ s with count := s.count + 1 }.job j labour) := by
    have hturn := Turn.step (b := b) (.enter (s := s.job j stay) j get?_jobs_job)
    simpa only [job, Table.put_put] using hturn
  refine ⟨_, .head (Turn.step (.spawn j hj hroom)) (.single henter), ⟨?_, ?_, ?_⟩, ?_, rfl⟩
  · exact List.nodup_cons.mpr ⟨fun hmem => hnew j hmem rfl, h.nodup⟩
  · intro j' hj'
    obtain rfl | hmem := List.mem_cons.mp hj'
    · exact get?_jobs_job
    · rw [jobs_job, Table.get?_put, if_neg (by simpa using hnew j' hmem)]
      exact h.working j' hmem
  · have hjob := countP_job_of_none guarded hj labour
    exact hjob.trans (congrArg (· + 1) h.guards)
  · rw [Crew.inflight_leave, List.length_cons, hlen]

/-- The jobs that remain at work when one has left. -/
theorem AtWork.tail {j : Nat} {js : List Nat} (h : s.AtWork (j :: js)) {d : Party T Unit}
    (hd : guarded d = false) : (s.job j d).AtWork js := by
  obtain ⟨hj, hnodup⟩ := List.nodup_cons.mp h.nodup
  refine ⟨hnodup, fun j' hj' => ?_, ?_⟩
  · have hne : j' ≠ j := fun heq => hj (heq ▸ hj')
    rw [jobs_job, Table.get?_put, if_neg (by simpa using hne)]
    exact h.working j' (List.mem_cons_of_mem j hj')
  · have hjob := guards_job (h.working j List.mem_cons_self) d
    rw [hd, h.guards] at hjob
    exact Nat.add_right_cancel hjob

theorem run_leave {j : Nat} (hj : s.jobs.get? j = some labour) :
    Run b s ({ s with count := s.count - 1 }.job j (ringIfLast s.count)) := by
  have hleave : Step b (s.job j depart)
      ({ s with count := s.count - 1 }.job j (ringIfLast s.count)) := by
    have hturn := Turn.step (b := b) (.leave (s := s.job j depart) j get?_jobs_job)
    simpa only [job, Table.put_put] using hturn
  exact .head (Turn.step (.work j hj)) (.single hleave)

/-- A job leaves. -/
theorem AtWork.leave {j : Nat} {js : List Nat} (h : s.AtWork (j :: js)) (hs : Sound b s) :
    ∃ s', Gone b s s' js := by
  have hj : s.jobs.get? j = some labour := h.working j List.mem_cons_self
  have hcount : s.count.toNat = js.length + 1 := hs.count.trans h.guards
  cases js with
  | nil =>
    have hlast : (ringIfLast s.count : Party T Unit) = ask .ring :=
      if_pos (UInt64.toNat_inj.mp (hcount.trans UInt64.toNat_one.symm))
    have hleft := run_leave (b := b) hj
    rw [hlast] at hleft
    have hring : Step b ({ s with count := s.count - 1 }.job j (ask .ring))
        ({ s with count := s.count - 1, bell := b.ring s.bell }.job j (pure ())) := by
      have hturn := Turn.step (b := b)
        (.ring (s := { s with count := s.count - 1 }.job j (ask .ring)) j get?_jobs_job)
      simpa only [job, Table.put_put] using hturn
    exact ⟨_, hleft.tail hring, (h.tail (d := pure ()) rfl).congr rfl, rfl,
      fun t ht => ht.exec .ring, fun _ t ht => ht.ring⟩
  | cons j' js =>
    have hne : s.count ≠ 1 := by
      intro hone
      rw [hone, UInt64.toNat_one, List.length_cons] at hcount
      omega
    have hleft := run_leave (b := b) hj
    rw [ringIfLast, if_neg hne] at hleft
    exact ⟨_, hleft, (h.tail (d := pure ()) rfl).congr rfl, rfl, fun t ht => ht, nofun⟩

/-- Jobs leave one by one. -/
theorem AtWork.leaveAll {js₁ js₂ : List Nat} (h : s.AtWork (js₁ ++ js₂)) (hs : Sound b s)
    (hsome : js₁ ≠ []) : ∃ s', Gone b s s' js₂ := by
  induction js₁ generalizing s with
  | nil => exact absurd rfl hsome
  | cons j js₁ ih =>
    obtain ⟨s₁, hgone⟩ := AtWork.leave h hs
    cases js₁ with
    | nil => exact ⟨s₁, hgone⟩
    | cons j' js₁ =>
      obtain ⟨s₂, hrest⟩ := ih hgone.atWork (hgone.run.sound hs) (List.cons_ne_nil _ _)
      exact ⟨s₂, hgone.run.trans hrest.run, hrest.atWork, hrest.waits.trans hgone.waits,
        fun t ht => hrest.issued t (hgone.issued t ht),
        fun hnil t ht => hrest.rung hnil t (hgone.issued t ht)⟩

/-! ### A wait -/

/-- A round of a wait: it takes its ticket and looks at the count. -/
theorem run_round {v : Nat} (hv : s.waits.get? v = some round) :
    Run b s ({ s with bell := (b.listen s.bell).2 }.wait v
      (if s.count = 0 then pure true else sleep (b.listen s.bell).1)) := by
  have hlook : Step b ({ s with bell := (b.listen s.bell).2 }.wait v (look (b.listen s.bell).1))
      ({ s with bell := (b.listen s.bell).2 }.wait v
        (if s.count = 0 then pure true else sleep (b.listen s.bell).1)) := by
    have hturn := Turn.step (b := b) (.load
      (s := { s with bell := (b.listen s.bell).2 }.wait v (look (b.listen s.bell).1)) v _
      get?_waits_wait (b.issued_listen s.bell))
    simp only [wait, Table.put_put] at hturn
    exact hturn
  exact .head (Turn.step (.listen v hv)) (.single hlook)

/-- Where no job is at work, a round is the last one. -/
theorem AtWork.returns {v : Nat} (h : s.AtWork []) (hs : Sound b s)
    (hv : s.waits.get? v = some round) : ∃ s', Run b s s' ∧ s'.AtWork [] ∧ s'.Returned v := by
  have hzero : s.count = 0 := UInt64.toNat_inj.mp (hs.count.trans h.guards)
  have hround := run_round (b := b) hv
  rw [if_pos hzero] at hround
  exact ⟨_, hround, ⟨h.nodup, nofun, h.guards⟩, get?_waits_wait⟩

/-- While a job is at work, a wait goes to sleep. -/
theorem AtWork.sleeps {v : Nat} {js : List Nat} (h : s.AtWork js) (hs : Sound b s) (hjs : js ≠ [])
    (hv : s.waits.get? v = none) : ∃ s' t, Run b s s' ∧ s'.AtWork js ∧
      s'.waits.get? v = some (sleep t) ∧ b.Issued s'.bell t := by
  have hcount : s.count ≠ 0 := by
    intro hzero
    have hlen : js.length = 0 :=
      h.guards.symm.trans (hs.count.symm.trans (congrArg UInt64.toNat hzero))
    exact hjs (List.length_eq_zero_iff.mp hlen)
  have hround := run_round (b := b) (s := s.wait v round) get?_waits_wait
  rw [count_wait, if_neg hcount] at hround
  exact ⟨_, _, .head (Turn.step (.call v hv)) hround, h.congr rfl, get?_waits_wait,
    b.issued_listen s.bell⟩

/-- A wait that has been rung for goes on to its next round. -/
theorem run_wake {v : Nat} {t : T} (hb : b.Wakes) (hv : s.waits.get? v = some (sleep t))
    (ht : b.Rung s.bell t) : Run b s (s.wait v round) := by
  have hagain : Step b (s.wait v (pure false)) (s.wait v round) := by
    have hturn := Turn.step (b := b) (.again (s := s.wait v (pure false)) v get?_waits_wait)
    simpa only [wait, Table.put_put] using hturn
  exact .head (Turn.step (.wake v t hv (ht.heard hb))) (.single hagain)

theorem not_returned_of_sleep {v : Nat} {t : T} (hv : s.waits.get? v = some (sleep t)) :
    ¬ s.Returned v := by
  intro hreturned
  rw [Returned, hv] at hreturned
  cases hreturned

/-- A wait goes to sleep, some jobs leave, and it is over if those were all. -/
theorem AtWork.wait {v : Nat} {js₁ js₂ : List Nat} (h : s.AtWork (js₁ ++ js₂)) (hs : Sound b s)
    (hb : b.Wakes) (hv : s.waits.get? v = none) :
    ∃ s', Run b s s' ∧ s'.AtWork js₂ ∧ (s'.Returned v ↔ js₂ = []) := by
  by_cases hnone : js₁ ++ js₂ = []
  · obtain ⟨rfl, rfl⟩ := List.append_eq_nil_iff.mp hnone
    have hcall : Run b s (s.wait v round) := .single (Turn.step (.call v hv))
    have hcalled : (s.wait v round).AtWork [] := h.congr rfl
    obtain ⟨s', hrun, hnobody, hreturned⟩ := hcalled.returns (hcall.sound hs) get?_waits_wait
    exact ⟨s', hcall.trans hrun, hnobody, iff_of_true hreturned rfl⟩
  · obtain ⟨s₁, t, hrun₁, hatWork, hsleep, hissued⟩ := h.sleeps hs hnone hv
    by_cases hjs₁ : js₁ = []
    · subst hjs₁
      exact ⟨s₁, hrun₁, hatWork, iff_of_false (not_returned_of_sleep hsleep) hnone⟩
    · obtain ⟨s₂, hgone⟩ := hatWork.leaveAll (hrun₁.sound hs) hjs₁
      have hrun₂ : Run b s s₂ := hrun₁.trans hgone.run
      have hasleep : s₂.waits.get? v = some (sleep t) := by rw [hgone.waits, hsleep]
      by_cases hjs₂ : js₂ = []
      · have hwake : Run b s (s₂.wait v round) :=
          hrun₂.trans (run_wake hb hasleep (hgone.rung hjs₂ t hissued))
        subst hjs₂
        have hwoken : (s₂.wait v round).AtWork [] := hgone.atWork.congr rfl
        obtain ⟨s', hrun, hnobody, hreturned⟩ := hwoken.returns (hwake.sound hs) get?_waits_wait
        exact ⟨s', hwake.trans hrun, hnobody, iff_of_true hreturned rfl⟩
      · exact ⟨s₂, hrun₂, hgone.atWork, iff_of_false (not_returned_of_sleep hasleep) hjs₂⟩

/-- **A wait for a crew is a wait of the tally**, with as many jobs at work before and after it as
the crew has in hand, and over just if the crew says so. -/
theorem AtWork.drainWithin {J P S : Type} {k : Craft J P S} {w : Crew J P × S} {js : List Nat}
    (h : s.AtWork js) (hs : Sound b s) (hb : b.Wakes) (hlen : js.length = w.1.inflight) {v : Nat}
    (hv : s.waits.get? v = none) (time : Nat) :
    ∃ s' js', Run b s s' ∧ s'.AtWork js' ∧ js'.length = (k.drainWithin time w).2.1.inflight ∧
      (s'.Returned v ↔ (k.drainWithin time w).1 = true) := by
  have hle : (k.drainWithin time w).2.1.inflight ≤ js.length :=
    hlen ▸ Craft.inflight_drainWithin_le time
  generalize hm : (k.drainWithin time w).2.1.inflight = m at hle
  rw [← List.take_append_drop (js.length - m) js] at h
  obtain ⟨s', hrun, hatWork, hreturned⟩ := h.wait hs hb hv
  have hdrop : (js.drop (js.length - m)).length = m := by
    rw [List.length_drop]
    omega
  refine ⟨s', _, hrun, hatWork, hdrop, hreturned.trans ?_⟩
  rw [Craft.drainWithin_fst_iff, hm, ← List.length_eq_zero_iff, hdrop]

end Tally

end Popularity
