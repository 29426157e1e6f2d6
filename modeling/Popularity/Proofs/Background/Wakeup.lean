import Popularity.Proofs.Background.Tally

/-!
# No wakeup is lost

Between the moment in which a wait looks at the count and the moment in which it goes to sleep, the
last job may leave and ring. Nothing is lost by that, since the wait took its ticket before it
looked. So whoever sleeps has a ticket for which the bell has been rung, or else somebody will ring:
there is a job that is counted, or one that has just found itself the last.

That is what every step keeps, together with what the count is. All that a step can be is said once,
by `Tally.Turn`: a step of a party that is at a stage of its program is one of ten.

## Main definitions

* `Tally.JobStage`, `Tally.WaitStage` — how far a party can be
* `Tally.Sound` — what holds in every state that is reached
* `Tally.Turn`

## Main results

* `Tally.Step.turn`, `Tally.Turn.sound`, `Tally.Run.sound`
* `Tally.Run.wakes` — the count is the number of guards, nobody returns too early, nobody sleeps on
-/

namespace Popularity

namespace Bell

variable {N T : Type} {b : Bell N T} {n : N} {t : T}

/-- A ticket has been handed out. -/
def Issued (b : Bell N T) (n : N) (t : T) : Prop :=
  ∃ n₀ us, t = (b.listen n₀).1 ∧ n = b.after (b.listen n₀).2 us

/-- The bell has been rung since a ticket was handed out. -/
def Rung (b : Bell N T) (n : N) (t : T) : Prop :=
  ∃ n₀ us, .ring ∈ us ∧ t = (b.listen n₀).1 ∧ n = b.after (b.listen n₀).2 us

theorem issued_listen (b : Bell N T) (n : N) : b.Issued (b.listen n).2 (b.listen n).1 :=
  ⟨n, [], rfl, rfl⟩

theorem Issued.exec (h : b.Issued n t) (u : Use) : b.Issued (b.exec n u) t := by
  obtain ⟨n₀, us, rfl, rfl⟩ := h
  exact ⟨n₀, us ++ [u], rfl, (b.after_concat _ us u).symm⟩

theorem Issued.ring (h : b.Issued n t) : b.Rung (b.ring n) t := by
  obtain ⟨n₀, us, rfl, rfl⟩ := h
  refine ⟨n₀, us ++ [.ring], by simp, rfl, ?_⟩
  rw [after_concat]
  rfl

theorem Rung.exec (h : b.Rung n t) (u : Use) : b.Rung (b.exec n u) t := by
  obtain ⟨n₀, us, hring, rfl, rfl⟩ := h
  exact ⟨n₀, us ++ [u], List.mem_append_left _ hring, rfl, (b.after_concat _ us u).symm⟩

theorem Rung.heard (h : b.Rung n t) (hb : b.Wakes) : b.heard n t = true := by
  obtain ⟨n₀, us, hring, rfl, rfl⟩ := h
  exact hb n₀ us hring

end Bell

namespace Tally

variable {N T : Type} {b : Bell N T} {s s' : Tally N T}

/-! ### Stages -/

/-- How far a job can be. -/
inductive JobStage : Party T Unit → Prop
  | coming : JobStage stay
  | working : JobStage labour
  | leaving : JobStage depart
  | ringing : JobStage (ask .ring)
  | gone : JobStage (pure ())

/-- Somebody will ring. -/
def Awake (s : Tally N T) : Prop := s.count ≠ 0 ∨ ∃ j, s.Ringing j

/-- How far a wait can be, and what it may rely on there. -/
inductive WaitStage (b : Bell N T) (s : Tally N T) : Party T Bool → Prop
  | coming : WaitStage b s round
  | looking (t : T) (h : b.Issued s.bell t) : WaitStage b s (look t)
  | sleeping (t : T) (h : b.Issued s.bell t) (hring : b.Rung s.bell t ∨ s.Awake) :
    WaitStage b s (sleep t)
  | done (isOver : Bool) : WaitStage b s (pure isOver)

theorem jobStage_ringIfLast (n : UInt64) : JobStage (ringIfLast n : Party T Unit) := by
  unfold ringIfLast
  split
  · exact .ringing
  · exact .gone

theorem guarded_ringIfLast (n : UInt64) : guarded (ringIfLast n : Party T Unit) = false := by
  unfold ringIfLast
  split <;> rfl

/-- A job that is counted holds a handle. -/
theorem finished_eq_false_of_guarded {d : Party T Unit} (h : guarded d = true) :
    finished d = false := by
  cases d with
  | done => cases h
  | ask => rfl

theorem rings_or_finished_ringIfLast (n : UInt64) :
    rings (ringIfLast n : Party T Unit) = true ∨ finished (ringIfLast n : Party T Unit) = true := by
  unfold ringIfLast
  split
  · exact .inl rfl
  · exact .inr rfl

/-- What holds in every state that is reached. -/
structure Sound (b : Bell N T) (s : Tally N T) : Prop where
  job : ∀ {j d}, s.jobs.get? j = some d → JobStage d
  wait : ∀ {w d}, s.waits.get? w = some d → WaitStage b s d
  count : s.count.toNat = s.guards
  room : s.handles ≤ 2 ^ 63

/-! ### Turns -/

/-- All that a step can be. -/
inductive Turn (b : Bell N T) (s : Tally N T) : Tally N T → Prop
  | spawn (j : Nat) (hj : s.jobs.get? j = none) (hroom : s.handles < 2 ^ 63) :
    Turn b s (s.job j stay)
  | enter (j : Nat) (hj : s.jobs.get? j = some stay) :
    Turn b s ({ s with count := s.count + 1 }.job j labour)
  | work (j : Nat) (hj : s.jobs.get? j = some labour) : Turn b s (s.job j depart)
  | leave (j : Nat) (hj : s.jobs.get? j = some depart) :
    Turn b s ({ s with count := s.count - 1 }.job j (ringIfLast s.count))
  | ring (j : Nat) (hj : s.jobs.get? j = some (ask .ring)) :
    Turn b s ({ s with bell := b.ring s.bell }.job j (pure ()))
  | call (w : Nat) (hw : s.waits.get? w = none) : Turn b s (s.wait w round)
  | listen (w : Nat) (hw : s.waits.get? w = some round) :
    Turn b s ({ s with bell := (b.listen s.bell).2 }.wait w (look (b.listen s.bell).1))
  | load (w : Nat) (t : T) (hw : s.waits.get? w = some (look t)) (ht : b.Issued s.bell t) :
    Turn b s (s.wait w (if s.count = 0 then pure true else sleep t))
  | wake (w : Nat) (t : T) (hw : s.waits.get? w = some (sleep t)) (ht : b.heard s.bell t = true) :
    Turn b s (s.wait w (pure false))
  | again (w : Nat) (hw : s.waits.get? w = some (pure false)) : Turn b s (s.wait w round)

/-- A job that is answered is at one of its stages. -/
theorem turn_of_hearJob {j : Nat} {q : Query T} {a : q.Answer} {next : q.Answer → Party T Unit}
    (hj : s.jobs.get? j = some (.ask q next)) (hd : JobStage (.ask q next))
    (hr : Replies b s q a s') : Turn b s (s'.job j (next a)) := by
  generalize heq : (Dialogue.ask q next : Party T Unit) = d at hd
  cases hd with
  | coming =>
    obtain ⟨rfl, hnext⟩ := Dialogue.ask.inj heq
    cases hr
    cases hnext
    exact .enter j hj
  | working =>
    obtain ⟨rfl, hnext⟩ := Dialogue.ask.inj heq
    cases hr
    cases hnext
    exact .work j hj
  | leaving =>
    obtain ⟨rfl, hnext⟩ := Dialogue.ask.inj heq
    cases hr
    cases hnext
    exact .leave j hj
  | ringing =>
    obtain ⟨rfl, hnext⟩ := Dialogue.ask.inj heq
    cases hr
    cases hnext
    exact .ring j hj
  | gone => cases heq

/-- A wait that is answered is at one of its stages. -/
theorem turn_of_hearWait {w : Nat} {q : Query T} {a : q.Answer} {next : q.Answer → Party T Bool}
    (hw : s.waits.get? w = some (.ask q next)) (hd : WaitStage b s (.ask q next))
    (hr : Replies b s q a s') : Turn b s (s'.wait w (next a)) := by
  generalize heq : (Dialogue.ask q next : Party T Bool) = d at hd
  cases hd with
  | coming =>
    obtain ⟨rfl, hnext⟩ := Dialogue.ask.inj heq
    cases hr
    cases hnext
    exact .listen w hw
  | looking t ht =>
    obtain ⟨rfl, hnext⟩ := Dialogue.ask.inj heq
    cases hr
    cases hnext
    exact .load w t hw ht
  | sleeping t =>
    obtain ⟨rfl, hnext⟩ := Dialogue.ask.inj heq
    cases hr
    cases hnext
    exact .wake w t hw ‹_›
  | done => cases heq

theorem Step.turn (h : Step b s s') (hs : Sound b s) : Turn b s s' := by
  cases h with
  | spawn j hj hroom => exact .spawn j hj hroom
  | call w hw => exact .call w hw
  | hearJob hj hr => exact turn_of_hearJob hj (hs.job hj) hr
  | hearWait hw hr => exact turn_of_hearWait hw (hs.wait hw) hr
  | again hw => exact .again _ hw

/-- Every turn can be taken. -/
theorem Turn.step (h : Turn b s s') : Step b s s' := by
  cases h with
  | spawn j hj hroom => exact .spawn s j hj hroom
  | enter j hj => exact .hearJob hj .enter
  | work j hj => exact .hearJob hj (.work (.ended .ok))
  | leave j hj => exact .hearJob hj .leave
  | ring j hj => exact .hearJob hj .ring
  | call w hw => exact .call s w hw
  | listen w hw => exact .hearWait hw .listen
  | load w t hw => exact .hearWait hw .load
  | wake w t hw ht => exact .hearWait hw (.await t ht)
  | again w hw => exact .again hw

/-! ### Counting -/

theorem toNat_eq_ite (b : Bool) : b.toNat = if b = true then 1 else 0 := by
  cases b <;> rfl

/-- How a job that moves changes the number of jobs of a sort. -/
theorem countP_job (p : Party T Unit → Bool) {j : Nat} {d₀ : Party T Unit}
    (h : s.jobs.get? j = some d₀) (d : Party T Unit) :
    ((s.job j d).jobs.countP fun r => p r.2) + (p d₀).toNat
      = (s.jobs.countP fun r => p r.2) + (p d).toNat := by
  have hput := Table.countP_put (fun r : Nat × Party T Unit => p r.2) s.jobs j d
  rw [h] at hput
  simpa only [jobs_job, Option.elim_some, toNat_eq_ite] using hput

theorem countP_job_of_none (p : Party T Unit → Bool) {j : Nat} (h : s.jobs.get? j = none)
    (d : Party T Unit) :
    ((s.job j d).jobs.countP fun r => p r.2) = (s.jobs.countP fun r => p r.2) + (p d).toNat := by
  have hput := Table.countP_put (fun r : Nat × Party T Unit => p r.2) s.jobs j d
  rw [h] at hput
  simpa only [jobs_job, Option.elim_none, Nat.add_zero, toNat_eq_ite] using hput

theorem guards_job {j : Nat} {d₀ : Party T Unit} (h : s.jobs.get? j = some d₀)
    (d : Party T Unit) : (s.job j d).guards + (guarded d₀).toNat = s.guards + (guarded d).toNat :=
  countP_job guarded h d

theorem handles_job {j : Nat} {d₀ : Party T Unit} (h : s.jobs.get? j = some d₀)
    (d : Party T Unit) :
    (s.job j d).handles + (!finished d₀).toNat = s.handles + (!finished d).toNat :=
  countP_job (fun d => !finished d) h d

theorem guards_le_handles (s : Tally N T) : s.guards ≤ s.handles :=
  List.countP_mono_left fun r _ h => by simp [finished_eq_false_of_guarded h]

theorem guards_pos {j : Nat} {d : Party T Unit} (h : s.jobs.get? j = some d)
    (hd : guarded d = true) : 0 < s.guards :=
  List.countP_pos_iff.mpr ⟨(j, d), Table.mem_of_get?_eq_some h, hd⟩

/-- While there is a guard, the count is not zero. -/
theorem count_ne_zero {j : Nat} {d : Party T Unit} (hcount : s.count.toNat = s.guards)
    (h : s.jobs.get? j = some d) (hd : guarded d = true) : s.count ≠ 0 := by
  intro hzero
  have hpos := guards_pos h hd
  rw [← hcount, hzero] at hpos
  exact Nat.lt_irrefl 0 hpos

/-- No job takes a handle but at its start. -/
theorem Turn.room (h : Turn b s s') (hs : s.handles ≤ 2 ^ 63) : s'.handles ≤ 2 ^ 63 := by
  cases h with
  | spawn j hj hroom =>
    have hjob := countP_job_of_none (fun d => !finished d) hj stay
    exact Nat.le_trans (Nat.le_of_eq hjob) hroom
  | enter j hj => exact Nat.add_right_cancel (handles_job hj labour) ▸ hs
  | work j hj => exact Nat.add_right_cancel (handles_job hj depart) ▸ hs
  | leave j hj =>
    have hjob := handles_job hj (ringIfLast s.count)
    have hle : (!finished (ringIfLast s.count : Party T Unit)).toNat ≤ 1 := Bool.toNat_le _
    have hone : (!finished (depart : Party T Unit)).toNat = 1 := rfl
    change (s.job j (ringIfLast s.count)).handles ≤ 2 ^ 63
    omega
  | ring j hj =>
    have hjob := handles_job hj (pure ())
    have hone : (!finished (ask .ring : Party T Unit)).toNat = 1 := rfl
    have hzero : (!finished (pure () : Party T Unit)).toNat = 0 := rfl
    change (s.job j (pure ())).handles ≤ 2 ^ 63
    omega
  | call | listen | load | wake | again => exact hs

/-- The count goes up and down with the guards, and never beyond the range of a word. -/
theorem Turn.count (h : Turn b s s') (hs : s.count.toNat = s.guards) (hroom : s.handles ≤ 2 ^ 63) :
    s'.count.toNat = s'.guards := by
  cases h with
  | spawn j hj => exact hs.trans (countP_job_of_none guarded hj stay).symm
  | enter j hj =>
    have hjob : (s.job j labour).guards = s.guards + 1 := guards_job hj labour
    have hhandles : (s.job j labour).handles = s.handles :=
      Nat.add_right_cancel (handles_job hj labour)
    have hle := guards_le_handles (s.job j labour)
    change (s.count + 1).toNat = (s.job j labour).guards
    rw [UInt64.toNat_add, hs, hjob]
    exact Nat.mod_eq_of_lt (by rw [UInt64.toNat_one]; omega)
  | work j hj => exact hs.trans (Nat.add_right_cancel (guards_job hj depart)).symm
  | leave j hj =>
    have hjob := guards_job hj (ringIfLast s.count)
    rw [guarded_ringIfLast] at hjob
    have hpos : 0 < s.guards := guards_pos hj rfl
    have hle : (1 : UInt64) ≤ s.count := by
      rw [UInt64.le_iff_toNat_le, hs]
      exact hpos
    change (s.count - 1).toNat = (s.job j (ringIfLast s.count)).guards
    rw [UInt64.toNat_sub_of_le _ _ hle, hs, UInt64.toNat_one]
    exact Nat.sub_eq_of_eq_add hjob.symm
  | ring j hj => exact hs.trans (Nat.add_right_cancel (guards_job hj (pure ()))).symm
  | call | listen | load | wake | again => exact hs

/-! ### What every turn keeps -/

/-- A job that has moved is at a stage, if it was put at one. -/
theorem job_of_put {d₀ : Party T Unit} {j : Nat} (hd₀ : JobStage d₀)
    (hs : ∀ {j d}, s.jobs.get? j = some d → JobStage d) {j' : Nat} {d : Party T Unit}
    (h : (s.jobs.put j d₀).get? j' = some d) : JobStage d := by
  obtain ⟨-, rfl⟩ | ⟨-, h⟩ := Table.get?_put_eq_some h
  · exact hd₀
  · exact hs h

theorem Turn.job (h : Turn b s s') (hs : ∀ {j d}, s.jobs.get? j = some d → JobStage d) {j : Nat}
    {d : Party T Unit} (hd : s'.jobs.get? j = some d) : JobStage d := by
  cases h with
  | spawn => exact job_of_put .coming hs hd
  | enter => exact job_of_put .working hs hd
  | work => exact job_of_put .leaving hs hd
  | leave => exact job_of_put (jobStage_ringIfLast _) hs hd
  | ring => exact job_of_put .gone hs hd
  | call | listen | load | wake | again => exact hs hd

/-- A new job rings for nobody else. -/
theorem Awake.spawn (h : s.Awake) {j : Nat} (hj : s.jobs.get? j = none) (d : Party T Unit) :
    (s.job j d).Awake := by
  refine h.imp_right fun ⟨j', d', hd', hrings⟩ => ⟨j', d', ?_, hrings⟩
  have hne : j' ≠ j := by
    rintro rfl
    rw [hj] at hd'
    cases hd'
  rw [jobs_job, Table.get?_put, if_neg (by simpa using hne)]
  exact hd'

/-- The last one to leave rings. -/
theorem awake_leave {j : Nat} (hcount : s.count.toNat = s.guards)
    (hj : s.jobs.get? j = some depart) :
    ({ s with count := s.count - 1 }.job j (ringIfLast s.count)).Awake := by
  by_cases hone : s.count = 1
  · refine .inr ⟨j, ringIfLast s.count, get?_jobs_job, ?_⟩
    rw [hone]
    rfl
  · refine .inl fun hzero => ?_
    have hne : s.count ≠ 0 := count_ne_zero hcount hj rfl
    have hle : (1 : UInt64) ≤ s.count := by
      rw [UInt64.le_iff_toNat_le]
      exact Nat.pos_of_ne_zero fun h => hne (UInt64.toNat_inj.mp h)
    have hsub : (s.count - 1).toNat = s.count.toNat - 1 := UInt64.toNat_sub_of_le _ _ hle
    have hzero' : (s.count - 1).toNat = 0 := congrArg UInt64.toNat hzero
    refine hone (UInt64.toNat_inj.mp ?_)
    rw [UInt64.le_iff_toNat_le, UInt64.toNat_one] at hle
    rw [UInt64.toNat_one]
    omega

/-- Whoever sleeps will be woken, also after the turn. -/
theorem Turn.woken (h : Turn b s s') (hs : Sound b s) {t : T} (ht : b.Issued s.bell t)
    (hring : b.Rung s.bell t ∨ s.Awake) : b.Rung s'.bell t ∨ s'.Awake := by
  have hcount := h.count hs.count hs.room
  cases h with
  | spawn j hj => exact hring.imp_right fun h => h.spawn hj stay
  | enter j => exact .inr (.inl (count_ne_zero hcount (j := j) get?_jobs_job rfl))
  | work j => exact .inr (.inl (count_ne_zero hcount (j := j) get?_jobs_job rfl))
  | leave j hj => exact .inr (awake_leave hs.count hj)
  | ring => exact .inl ht.ring
  | listen => exact hring.imp_left fun h => h.exec .listen
  | call | load | wake | again => exact hring

/-- A ticket stays good. -/
theorem Turn.issued (h : Turn b s s') {t : T} (ht : b.Issued s.bell t) : b.Issued s'.bell t := by
  cases h with
  | ring => exact ht.exec .ring
  | listen => exact ht.exec .listen
  | spawn | enter | work | leave | call | load | wake | again => exact ht

/-- A wait that stays where it is may still rely on what it relied on. -/
theorem WaitStage.turn {d : Party T Bool} (hd : WaitStage b s d) (hs : Sound b s)
    (h : Turn b s s') : WaitStage b s' d := by
  cases hd with
  | coming => exact .coming
  | looking t ht => exact .looking t (h.issued ht)
  | sleeping t ht hring => exact .sleeping t (h.issued ht) (h.woken hs ht hring)
  | done isOver => exact .done isOver

/-- A wait that looks at the count goes to sleep only if there is somebody to ring. -/
theorem waitStage_look {t : T} (ht : b.Issued s.bell t) :
    WaitStage b s (if s.count = 0 then pure true else sleep t) := by
  split
  next => exact .done true
  next hcount => exact .sleeping t ht (.inr (.inl hcount))

theorem wait_of_put {d₀ : Party T Bool} {w : Nat} (hd₀ : WaitStage b s' d₀)
    (hs : ∀ {w d}, s.waits.get? w = some d → WaitStage b s' d) {w' : Nat} {d : Party T Bool}
    (h : (s.waits.put w d₀).get? w' = some d) : WaitStage b s' d := by
  obtain ⟨-, rfl⟩ | ⟨-, h⟩ := Table.get?_put_eq_some h
  · exact hd₀
  · exact hs h

theorem Turn.wait (h : Turn b s s') (hs : Sound b s) {w : Nat} {d : Party T Bool}
    (hd : s'.waits.get? w = some d) : WaitStage b s' d := by
  have hold : ∀ {w d}, s.waits.get? w = some d → WaitStage b s' d := fun hd =>
    (hs.wait hd).turn hs h
  cases h with
  | spawn | enter | work | leave | ring => exact hold hd
  | call | again => exact wait_of_put .coming hold hd
  | listen => exact wait_of_put (.looking _ (b.issued_listen s.bell)) hold hd
  | load w t hw ht => exact wait_of_put (waitStage_look (s := s.wait w _) ht) hold hd
  | wake => exact wait_of_put (.done false) hold hd

theorem Turn.sound (h : Turn b s s') (hs : Sound b s) : Sound b s' where
  job := h.job hs.job
  wait := h.wait hs
  count := h.count hs.count hs.room
  room := h.room hs.room

theorem sound_opening (n : N) : Sound b (opening n) where
  job h := nomatch h
  wait h := nomatch h
  count := rfl
  room := Nat.zero_le _

theorem Run.sound (h : Run b s s') (hs : Sound b s) : Sound b s' := by
  induction h with
  | refl => exact hs
  | tail _ hstep ih => exact (hstep.turn ih).sound ih

/-! ### The end of a wait -/

/-- A job that has counted itself in does not go back. -/
theorem Spawned.job {j j' : Nat} {d : Party T Unit} (hj : s.Spawned j)
    (hd : j = j' → guarded d = true ∨ rings d = true ∨ finished d = true) :
    (s.job j' d).Spawned j := by
  obtain ⟨d', hd', hbegun⟩ := hj
  by_cases h : j = j'
  · subst h
    exact ⟨d, get?_jobs_job, hd rfl⟩
  · refine ⟨d', ?_, hbegun⟩
    rw [jobs_job, Table.get?_put, if_neg (by simpa using h)]
    exact hd'

theorem Spawned.turn {j : Nat} (hj : s.Spawned j) (h : Turn b s s') : s'.Spawned j := by
  cases h with
  | spawn j' hj' =>
    refine hj.job fun heq => ?_
    obtain ⟨d, hd, -⟩ := hj
    rw [heq, hj'] at hd
    cases hd
  | enter => exact Spawned.job hj fun _ => .inl rfl
  | work => exact hj.job fun _ => .inl rfl
  | leave => exact Spawned.job hj fun _ => .inr (rings_or_finished_ringIfLast _)
  | ring => exact Spawned.job hj fun _ => .inr (.inr rfl)
  | call | listen | load | wake | again => exact hj

theorem Spawned.run {j : Nat} (hj : s.Spawned j) (h : Run b s s') (hs : Sound b s) :
    s'.Spawned j := by
  induction h with
  | refl => exact hj
  | tail hrun hstep ih => exact ih.turn (hstep.turn (Run.sound hrun hs))

/-- A wait that has just come to its end is the one that has moved. -/
theorem eq_done_of_returned {w w' : Nat} {d : Party T Bool} (hbefore : ¬ s.Returned w)
    (hafter : (s.wait w' d).Returned w) : d = .done true := by
  obtain ⟨-, heq⟩ | ⟨-, h⟩ := Table.get?_put_eq_some hafter
  · exact heq.symm
  · exact absurd h hbefore

/-- A wait is over in the moment in which it finds nobody counted. -/
theorem Turn.count_eq_zero {w : Nat} (h : Turn b s s') (hbefore : ¬ s.Returned w)
    (hafter : s'.Returned w) : s'.count = 0 := by
  cases h with
  | spawn | enter | work | leave | ring => exact absurd hafter hbefore
  | call | again => exact nomatch eq_done_of_returned hbefore hafter
  | listen => exact nomatch eq_done_of_returned (s := { s with bell := _ }) hbefore hafter
  | load w' t =>
    have hdone := eq_done_of_returned hbefore hafter
    by_cases hcount : s.count = 0
    · exact hcount
    · rw [if_neg hcount] at hdone
      cases hdone
  | wake => cases eq_done_of_returned hbefore hafter

/-- Where nobody is counted, every job that was left has come to its end. -/
theorem Spawned.ended {j : Nat} (hj : s.Spawned j) (hs : Sound b s) (hzero : s.count = 0) :
    s.Ended j := by
  obtain ⟨d, hd, hguarded | hend⟩ := hj
  · exact absurd hzero (count_ne_zero hs.count hd hguarded)
  · exact ⟨d, hd, hend⟩

/-- Whoever awaits a ticket that has not been rung for has somebody to ring. -/
theorem Blocked.awake {w : Nat} (h : s.Blocked b w) (hs : Sound b s) (hb : b.Wakes) :
    s.Awake := by
  obtain ⟨t, next, hw, hheard⟩ := h
  have hd := hs.wait hw
  generalize heq : (Dialogue.ask (.await t) next : Party T Bool) = d at hd
  cases hd with
  | coming | looking | done => cases heq
  | sleeping t' ht hring =>
    obtain ⟨hq, -⟩ := Dialogue.ask.inj heq
    cases hq
    refine hring.resolve_left fun hrung => ?_
    rw [hrung.heard hb] at hheard
    cases hheard

/-- **The count is the number of guards, a wait is over only when every job that was left before it
has come to its end, and nobody sleeps on.** The count never goes below zero: a job that is about to
leave finds itself counted. While somebody sleeps without having been rung for, the count is not
zero or there is a ring to come. -/
theorem Run.wakes (hb : b.Wakes) {n : N} (h : Run b (opening n) s) :
    s.count.toNat = s.guards ∧
      (∀ j next, s.jobs.get? j = some (.ask .leave next) → s.count ≠ 0) ∧
      (∀ w s₂ s₃, s.waits.get? w = none → Run b s s₂ → Step b s₂ s₃ → ¬ s₂.Returned w →
        s₃.Returned w → ∀ j, s.Spawned j → s₃.Ended j) ∧
      ¬ (s.count = 0 ∧ (∀ j, ¬ s.Ringing j) ∧ ∃ w, s.Blocked b w) := by
  have hs : Sound b s := h.sound (sound_opening n)
  refine ⟨hs.count, fun j next hj => count_ne_zero hs.count hj rfl, ?_, ?_⟩
  · intro w s₂ s₃ _ hrun hstep hbefore hafter j hj
    have hs₂ : Sound b s₂ := Run.sound hrun hs
    have hturn : Turn b s₂ s₃ := hstep.turn hs₂
    have hspawned : s₃.Spawned j := (hj.run hrun hs).turn hturn
    exact hspawned.ended (hturn.sound hs₂) (hturn.count_eq_zero hbefore hafter)
  · rintro ⟨hcount, hringing, w, hw⟩
    obtain hne | ⟨j, hj⟩ := hw.awake hs hb
    · exact hne hcount
    · exact hringing j hj

/-- A job is at work, and nobody waits for it. -/
def busy : Tally Nat Nat := ⟨1, 0, [(0, labour)], []⟩

/-- A wait has seen the job, and has still to await its ticket. -/
def drowsy : Tally Nat Nat := ⟨1, 0, [(0, labour)], [(0, sleep 0)]⟩

/-- The job has left and rung meanwhile. The wait has gone on at once, and has a new ticket. -/
def overtaken : Tally Nat Nat := ⟨0, 1, [(0, pure ())], [(0, look 1)]⟩

/-- The wait has found nobody and is over. -/
def relieved : Tally Nat Nat := ⟨0, 1, [(0, pure ())], [(0, pure true)]⟩

/-- A job leaves, and rings, after a wait has looked at the count and before it awaits its ticket;
the wait is over when it looks again. -/
theorem wakes_overtaken : Run Bell.counted (opening 0) busy ∧ busy.Spawned 0 ∧ ¬ busy.Ended 0 ∧
    Run Bell.counted busy overtaken ∧ Step Bell.counted overtaken relieved ∧ relieved.Returned 0 ∧
      relieved.Ended 0 := by
  have hbusy : Run Bell.counted (opening 0) busy :=
    .head (Turn.step (.spawn 0 rfl (by decide))) <| .head (Turn.step (.enter 0 rfl)) .refl
  have hlook : Run Bell.counted busy drowsy :=
    .head (Turn.step (.call 0 rfl)) <| .head (Turn.step (.listen 0 rfl)) <|
      .head (Turn.step (.load 0 0 rfl ⟨0, [], rfl, rfl⟩)) .refl
  have hleave : Run Bell.counted drowsy overtaken :=
    .head (Turn.step (.work 0 rfl)) <| .head (Turn.step (.leave 0 rfl)) <|
      .head (Turn.step (.ring 0 rfl)) <| .head (Turn.step (.wake 0 0 rfl rfl)) <|
      .head (Turn.step (.again 0 rfl)) <| .head (Turn.step (.listen 0 rfl)) .refl
  have hstep : Step Bell.counted overtaken relieved :=
    Turn.step (.load 0 1 rfl ⟨1, [], rfl, rfl⟩)
  have hspawned : busy.Spawned 0 := ⟨labour, rfl, .inl rfl⟩
  have hearly : ¬ busy.Ended 0 := by
    rintro ⟨d, hd, hend⟩
    cases hd
    exact hend.elim nofun nofun
  have hbefore : ¬ overtaken.Returned 0 := nofun
  have hended := (Run.wakes Bell.counted_wakes hbusy).2.2.1 0 overtaken relieved rfl
    (hlook.trans hleave) hstep hbefore rfl 0 hspawned
  exact ⟨hbusy, hspawned, hearly, hlook.trans hleave, hstep, rfl, hended⟩

end Tally

end Popularity
