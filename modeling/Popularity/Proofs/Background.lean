import Popularity.Background

/-!
# Crews at work

What ways to wait have in common. They do nothing but end jobs and start jobs, so what no ending and
no start can break still holds when the wait is over. The clock is only ever moved forward, to the
due times of jobs or to the end of the wait, and a wait for some time takes just that time.

## Main definitions

* `Craft.Keeps` — a property of the state that no job can break
* `Craft.Timely` — no job under way needs more time than the limit

## Main results

* `Craft.reachAll_induction`, `Craft.settle_induction`
* `Craft.settle_now`, `Craft.sleep_now`
* `Craft.Keeps.settle`, `Craft.Keeps.sleep`
* `Craft.Timely.drain_now_le`, `Craft.Timely.drainWithin_eq`
-/

namespace Popularity.Craft

variable {J P S : Type} {k : Craft J P S} {w : Crew J P × S} {p : S → Prop}
variable {motive : Crew J P × S → Prop}

/-! ### Induction over jobs -/

/-- Jobs are ended one by one. -/
theorem reachAll_induction {isDue : Task P → Bool}
    (hstart : motive ({ w.1 with running := w.1.running.filter fun t => !isDue t }, w.2))
    (hreach : ∀ w' t, t ∈ w.1.running → isDue t = true → motive w' → motive (k.reach w' t)) :
    motive (k.reachAll isDue w) := by
  refine List.foldlRecOn _ _ hstart ?_
  intro w' hw' t ht
  obtain ⟨hmem, hdue⟩ := List.mem_filter.mp (List.mem_mergeSort.mp ht)
  exact hreach w' t hmem hdue hw'

/-- Jobs that are due are ended one by one, and then jobs are started one by one. -/
theorem settle_induction
    (hstart : motive ({ w.1 with running := w.1.running.filter fun t => !decide (t.due ≤ w.1.now) },
      w.2))
    (hreach : ∀ w' t, t ∈ w.1.running → t.due ≤ w.1.now → motive w' → motive (k.reach w' t))
    (hwaiting : ∀ w', motive w' → motive ({ w'.1 with waiting := [] }, w'.2))
    (hbegin : ∀ w' j, motive w' → motive (k.begin_ w' j)) : motive (k.settle w) := by
  have hdue : motive (k.reachAll (fun t => t.due ≤ w.1.now) w) :=
    reachAll_induction hstart fun w' t hmem ht => hreach w' t hmem (of_decide_eq_true ht)
  exact List.foldlRecOn _ _ (hwaiting _ hdue) fun w' hw' j _ => hbegin w' j hw'

theorem reachAll_congr {isDue isDue' : Task P → Bool}
    (h : ∀ t ∈ w.1.running, isDue t = isDue' t) : k.reachAll isDue w = k.reachAll isDue' w := by
  have hothers : (w.1.running.filter fun t => !isDue t) = w.1.running.filter fun t => !isDue' t :=
    List.filter_congr fun t ht => congrArg (!·) (h t ht)
  unfold reachAll
  rw [List.filter_congr h, hothers]

/-- Where nothing is running there is nothing to end. -/
theorem reachAll_of_running_eq_nil {isDue : Task P → Bool} (h : w.1.running = []) :
    k.reachAll isDue w = w := by
  obtain ⟨⟨limit, now, waiting, running⟩, s⟩ := w
  subst h
  simp [reachAll]

/-- Then jobs are only started. -/
theorem settle_of_running_eq_nil (h : w.1.running = []) :
    k.settle w = w.1.waiting.foldl k.begin_ ({ w.1 with waiting := [] }, w.2) := by
  rw [settle, reachAll_of_running_eq_nil h]

/-- A job that needs no time is at its end when it is started. -/
theorem begin_of_start {j : J} {rest : P} {s : S}
    (h : k.start w.1.now j w.2 = ((some 0, rest), s)) : k.begin_ w j = (w.1,
      k.tell ((k.finish w.1.now rest s).1.reports (k.name j)) (k.finish w.1.now rest s).2) := by
  have htask : w.1.task (k.name j) (some 0) rest = ⟨k.name j, w.1.now, true, rest⟩ := by
    simp [Crew.task]
  unfold begin_
  rw [h]
  dsimp only
  rw [htask, if_pos (Nat.le_refl _)]
  rfl

/-! ### The jobs in hand -/

theorem waiting_reachAll (isDue : Task P → Bool) :
    (k.reachAll isDue w).1.waiting = w.1.waiting :=
  reachAll_induction (motive := fun w' => w'.1.waiting = w.1.waiting) rfl fun _ _ _ _ h => h

theorem running_reachAll (isDue : Task P → Bool) :
    (k.reachAll isDue w).1.running = w.1.running.filter fun t => !isDue t :=
  reachAll_induction
    (motive := fun w' => w'.1.running = w.1.running.filter fun t => !isDue t) rfl fun _ _ _ _ h => h

@[simp] theorem begin_waiting (j : J) : (k.begin_ w j).1.waiting = w.1.waiting := by
  unfold begin_
  dsimp only
  split <;> rfl

/-- Jobs that could be started are. -/
theorem settle_waiting : (k.settle w).1.waiting = [] :=
  List.foldlRecOn _ _ (motive := fun w' : Crew J P × S => w'.1.waiting = []) rfl
    fun _ h j _ => (begin_waiting j).trans h

/-- A wait leaves no job in hand. -/
theorem inflight_drain : (k.drain w).1.inflight = 0 := by
  rw [drain, Crew.inflight, waiting_reachAll, settle_waiting, running_reachAll]
  simp

/-- Where no job is in hand there is nothing to wait for. -/
theorem drain_of_inflight_eq_zero (h : w.1.inflight = 0) : k.drain w = w := by
  obtain ⟨hwaiting, hrunning⟩ := Nat.add_eq_zero_iff.mp h
  have hsettle : k.settle w = w := by
    rw [settle_of_running_eq_nil (List.length_eq_zero_iff.mp hrunning),
      List.length_eq_zero_iff.mp hwaiting, List.foldl_nil, ← List.length_eq_zero_iff.mp hwaiting]
  rw [drain, hsettle, reachAll_of_running_eq_nil (List.length_eq_zero_iff.mp hrunning)]

/-! ### The clock -/

@[simp] theorem reach_now (t : Task P) : (k.reach w t).1.now = max w.1.now t.due := rfl

theorem le_reachAll_now (isDue : Task P → Bool) : w.1.now ≤ (k.reachAll isDue w).1.now :=
  reachAll_induction (motive := fun w' => w.1.now ≤ w'.1.now) (Nat.le_refl _)
    fun _ _ _ _ h => Nat.le_trans h (Nat.le_max_left _ _)

theorem reachAll_now_le {isDue : Task P → Bool} {time : Nat} (hnow : w.1.now ≤ time)
    (h : ∀ t ∈ w.1.running, isDue t = true → t.due ≤ time) :
    (k.reachAll isDue w).1.now ≤ time :=
  reachAll_induction (motive := fun w' => w'.1.now ≤ time) hnow
    fun _ t ht hdue hw' => Nat.max_le.mpr ⟨hw', h t ht hdue⟩

@[simp] theorem begin_now (j : J) : (k.begin_ w j).1.now = w.1.now := by
  unfold begin_
  dsimp only
  split <;> rfl

@[simp] theorem settle_now : (k.settle w).1.now = w.1.now := by
  refine settle_induction (motive := fun w' => w'.1.now = w.1.now) rfl ?_
    (fun _ h => h) fun w' j h => (begin_now j).trans h
  intro w' t _ hdue h
  rw [reach_now, h, Nat.max_eq_left hdue]

@[simp] theorem sleep_now (time : Nat) : (k.sleep time w).1.now = w.1.now + time := by
  unfold sleep
  split
  next h => rw [h, Nat.add_zero]
  next => exact congrArg (· + time) settle_now

theorem sleep_zero : k.sleep 0 w = w := rfl

/-! ### The limit -/

@[simp] theorem begin_limit (j : J) : (k.begin_ w j).1.limit = w.1.limit := by
  unfold begin_
  dsimp only
  split <;> rfl

@[simp] theorem reachAll_limit (isDue : Task P → Bool) :
    (k.reachAll isDue w).1.limit = w.1.limit :=
  reachAll_induction (motive := fun w' => w'.1.limit = w.1.limit) rfl fun _ _ _ _ h => h

@[simp] theorem settle_limit : (k.settle w).1.limit = w.1.limit :=
  settle_induction (motive := fun w' => w'.1.limit = w.1.limit) rfl (fun _ _ _ _ h => h)
    (fun _ h => h) fun _ j h => (begin_limit j).trans h

@[simp] theorem sleep_limit (time : Nat) : (k.sleep time w).1.limit = w.1.limit := by
  unfold sleep
  split
  · rfl
  · exact (reachAll_limit _).trans settle_limit

/-! ### What jobs cannot break -/

/-- A property of the state that neither the start nor the end of a job can break. -/
structure Keeps (k : Craft J P S) (p : S → Prop) : Prop where
  start : ∀ now j s, p s → p (k.start now j s).2
  finish : ∀ now r s, p s → p (k.finish now r s).2
  tell : ∀ rs s, p s → p (k.tell rs s)

namespace Keeps

theorem conclude (hk : k.Keeps p) {limit now : Nat} {t : Task P} {s : S} (hs : p s) :
    p (k.conclude limit now t s) := by
  unfold Craft.conclude
  split
  · exact hk.tell _ _ (hk.finish _ _ _ hs)
  · exact hk.tell _ _ hs

theorem reachAll (hk : k.Keeps p) {isDue : Task P → Bool} (hw : p w.2) :
    p (k.reachAll isDue w).2 :=
  reachAll_induction (motive := fun w' => p w'.2) hw fun _ _ _ _ h => hk.conclude h

theorem begin_ (hk : k.Keeps p) {j : J} (hw : p w.2) : p (k.begin_ w j).2 := by
  have hs := hk.start w.1.now j w.2 hw
  unfold Craft.begin_
  dsimp only
  split
  · exact hk.conclude hs
  · exact hs

theorem settle (hk : k.Keeps p) (hw : p w.2) : p (k.settle w).2 :=
  settle_induction (motive := fun w' => p w'.2) hw (fun _ _ _ _ h => hk.conclude h) (fun _ h => h)
    fun _ _ h => hk.begin_ h

theorem sleep (hk : k.Keeps p) {time : Nat} (hw : p w.2) : p (k.sleep time w).2 := by
  unfold Craft.sleep
  split
  · exact hw
  · exact hk.reachAll (hk.settle hw)

end Keeps

/-! ### In time -/

/-- A job is due when the limit is over, at the latest. -/
theorem task_due_le (c : Crew J P) (name : String) (needs : Option Nat) (rest : P) :
    (c.task name needs rest).due ≤ c.now + c.limit := by
  unfold Crew.task
  split
  · split
    next h => exact Nat.add_le_add_left h _
    next => exact Nat.le_refl _
  · exact Nat.le_refl _

/-- No job under way needs more time than the limit. -/
def Timely (w : Crew J P × S) : Prop := ∀ t ∈ w.1.running, t.due ≤ w.1.now + w.1.limit

namespace Timely

theorem congr {w' : Crew J P × S} (h : Timely w) (hrunning : w'.1.running = w.1.running)
    (hnow : w.1.now ≤ w'.1.now) (hlimit : w'.1.limit = w.1.limit) : Timely w' := by
  intro t ht
  rw [hlimit]
  exact Nat.le_trans (h t (hrunning ▸ ht)) (Nat.add_le_add_right hnow _)

theorem filter (h : Timely w) (p : Task P → Bool) :
    Timely ({ w.1 with running := w.1.running.filter p }, w.2) :=
  fun t ht => h t (List.mem_filter.mp ht).1

theorem reach (h : Timely w) (t : Task P) : Timely (k.reach w t) :=
  h.congr rfl (Nat.le_max_left _ _) rfl

theorem reachAll (h : Timely w) (isDue : Task P → Bool) : Timely (k.reachAll isDue w) :=
  reachAll_induction (h.filter _) fun _ t _ _ h => h.reach t

theorem begin_ (h : Timely w) (j : J) : Timely (k.begin_ w j) := by
  unfold Craft.begin_
  dsimp only
  split
  · exact h.congr rfl (Nat.le_refl _) rfl
  · intro t ht
    obtain ht | ht := List.mem_append.mp ht
    · exact h t ht
    · exact List.mem_singleton.mp ht ▸ task_due_le _ _ _ _

theorem settle (h : Timely w) : Timely (k.settle w) :=
  settle_induction (h.filter _) (fun _ t _ _ h => h.reach t)
    (fun _ h => h.congr rfl (Nat.le_refl _) rfl) fun _ j h => h.begin_ j

theorem sleep (h : Timely w) (time : Nat) : Timely (k.sleep time w) := by
  unfold Craft.sleep
  split
  · exact h
  · refine (h.settle.reachAll fun t => t.due < _).congr rfl ?_ rfl
    exact reachAll_now_le (Nat.le_add_right _ _) fun t _ ht => Nat.le_of_lt (of_decide_eq_true ht)

/-- Then the last job ends before the limit is over. -/
theorem drain_now_le (h : Timely w) : (k.drain w).1.now ≤ w.1.now + w.1.limit := by
  have hsettle := h.settle (k := k)
  unfold Timely at hsettle
  rw [settle_now, settle_limit] at hsettle
  refine reachAll_now_le ?_ fun t ht _ => hsettle t ht
  rw [settle_now]
  exact Nat.le_add_right _ _

/-- **A wait for longer than the limit is a wait for all jobs.** -/
theorem drainWithin_eq (h : Timely w) {time : Nat} (htime : w.1.limit < time) :
    k.drainWithin time w = (true, k.drain w) := by
  unfold drainWithin
  split
  next hidle => rw [drain_of_inflight_eq_zero hidle]
  next =>
    have hsettle := h.settle (k := k)
    unfold Timely at hsettle
    rw [settle_now, settle_limit] at hsettle
    have hall : k.reachAll (fun t => t.due < w.1.now + time) (k.settle w) = k.drain w :=
      reachAll_congr fun t ht =>
        decide_eq_true (Nat.lt_of_le_of_lt (hsettle t ht) (Nat.add_lt_add_left htime _))
    rw [if_neg (Nat.ne_zero_of_lt htime)]
    dsimp only
    rw [settle_now, hall, if_pos inflight_drain]

end Timely

end Popularity.Craft
