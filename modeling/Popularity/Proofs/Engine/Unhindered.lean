import Popularity.Proofs.Cache.Upkeep
import Popularity.Proofs.Engine.Replies

/-!
# The engine without troubles

Where no troubles are laid, with the cache in memory or none at all, no operation takes any time.
Jobs that are waiting are done in their order as soon as they are started, and nothing is ever
running. So a scene is known from the clock, the jobs that are waiting, the store and the cache, and
what an act makes of it can be computed.

## Main definitions

* `Unhindered` — a scene without troubles
* `keptUp` — a cache, if there is one, after some jobs

## Main results

* `Unhindered.settle`, `Unhindered.drain`, `Unhindered.sleep`
* `Unhindered.cache`, `Unhindered.bounded`, `Unhindered.request`, `Unhindered.marks`
* `Unhindered.aside`, `Unhindered.settled`
-/

namespace Popularity

variable {S α : Type} {limit now : Nat} {us : List Upkeep} {l : S} {c : Option Cache}
  {s : Scene S (Option Cache)}

/-- A scene without troubles, where nothing is running. -/
def Unhindered (limit now : Nat) (us : List Upkeep) (l : S) (c : Option Cache)
    (s : Scene S (Option Cache)) : Prop :=
  ∃ steps reports, s = ({ limit, now, waiting := us, running := [] },
    { store := l, cache := c, steps, reports })

/-- What jobs make of a cache, if there is one. -/
def keptUp (now : Nat) (us : List Upkeep) (c : Option Cache) : Option Cache :=
  c.map (Cache.upkept now us)

@[simp] theorem keptUp_nil : keptUp now [] c = c := by cases c <;> rfl

theorem keptUp_append {us' : List Upkeep} :
    keptUp now (us ++ us') c = keptUp now us' (keptUp now us c) := by
  cases c with
  | none => rfl
  | some c => exact congrArg some Cache.upkept_append

theorem keptUp_cons {u : Upkeep} : keptUp now (u :: us) c = keptUp now us (keptUp now [u] c) := by
  rw [← keptUp_append, List.singleton_append]

theorem Cache.work_snd (now : Nat) (o : Op) (c : Option Cache) :
    (Cache.work now o c).1.2 = c.map fun c => (c.exec now o).2 := by
  cases c <;> rfl

namespace Unhindered

/-- Reports make no difference. -/
theorem tell (h : Unhindered limit now us l c s) (rs : List Report) :
    Unhindered limit now us l c (s.1, s.2.tell rs) := by
  obtain ⟨steps, reports, rfl⟩ := h
  exact ⟨_, _, rfl⟩

theorem leave (h : Unhindered limit now us l c s) (u : Upkeep) :
    Unhindered limit now (us ++ [u]) l c (s.1.leave u, s.2) := by
  obtain ⟨steps, reports, rfl⟩ := h
  exact ⟨_, _, rfl⟩

/-! ### The crew -/

/-- What is left of a job that was started is done. -/
theorem finish (now : Nat) (u : Upkeep) (l : S) (c : Option Cache) (steps : List Step)
    (reports : List Report) : ∃ ending reports',
      World.upkeep.finish now ⟨u, none⟩ { store := l, cache := c, steps, reports } =
        (ending, { store := l, cache := keptUp now [u] c, steps, reports := reports' }) := by
  have hkept : (Cache.work now u.op c).1.2 = keptUp now [u] c := Cache.work_snd now u.op c
  rw [← hkept]
  simp only [World.upkeep, World.finishUpkeep, World.work, CacheKind.work]
  rcases Cache.work now u.op c with ⟨⟨crash | a, c'⟩, rs⟩
  · exact ⟨_, _, rfl⟩
  · exact ⟨_, _, rfl⟩

/-- A job is done as soon as it is started. -/
theorem begin_ (h : Unhindered limit now us l c s) (u : Upkeep) :
    Unhindered limit now us l (keptUp now [u] c) (World.upkeep.begin_ s u) := by
  obtain ⟨steps, reports, rfl⟩ := h
  obtain ⟨ending, reports', hfinish⟩ := finish now u l c (steps ++ [.cache u.op]) reports
  have hstart : World.upkeep.start now u { store := l, cache := c, steps, reports } =
      ((some 0, ⟨u, none⟩), { store := l, cache := c, steps := steps ++ [.cache u.op], reports }) :=
    rfl
  refine ⟨steps ++ [.cache u.op], reports' ++ ending.reports u.name, ?_⟩
  rw [Craft.begin_of_start hstart]
  dsimp only
  rw [hfinish]
  rfl

theorem settle (h : Unhindered limit now us l c s) :
    Unhindered limit now [] l (keptUp now us c) (World.upkeep.settle s) := by
  obtain ⟨steps, reports, rfl⟩ := h
  have hfold : ∀ us c s, Unhindered limit now [] l c s →
      Unhindered limit now [] l (keptUp now us c) (us.foldl World.upkeep.begin_ s) := by
    intro us
    induction us with
    | nil => intro c s h; simpa using h
    | cons u us ih => intro c s h; rw [keptUp_cons]; exact ih _ _ (h.begin_ u)
  rw [Craft.settle_of_running_eq_nil rfl]
  exact hfold us c _ ⟨steps, reports, rfl⟩

theorem drain (h : Unhindered limit now us l c s) :
    Unhindered limit now [] l (keptUp now us c) (World.upkeep.drain s) := by
  obtain ⟨steps, reports, heq⟩ := h.settle
  exact ⟨steps, reports, by rw [Craft.drain, heq, Craft.reachAll_of_running_eq_nil rfl]⟩

/-- Nothing happens while time passes, if nothing is waiting. -/
theorem sleep (h : Unhindered limit now [] l c s) (time : Nat) :
    Unhindered limit (now + time) [] l c (World.upkeep.sleep time s) := by
  obtain ⟨steps, reports, rfl⟩ := h
  unfold Craft.sleep
  split
  next h => subst h; exact ⟨steps, reports, rfl⟩
  next =>
    rw [Craft.settle_of_running_eq_nil rfl]
    refine ⟨steps, reports, ?_⟩
    dsimp only [List.foldl_nil]
    rw [Craft.reachAll_of_running_eq_nil rfl]

/-! ### The cache -/

/-- An operation of the cache is done at once. -/
theorem work (h : Unhindered limit now us l c s) (o : Cache.Op) : ∃ s',
    (Action.work o).play s = (.ok <$> (Cache.work now o c).1.1, s') ∧
      Unhindered limit now us l (c.map fun c => (c.exec now o).2) s' := by
  obtain ⟨steps, reports, rfl⟩ := h
  rw [← Cache.work_snd]
  exact ⟨_, Act.play_work o, _, _, rfl⟩

theorem met (h : Unhindered limit now us l c s) (o : Cache.Op) :
    Unhindered limit now us l c (Act.met o s) := by
  obtain ⟨steps, reports, rfl⟩ := h
  exact ⟨_, _, rfl⟩

theorem cache (h : Unhindered limit now us l c s) (o : Cache.Op) : ∃ s',
    (Action.cache o).play s = (.ok <$> (Cache.work now o c).1.1, s') ∧
      Unhindered limit now us l (c.map fun c => (c.exec now o).2) s' := by
  obtain ⟨s', hwork, hs'⟩ := (h.met o).work o
  obtain ⟨steps, reports, rfl⟩ := h
  exact ⟨s', hwork, hs'⟩

theorem bounded (h : Unhindered limit now us l c s) (o : Cache.Op) : ∃ s',
    (Action.bounded o).play s = (.answered <$> (Cache.work now o c).1.1, s') ∧
      Unhindered limit now us l (c.map fun c => (c.exec now o).2) s' := by
  obtain ⟨s', hwork, hs'⟩ := (h.met o).work o
  have hplay : (Action.bounded o).play s = (.ofResult <$> Action.work o : Act S _ _).play
      (Act.met o s) := by
    obtain ⟨steps, reports, rfl⟩ := h
    rfl
  refine ⟨s', ?_, hs'⟩
  rw [hplay, Act.play_map, hwork]
  rcases (Cache.work now o c).1.1 with crash | a <;> rfl

/-! ### The store -/

/-- No trouble is met. -/
theorem meet (h : Unhindered limit now us l c s) (r : Request) : ∃ s',
    (Site.meet r : Act S (Option Cache) _).play s = (.ok none, s') ∧
      Unhindered limit now us l c s' := by
  obtain ⟨steps, reports, rfl⟩ := h
  exact ⟨_, rfl, _, _, rfl⟩

/-- A wait for no time is none. -/
theorem play_sleep_of_eq_zero {time : Nat} (h : time = 0) :
    (Action.sleep time : Act S (Option Cache) Unit).play s = (.ok (), s) := by
  rw [h, Act.play_sleep, Craft.sleep_zero]

/-- Jobs may be done on the way. -/
theorem carry (h : Unhindered limit now us l c s) (site : Site S) (r : Request) : ∃ us' c' s',
    (site.carry r none).play s = (.ok (site.answer r l).1, s') ∧
      Unhindered limit now us' (site.answer r l).2 c' s' ∧
      us' <:+ us ∧ keptUp now us' c' = keptUp now us c := by
  unfold Site.carry
  cases site.remote with
  | false =>
    obtain ⟨steps, reports, rfl⟩ := h
    exact ⟨us, c, _, rfl, ⟨_, _, rfl⟩, List.suffix_rfl, rfl⟩
  | true =>
    obtain ⟨steps, reports, heq⟩ := h.settle
    refine ⟨[], keptUp now us c, _, ?_, ⟨steps, reports, rfl⟩, List.nil_suffix, keptUp_nil⟩
    rw [if_pos rfl, Act.play_bind_ok Act.play_settle, heq]
    rfl

/-- A request is answered at once. -/
theorem request (h : Unhindered limit now [] l c s) (site : Site S) (r : Request) : ∃ s',
    (site.request r).play s = (.ok (site.answer r l).1, s') ∧
      Unhindered limit now [] (site.answer r l).2 c s' := by
  obtain ⟨s₁, h₁, hs₁⟩ := h.meet r
  obtain ⟨us, c', s₂, h₂, hs₂, hnil, hkept⟩ := hs₁.carry site r
  obtain rfl : us = [] := List.suffix_nil.mp hnil
  obtain rfl : c' = c := by simpa using hkept
  refine ⟨s₂, ?_, hs₂⟩
  have hsleep : (Action.sleep (StoreTrouble.time none)).play s₁ = (.ok (), s₁) :=
    play_sleep_of_eq_zero rfl
  rw [Site.request, Act.play_bind_ok h₁, Act.play_bind_ok hsleep, h₂]

theorem marks (h : Unhindered limit now us l c s) (site : Registry S) (i : Item) (user : Int64) :
    ∃ us' c' s', (site.marks i user).play s = (.ok ((site.answer (.marked .like i user) l).1,
        (site.answer (.marked .collection i user) l).1), s') ∧
      Unhindered limit now us' l c' s' ∧ keptUp now us' c' = keptUp now us c := by
  obtain ⟨s₁, h₁, hs₁⟩ := h.meet (.marked .like i user)
  obtain ⟨s₂, h₂, hs₂⟩ := hs₁.meet (.marked .collection i user)
  obtain ⟨us₃, c₃, s₃, h₃, hs₃, -, hkept₃⟩ := hs₂.carry site.toSite (.marked .like i user)
  rw [site.answer_lookup _ _ (by simp)] at hs₃
  obtain ⟨us₄, c₄, s₄, h₄, hs₄, -, hkept₄⟩ := hs₃.carry site.toSite (.marked .collection i user)
  rw [site.answer_lookup _ _ (by simp)] at hs₄
  refine ⟨us₄, c₄, s₄, ?_, hs₄, hkept₄.trans hkept₃⟩
  have hsleep : (Action.sleep (max (StoreTrouble.time none) (StoreTrouble.time none))).play s₂ =
      (.ok (), s₂) :=
    play_sleep_of_eq_zero rfl
  rw [Site.marks, Act.play_bind_ok h₁, Act.play_bind_ok h₂, Act.play_bind_ok hsleep,
    Act.play_bind_ok h₃, Act.play_bind_ok h₄]
  rfl

/-! ### Calls -/

/-- What only leaves jobs and reports leaves the jobs that are due. -/
theorem aside (h : Unhindered limit now us l c s) (site : Site S) {r : Except CallFailure α}
    {d : Dialogue Call.Query Call.Query.Answer (Except CallFailure α)}
    (hd : d.Meets (fun q => q.isAside = true) (fun _ _ => True) (· = r)) : ∃ s',
    (Dialogue.run site.reply d).play s = (.ok r, s') ∧
      Unhindered limit now (us ++ Call.due d) l c s' := by
  obtain ⟨rs, hplay⟩ := site.play_aside hd s
  obtain ⟨steps, reports, rfl⟩ := h
  exact ⟨_, hplay, _, _, rfl⟩

/-- What awaits an adjustment ends when it is made, and nothing is left to do. -/
theorem awaited (h : Unhindered limit now [] l c s) (site : Site S) {a : Adjustment}
    {r : Except CallFailure α} {next : Bounded Adjusted → _} {out : Adjusted}
    (hnext : ∀ b, (next b).Meets (fun q => q.isAside = true) (fun _ _ => True) (· = r))
    (hdutiful : Call.Dutiful (.ask (.adjust a) next))
    (hout : (Cache.work now a.op c).1.1 = .ok out) : ∃ s',
      (Dialogue.run site.reply (.ask (.adjust a) next)).play s = (.ok r, s') ∧
        Unhindered limit now [] l (keptUp now [.adjust a] c) s' := by
  obtain ⟨s₁, h₁, hs₁⟩ := h.bounded a.op
  have hreply : (site.reply (.adjust a)).play s = (.ok (.answered out), s₁) := by
    rw [hout] at h₁
    exact h₁
  obtain ⟨s₂, h₂, hs₂⟩ := hs₁.aside site (hnext (.answered out))
  rw [(hdutiful (.answered out)).1 rfl] at hs₂
  exact ⟨s₂, (Site.play_run_ask hreply).trans h₂, hs₂⟩

/-- What is settled ends as it is settled, and sees to the jobs that are due. -/
theorem settled (h : Unhindered limit now [] l c s) (site : Site S) {awaits : Bool}
    {r : Except CallFailure α} {d : Dialogue Call.Query Call.Query.Answer (Except CallFailure α)}
    (hd : Call.Settled awaits r d) (hdutiful : Call.Dutiful d)
    (hok : ∀ a, Call.due d = [.adjust a] → ∃ out, (Cache.work now a.op c).1.1 = .ok out) :
    ∃ us c' s', (Dialogue.run site.reply d).play s = (.ok r, s') ∧
      Unhindered limit now us l c' s' ∧ keptUp now us c' = keptUp now (Call.due d) c := by
  rcases hd with hd | ⟨-, a, next, rfl, hd⟩
  · obtain ⟨s', hplay, hs'⟩ := h.aside site hd
    exact ⟨_, c, s', hplay, hs', rfl⟩
  · obtain ⟨out, hout⟩ := hok a rfl
    obtain ⟨s', hplay, hs'⟩ := h.awaited site hd hdutiful hout
    exact ⟨[], _, s', hplay, hs', keptUp_nil⟩

end Unhindered

end Popularity
