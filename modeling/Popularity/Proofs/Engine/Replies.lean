import Popularity.Proofs.Engine.Steady
import Popularity.Proofs.Registry
import Popularity.Proofs.Service.Settled

/-!
# How the engine answers

What the store answers, and what it becomes, depends on the store and the trouble in its way, and on
nothing else: not on the cache, the crew or the clock. A request takes the time of its trouble. Jobs
are left and reports are passed on at once.

So a call that only leaves jobs and reports ends where it began, with some more jobs waiting; and so
does a call that is settled, except that it may have waited for the cache.

## Main definitions

* `Site.respond` — the answer of a store whose trouble is known
* `Reached` — a scene after requests to the store

## Main results

* `Site.play_request`, `Site.play_marks`
* `Site.play_call_bind`
* `Site.play_aside`, `Site.play_settled`
-/

namespace Popularity

variable {S C α : Type}

/-! ### Requests -/

/-- What a store answers, and what it becomes, when the trouble of a request is known. -/
def Site.respond (site : Site S) (trouble : Option StoreTrouble) (r : Request) (l : S) :
    Except StoreFailure r.Answer × S :=
  match trouble with
  | some (.fail why) => (.error why, l)
  | _ => site.answer r l

/-- A scene after requests: the store, the troubles that are left, and the time taken. -/
structure Reached (s s' : Scene S C) (store : S) (troubles : List (String × StoreTrouble))
    (time : Nat) : Prop where
  store_eq : s'.2.store = store
  storeTroubles_eq : s'.2.storeTroubles = troubles
  limit_eq : s'.1.limit = s.1.limit
  now_eq : s'.1.now = s.1.now + time

namespace Reached

variable {s s' s'' : Scene S C} {store store' : S}
  {troubles troubles' : List (String × StoreTrouble)} {time time' : Nat}

theorem trans (h : Reached s s' store troubles time) (h' : Reached s' s'' store' troubles' time') :
    Reached s s'' store' troubles' (time + time') where
  store_eq := h'.store_eq
  storeTroubles_eq := h'.storeTroubles_eq
  limit_eq := h'.limit_eq.trans h.limit_eq
  now_eq := by rw [h'.now_eq, h.now_eq, Nat.add_assoc]

theorem of_steady (h : Steady s s') (hnow : s'.1.now = s.1.now + time) :
    Reached s s' s.2.store s.2.storeTroubles time :=
  ⟨h.store_eq, h.storeTroubles_eq, h.limit_eq, hnow⟩

end Reached

namespace Site

variable {s : Scene S C}

open Act

theorem play_meet (r : Request) : ∃ s', (Site.meet r : Act S C _).play s =
    (.ok (takeFirst r.method s.2.storeTroubles).1, s') ∧
      Reached s s' s.2.store (takeFirst r.method s.2.storeTroubles).2 0 :=
  ⟨_, rfl, rfl, rfl, rfl, rfl⟩

variable [CacheKind C]

theorem play_sleep (time : Nat) : ∃ s', (Action.sleep time : Act S C Unit).play s = (.ok (), s') ∧
    Reached s s' s.2.store s.2.storeTroubles time :=
  ⟨_, Act.play_sleep time, .of_steady steady_sleep (Craft.sleep_now time)⟩

/-- Whatever the crew does on the way, the store is asked as it was. -/
theorem play_carry (site : Site S) (r : Request) (trouble : Option StoreTrouble) (s : Scene S C) :
    ∃ s', (site.carry r trouble).play s = (.ok (site.respond trouble r s.2.store).1, s') ∧
      Reached s s' (site.respond trouble r s.2.store).2 s.2.storeTroubles 0 := by
  have hsettle := steady_settle (s := s)
  have hstore := hsettle.store_eq
  have hreached : ∃ s', (site.carry r none).play s = (.ok (site.answer r s.2.store).1, s') ∧
      Reached s s' (site.answer r s.2.store).2 s.2.storeTroubles 0 := by
    unfold carry
    cases site.remote with
    | false => exact ⟨_, rfl, rfl, rfl, rfl, rfl⟩
    | true =>
      rw [← hstore]
      exact ⟨_, rfl, rfl, hsettle.storeTroubles_eq, hsettle.limit_eq, Craft.settle_now⟩
  rcases trouble with _ | time | why
  · exact hreached
  · exact hreached
  · exact ⟨s, rfl, rfl, rfl, rfl, rfl⟩

/-- **A request** is answered by the store as it is, and takes the time of its trouble. -/
theorem play_request (site : Site S) (r : Request) (s : Scene S C) :
    ∃ s', (site.request r).play s =
      (.ok (site.respond (takeFirst r.method s.2.storeTroubles).1 r s.2.store).1, s') ∧
      Reached s s' (site.respond (takeFirst r.method s.2.storeTroubles).1 r s.2.store).2
        (takeFirst r.method s.2.storeTroubles).2
        (StoreTrouble.time (takeFirst r.method s.2.storeTroubles).1) := by
  obtain ⟨s₁, h₁, hr₁⟩ := play_meet (s := s) r
  obtain ⟨s₂, h₂, hr₂⟩ := play_sleep (s := s₁)
    (StoreTrouble.time (takeFirst r.method s.2.storeTroubles).1)
  obtain ⟨s₃, h₃, hr₃⟩ := play_carry site r (takeFirst r.method s.2.storeTroubles).1 s₂
  rw [hr₂.store_eq, hr₁.store_eq] at h₃ hr₃
  rw [hr₂.storeTroubles_eq, hr₁.storeTroubles_eq] at hr₃
  refine ⟨s₃, ?_, ?_⟩
  · rw [Site.request, play_bind_ok h₁, play_bind_ok h₂, h₃]
  · simpa using (hr₁.trans hr₂).trans hr₃

/-- Both marks of a user: two requests that wait at the same time. -/
theorem play_marks (site : Site S) (i : Item) (user : Int64) (s : Scene S C) :
    let first := takeFirst (Request.marked .like i user).method s.2.storeTroubles
    let second := takeFirst (Request.marked .collection i user).method first.2
    let liked := site.respond first.1 (.marked .like i user) s.2.store
    let collected := site.respond second.1 (.marked .collection i user) liked.2
    ∃ s', (site.marks i user).play s = (.ok (liked.1, collected.1), s') ∧
      Reached s s' collected.2 second.2
        (max (StoreTrouble.time first.1) (StoreTrouble.time second.1)) := by
  intro first second liked collected
  obtain ⟨s₁, h₁, hr₁⟩ := play_meet (s := s) (.marked .like i user)
  obtain ⟨s₂, h₂, hr₂⟩ := play_meet (s := s₁) (.marked .collection i user)
  rw [hr₁.storeTroubles_eq] at h₂ hr₂
  obtain ⟨s₃, h₃, hr₃⟩ := play_sleep (s := s₂)
    (max (StoreTrouble.time first.1) (StoreTrouble.time second.1))
  obtain ⟨s₄, h₄, hr₄⟩ := play_carry site (.marked .like i user) first.1 s₃
  obtain ⟨s₅, h₅, hr₅⟩ := play_carry site (.marked .collection i user) second.1 s₄
  rw [hr₃.store_eq, hr₂.store_eq, hr₁.store_eq] at h₄ hr₄
  rw [hr₄.store_eq] at h₅ hr₅
  rw [hr₄.storeTroubles_eq, hr₃.storeTroubles_eq, hr₂.storeTroubles_eq] at hr₅
  refine ⟨s₅, ?_, ?_⟩
  · rw [Site.marks, play_bind_ok h₁, play_bind_ok h₂, play_bind_ok h₃, play_bind_ok h₄,
      play_bind_ok h₅]
    rfl
  · simpa using (((hr₁.trans hr₂).trans hr₃).trans hr₄).trans hr₅

/-- A lookup leaves a store that keeps its promises as it is, in trouble or not. -/
theorem respond_lookup (site : Registry S) (trouble : Option StoreTrouble) {r : Request} (l : S)
    (hr : ∀ w, r ≠ .write w) : (site.respond trouble r l).2 = l := by
  rcases trouble with _ | time | why
  · exact site.answer_lookup r l hr
  · exact site.answer_lookup r l hr
  · rfl

/-! ### Dialogues -/

@[simp] theorem play_run_done (site : Site S) (a : α) (s : Scene S C) :
    (Dialogue.run site.reply (.done a) : Act S C α).play s = (.ok a, s) := rfl

theorem play_run_ask {site : Site S} {q : Call.Query} {next : q.Answer → Dialogue _ _ α}
    {x : q.Answer} {s s' : Scene S C} (h : (site.reply q).play s = (.ok x, s')) :
    (Dialogue.run site.reply (.ask q next) : Act S C α).play s =
      (Dialogue.run site.reply (next x)).play s' :=
  play_bind_ok h

/-- One dialogue after another. -/
theorem play_run_bind {β : Type} (site : Site S) (d : Dialogue Call.Query Call.Query.Answer α)
    (f : α → Dialogue Call.Query Call.Query.Answer β) (s : Scene S C) :
    (Dialogue.run site.reply (d >>= f)).play s = match (Dialogue.run site.reply d).play s with
      | (.ok a, s) => (Dialogue.run site.reply (f a)).play s
      | (.error crash, s) => (.error crash, s) := by
  induction d generalizing s with
  | done a => rfl
  | ask q next ih =>
    change (site.reply q >>= fun x => Dialogue.run site.reply (next x >>= f)).play s = _
    rw [Dialogue.run, play_bind, play_bind]
    rcases (site.reply q).play s with ⟨crash | x, s'⟩
    · rfl
    · exact ih x s'

/-- One call after another: a failure ends both, and so does a crash. -/
theorem play_call_bind {β : Type} (site : Site S) (c : Call α) (f : α → Call β) (s : Scene S C) :
    (site.call (c >>= f)).play s = match (site.call c).play s with
      | (.ok (.ok a), s) => (site.call (f a)).play s
      | (.ok (.error why), s) => (.ok (.error why), s)
      | (.error crash, s) => (.error crash, s) := by
  rw [call, ExceptT.run_bind, play_run_bind, call]
  rcases (Dialogue.run site.reply c.run).play s with ⟨crash | why | a, s'⟩ <;> rfl

theorem play_call_map {β : Type} (site : Site S) (c : Call α) (f : α → β) (s : Scene S C) :
    (site.call (f <$> c)).play s = ((f <$> ·) <$> site.call c).play s := by
  rw [← bind_pure_comp, play_call_bind, play_map]
  rcases (site.call c).play s with ⟨crash | why | a, s'⟩ <;> rfl

/-- What no answer can break holds until the end, or until a crash. -/
theorem run_induction {site : Site S} {asks : Call.Query → Prop} {motive : Scene S C → Prop}
    (hreply : ∀ q s, asks q → motive s → motive ((site.reply q).play s).2)
    {d : Dialogue Call.Query Call.Query.Answer α}
    (hd : d.Meets asks (fun _ _ => True) (fun _ => True)) {s : Scene S C} (hs : motive s) :
    motive ((Dialogue.run site.reply d : Act S C α).play s).2 := by
  induction d generalizing s with
  | done a => exact hs
  | ask q next ih =>
    have hs' := hreply q s hd.1 hs
    change motive ((site.reply q >>= fun x => Dialogue.run site.reply (next x)).play s).2
    rw [play_bind]
    generalize (site.reply q).play s = played at hs'
    rcases played with ⟨crash | x, s'⟩
    · exact hs'
    · exact ih x (hd.2 x trivial) hs'

/-- What asks no write of a store that keeps its promises leaves it as it is. -/
theorem store_run (site : Registry S)
    {d : Dialogue Call.Query Call.Query.Answer α}
    (hd : d.Meets (fun q => ∀ w, q ≠ .store (.write w)) (fun _ _ => True) (fun _ => True))
    (s : Scene S C) :
    ((Dialogue.run site.reply d : Act S C α).play s).2.2.store = s.2.store := by
  refine run_induction (motive := fun s' => s'.2.store = s.2.store) ?_ hd rfl
  intro q s' hq hs'
  refine Eq.trans ?_ hs'
  cases q with
  | store r =>
    obtain ⟨s₁, h, hr⟩ := play_request site.toSite r s'
    change ((site.request r).play s').2.2.store = _
    rw [h, hr.store_eq]
    exact respond_lookup site _ _ fun w hw => hq w (congrArg _ hw)
  | marks i user =>
    obtain ⟨s₁, h, hr⟩ := play_marks site.toSite i user s'
    change ((site.marks i user).play s').2.2.store = _
    rw [h, hr.store_eq, respond_lookup site _ _ (by simp), respond_lookup site _ _ (by simp)]
  | cached i => exact (steady_cache (.get i)).store_eq
  | adjust a => exact (steady_bounded a.op).store_eq
  | detach u => rfl
  | report r => rfl

/-- Nothing changes the limit of jobs. -/
theorem limit_run (site : Site S) (d : Dialogue Call.Query Call.Query.Answer α) (s : Scene S C) :
    ((Dialogue.run site.reply d : Act S C α).play s).2.1.limit = s.1.limit := by
  refine run_induction (motive := fun s' => s'.1.limit = s.1.limit)
    (fun q s' _ hs' => Eq.trans ?_ hs') d.meets_true rfl
  cases q with
  | store r =>
    obtain ⟨s₁, h, hr⟩ := play_request site r s'
    change ((site.request r).play s').2.1.limit = _
    rw [h, hr.limit_eq]
  | marks i user =>
    obtain ⟨s₁, h, hr⟩ := play_marks site i user s'
    change ((site.marks i user).play s').2.1.limit = _
    rw [h, hr.limit_eq]
  | cached i => exact (steady_cache (.get i)).limit_eq
  | adjust a => exact (steady_bounded a.op).limit_eq
  | detach u => rfl
  | report r => rfl

/-- What only leaves jobs and reports ends where it began, with some more jobs waiting. -/
theorem play_aside (site : Site S) {r : Except CallFailure α}
    {d : Dialogue Call.Query Call.Query.Answer (Except CallFailure α)}
    (hd : d.Meets (fun q => q.isAside = true) (fun _ _ => True) (· = r)) (s : Scene S C) :
    ∃ rs, (Dialogue.run site.reply d).play s = (.ok r,
      { s.1 with waiting := s.1.waiting ++ Call.due d }, s.2.tell rs) := by
  induction d generalizing s with
  | done a =>
    obtain rfl : a = r := hd
    exact ⟨[], by simp [World.tell]⟩
  | ask q next ih =>
    obtain ⟨hq, hnext⟩ := hd
    cases q with
    | detach u =>
      obtain ⟨rs, h⟩ := ih () (hnext () trivial) (s.1.leave u, s.2)
      refine ⟨rs, (play_run_ask rfl).trans (h.trans ?_)⟩
      simp [Crew.leave]
    | report e =>
      obtain ⟨rs, h⟩ := ih () (hnext () trivial) (s.1, s.2.tell [e])
      refine ⟨e :: rs, (play_run_ask rfl).trans (h.trans ?_)⟩
      simp [World.tell]
    | store | marks | cached | adjust => cases hq

end Site

/-! ### Calls with a calm cache -/

namespace Site

variable [CalmCache C]

open Act

/-- What is settled ends as it is settled. The store is let alone, and no time passes but that of an
adjustment that is awaited. -/
theorem play_settled (site : Site S) {awaits : Bool} {r : Except CallFailure α}
    {d : Dialogue Call.Query Call.Query.Answer (Except CallFailure α)}
    (hd : Call.Settled awaits r d) (s : Scene S C) : ∃ s',
      (Dialogue.run site.reply d).play s = (.ok r, s') ∧ Steady s s' ∧
      s'.1.now ≤ s.1.now + s.1.limit ∧ (awaits = false → s'.1.now = s.1.now) := by
  rcases hd with hd | ⟨rfl, a, next, rfl, hd⟩
  · obtain ⟨rs, h⟩ := play_aside site hd s
    exact ⟨_, h, ⟨⟨rfl, rfl⟩, rfl⟩, Nat.le_add_right .., fun _ => rfl⟩
  · obtain ⟨b, hb⟩ := bounded_ok (s := s) a.op
    obtain ⟨rs, h⟩ := play_aside site (hd b) ((Action.bounded a.op : Act S C _).play s).2
    have hsteady := steady_bounded (s := s) a.op
    have hreply : (site.reply (.adjust a)).play s = (.ok b, ((Action.bounded a.op).play s).2) :=
      Prod.ext hb rfl
    exact ⟨_, (play_run_ask hreply).trans h,
      ⟨⟨hsteady.store_eq, hsteady.storeTroubles_eq⟩, hsteady.limit_eq⟩, bounded_now a.op, nofun⟩

end Site

end Popularity
