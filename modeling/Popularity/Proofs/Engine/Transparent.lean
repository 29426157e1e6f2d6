import Popularity.Proofs.Cache.Upkeep
import Popularity.Proofs.Engine.Unhindered
import Popularity.Proofs.Service.Lookup

/-!
# The cache cannot be told from none

Where no troubles are laid and the crew is let finish after every call, a cache makes no difference
to what calls say. It is empty at the beginning, and so right; every call leaves the jobs that make
it right again after what the call did to the store; and when these are done it is right for the
next. What is found in it is then what the store would have said.

It does not matter when entries die or have to go, whether the clock can show the end of a life, or
what the store refuses. What matters is that the store is a `Registry`, one that moves the rows of
the items it is asked for, as the ledger does.

## Main definitions

* `Site.drained` — calls with a pause before each and the end of all jobs after it
* `Registry.Kept` — the cache will be right when the waiting jobs are done
* `Registry.Transparent` — a call with a cache beside the same call without

## Main results

* `Registry.right_upkept_owes` — what an answer owes makes the cache right again
* `Registry.drained_transparent`
-/

namespace Popularity

open Service

variable {S α : Type} {limit now : Nat} {l : S} {s : Scene S}

/-! ### Drained runs -/

/-- Makes calls one after another, each after a pause, and lets the crew finish after each. -/
def Site.drained (site : Site S) : List (Nat × Order) → Scene S →
    List (Except Crash (Except CallFailure Answer) × Scene S)
  | [], _ => []
  | (pause, o) :: os, s =>
    let x := (Action.thenIdle (site.call o.call)).play (World.upkeep.sleep pause s)
    x :: drained site os x.2

namespace Registry

variable {site : Registry S}

/-- A scene without troubles whose cache, if it has one, will be right when the waiting jobs are
done. -/
def Kept (site : Registry S) (limit now : Nat) (l : S) (cached : Bool) (s : Scene S) : Prop :=
  ∃ us c, Unhindered limit now us l c s ∧ c.isSome = cached ∧
    ∀ c' ∈ keptUp now us c, c'.Right (site.row l) now

/-- The same where no jobs are waiting. -/
def Tidy (site : Registry S) (limit now : Nat) (l : S) (cached : Bool) (s : Scene S) : Prop :=
  ∃ c, Unhindered limit now [] l c s ∧ c.isSome = cached ∧ ∀ c' ∈ c, c'.Right (site.row l) now

/-- A dialogue comes to a result with a store, and leaves it and the cache as good as they were. -/
def Yields (site : Registry S) (l : S) (d : Dialogue Call.Query Call.Query.Answer α) (r : α) :
    Prop :=
  ∀ limit now us c s, Unhindered limit now us l c s → ∃ us' c' s',
    (Dialogue.run site.reply d).play s = (.ok r, s') ∧ Unhindered limit now us' l c' s' ∧
      keptUp now us' c' = keptUp now us c

/-- What a call comes to with a cache, and without one. -/
structure Transparent (site : Registry S)
    (x y : Except Crash (Except CallFailure Answer) × Scene S) : Prop where
  result_eq : x.1 = y.1
  result_ok : ∃ r, x.1 = .ok r
  store_eq : x.2.2.store = y.2.2.store
  right : ∃ c, x.2.2.cache = some c ∧ c.Right (site.row x.2.2.store) x.2.1.now

/-! ### What an answer owes -/

/-- A write that changed nothing obliges to nothing. -/
theorem owes_of_ne {w : Write} (h : (site.answer (.write w) l).1 ≠ .ok true) :
    Call.Query.owes (.store (.write w)) (site.answer (.write w) l).1 = [] := by
  rcases ha : (site.answer (.write w) l).1 with why | b
  · rfl
  · cases b with
    | false => rfl
    | true => exact absurd ha h

/-- **What an answer owes makes the cache right again.** -/
theorem right_upkept_owes (site : Registry S) (q : Request) {c : Cache}
    (h : c.Right (site.row l) now) :
    (c.upkept now (Call.Query.owes (.store q) (site.answer q l).1)).Right
      (site.row (site.answer q l).2) now := by
  cases q with
  | write w =>
    by_cases hw : (site.answer (.write w) l).1 = .ok true
    · have howing := h.owing_of_moved (site.row_changed w l hw)
      rw [hw, Call.Query.owes_write]
      exact howing.upkept w.oneWay_adjustments
    · rw [site.row_unchanged w l hw, owes_of_ne hw]
      exact h
  | counts i =>
    rw [site.answer_counts]
    cases hrow : site.row l i with
    | none => exact h
    | some n => exact h.set hrow
  | countsOf kind ids =>
    rw [site.answer_lookup _ _ (by simp)]
    exact h
  | marked m i user =>
    rw [site.answer_lookup _ _ (by simp)]
    exact h

/-- An adjustment that is owed is made. -/
theorem work_of_owes (site : Registry S) (q : Request) {c : Option Cache} {a : Adjustment}
    (h : ∀ c' ∈ c, c'.Right (site.row l) now)
    (ha : Call.Query.owes (.store q) (site.answer q l).1 = [.adjust a]) :
    ∃ out, (Cache.work now a.op c).1.1 = .ok out := by
  cases c with
  | none => exact ⟨_, rfl⟩
  | some c =>
    cases q with
    | write w =>
      by_cases hw : (site.answer (.write w) l).1 = .ok true
      · rw [hw, Call.Query.owes_write] at ha
        obtain ⟨b, hb, hab⟩ := List.map_eq_singleton_iff.mp ha
        obtain rfl : b = a := Upkeep.adjust.inj hab
        have howing := (h c rfl).owing_of_moved (site.row_changed w l hw)
        have hway := w.oneWay_adjustments
        rw [hb] at howing hway
        exact howing.adjust_ok hway
      · rw [owes_of_ne hw] at ha
        cases ha
    | counts i =>
      rw [site.answer_counts] at ha
      cases hrow : site.row l i <;> rw [hrow] at ha <;> cases ha
    | countsOf kind ids => cases ha
    | marked m i user => cases ha

/-! ### Calls that are settled by the store -/

theorem Kept.of_keptUp {us us₀ : List Upkeep} {c c₀ : Option Cache}
    (h : Unhindered limit now us l c s) (heq : keptUp now us c = keptUp now us₀ c₀)
    (hright : ∀ c' ∈ keptUp now us₀ c₀, c'.Right (site.row l) now) :
    site.Kept limit now l c₀.isSome s := by
  refine ⟨us, c, h, ?_, heq ▸ hright⟩
  simpa [keptUp] using congrArg Option.isSome heq

theorem kept_call_of_not_looksUp (site : Registry S) {o : Order} (ho : o.looksUp = false) (l : S) :
    ∃ r l', ∀ {limit now c s}, Unhindered limit now [] l c s →
      (∀ c' ∈ c, c'.Right (site.row l) now) →
      ∃ s', (site.call o.call).play s = (.ok r, s') ∧ site.Kept limit now l' c.isSome s' := by
  rcases o.run_of_not_looksUp ho with ⟨-, r, hrun⟩ | ⟨q, next, settled, -, hrun, hnext⟩
  · refine ⟨r, l, ?_⟩
    intro limit now c s h hc
    have hplay : (site.call o.call).play s = (.ok r, s) := by
      rw [Site.call, hrun]
      rfl
    exact ⟨s, hplay, .of_keptUp h rfl (by simpa using hc)⟩
  · let x := site.answer q l
    have hdue : Call.due (next x.1) = Call.Query.owes (.store q) x.1 ∧ Call.Dutiful (next x.1) := by
      have h := o.dutiful_call
      rw [hrun] at h
      exact ⟨(h x.1).1 rfl, (h x.1).2⟩
    refine ⟨settled x.1, x.2, ?_⟩
    intro limit now c s h hc
    obtain ⟨s₁, h₁, hs₁⟩ := h.request site.toSite q
    have hreply : (site.reply (.store q)).play s = (.ok x.1, s₁) := h₁
    have hok : ∀ a, Call.due (next x.1) = [.adjust a] →
        ∃ out, (Cache.work now a.op c).1.1 = .ok out := by
      intro a ha
      rw [hdue.1] at ha
      exact site.work_of_owes q hc ha
    obtain ⟨us, c', s₂, h₂, hs₂, hkept⟩ := hs₁.settled site.toSite (hnext x.1) hdue.2 hok
    have hplay : (site.call o.call).play s = (.ok (settled x.1), s₂) := by
      rw [Site.call, hrun, Site.play_run_ask hreply, h₂]
    have hright : ∀ c₂ ∈ keptUp now (Call.due (next x.1)) c, c₂.Right (site.row x.2) now := by
      intro c₂ hc₂
      obtain ⟨c₁, hc₁, rfl⟩ := Option.map_eq_some_iff.mp hc₂
      rw [hdue.1]
      exact site.right_upkept_owes q (hc c₁ hc₁)
    exact ⟨s₂, hplay, .of_keptUp hs₂ hkept hright⟩

/-! ### Lookups -/

/-- Whoever only glances at the marks sees those of the store. -/
theorem exists_yields (site : Registry S) {ends : α → Prop}
    {d : Dialogue Call.Query Call.Query.Answer α}
    (hd : d.Meets (fun q => Lookup.isGlance q = true) (fun _ _ => True) ends) (l : S) :
    ∃ r, site.Yields l d r := by
  induction d with
  | done a => exact ⟨a, fun _ _ us c s h => ⟨us, c, s, rfl, h, rfl⟩⟩
  | ask q next ih =>
    obtain ⟨hq, hnext⟩ := hd
    cases q with
    | marks i user =>
      obtain ⟨r, hr⟩ := ih _ (hnext ((site.answer (.marked .like i user) l).1,
        (site.answer (.marked .collection i user) l).1) trivial)
      refine ⟨r, ?_⟩
      intro limit now us c s h
      obtain ⟨us₁, c₁, s₁, h₁, hs₁, hkept₁⟩ := h.marks site i user
      have hreply : (site.reply (.marks i user)).play s = _ := h₁
      obtain ⟨us₂, c₂, s₂, h₂, hs₂, hkept₂⟩ := hr limit now us₁ c₁ s₁ hs₁
      exact ⟨us₂, c₂, s₂, (Site.play_run_ask hreply).trans h₂, hs₂, hkept₂.trans hkept₁⟩
    | report e =>
      obtain ⟨r, hr⟩ := ih () (hnext () trivial)
      refine ⟨r, ?_⟩
      intro limit now us c s h
      have htell := h.tell [e]
      obtain ⟨us₂, c₂, s₂, h₂, hs₂, hkept₂⟩ := hr limit now us c _ htell
      exact ⟨us₂, c₂, s₂, (Site.play_run_ask rfl).trans h₂, hs₂, hkept₂⟩
    | store | cached | adjust | detach => cases hq

section Lookups

variable {i : Item} {f : Counts → Call α} {r : Counts → Except CallFailure α} {c : Option Cache}

/-- What the store says, for the cache to hold from then on. -/
theorem kept_fetch (site : Registry S) (hf : ∀ n, site.Yields l (f n).run (r n))
    (h : Unhindered limit now [] l c s) (hc : ∀ c' ∈ c, c'.Right (site.row l) now) : ∃ s',
      (Dialogue.run site.reply (fetch i >>= f).run).play s =
        (.ok ((site.row l i).elim (.error (.uncounted i)) r), s') ∧
      site.Kept limit now l c.isSome s' := by
  obtain ⟨s₁, h₁, hs₁⟩ := h.request site.toSite (.counts i)
  rw [site.answer_counts] at h₁ hs₁
  have hreply : (site.reply (.store (.counts i))).play s = (.ok (.ok (site.row l i)), s₁) := h₁
  cases hrow : site.row l i with
  | none =>
    rw [hrow] at hreply
    exact ⟨s₁, Site.play_run_ask hreply, .of_keptUp hs₁ rfl (by simpa using hc)⟩
  | some n =>
    rw [hrow] at hreply
    have hleft := hs₁.leave (.populate i n)
    obtain ⟨us, c', s₂, h₂, hs₂, hkept⟩ := hf n limit now _ c _ hleft
    have hright : ∀ c₂ ∈ keptUp now [.populate i n] c, c₂.Right (site.row l) now := by
      intro c₂ hc₂
      obtain ⟨c₁, hc₁, rfl⟩ := Option.map_eq_some_iff.mp hc₂
      exact (hc c₁ hc₁).set hrow
    refine ⟨s₂, ?_, .of_keptUp hs₂ hkept hright⟩
    exact (Site.play_run_ask hreply).trans ((Site.play_run_ask rfl).trans h₂)

/-- What a cache that is right says, if it says anything, the store says as well. -/
theorem kept_counts (site : Registry S) (hf : ∀ n, site.Yields l (f n).run (r n))
    {within : List Span} (h : Unhindered limit now [] l c s)
    (hc : ∀ c' ∈ c, c'.Right (site.row l) now) : ∃ s',
      (site.call (counts i within >>= f)).play s =
        (.ok ((site.row l i).elim (.error (.uncounted i)) r), s') ∧
      site.Kept limit now l c.isSome s' := by
  obtain ⟨s₁, h₁, hs₁⟩ := h.cache (.get i)
  have hright : ∀ c' ∈ c.map fun c => (c.exec now (.get i)).2, c'.Right (site.row l) now := by
    intro c' hc'
    obtain ⟨c₁, hc₁, rfl⟩ := Option.map_eq_some_iff.mp hc'
    exact (hc c₁ hc₁).get
  have hfound : ∃ found, (Cache.work now (.get i) c).1.1 = .ok found ∧
      ∀ n, found = some n → site.row l i = some n := by
    cases c with
    | none => exact ⟨none, rfl, nofun⟩
    | some c => exact ⟨_, rfl, fun n hn => (hc c rfl).row_of_get hn⟩
  obtain ⟨found, hwork, hrow⟩ := hfound
  have hreply : (site.reply (.cached i)).play s = (.ok (.ok found), s₁) := by
    rw [hwork] at h₁
    exact h₁
  have hsome : (c.map fun c => (c.exec now (.get i)).2).isSome = c.isSome := Option.isSome_map
  cases found with
  | none =>
    obtain ⟨s₂, h₂, hkept⟩ := site.kept_fetch (i := i) hf (hs₁.tell [.count .cacheMiss]) hright
    rw [hsome] at hkept
    exact ⟨s₂, (Site.play_run_ask hreply).trans ((Site.play_run_ask rfl).trans h₂), hkept⟩
  | some n =>
    have htell := hs₁.tell [.count .cacheHit]
    obtain ⟨us, c', s₂, h₂, hs₂, hkept⟩ := hf n limit now [] _ _ htell
    have hkept' := Kept.of_keptUp hs₂ hkept (by simpa using hright)
    rw [hsome] at hkept'
    rw [hrow n rfl]
    exact ⟨s₂, (Site.play_run_ask hreply).trans ((Site.play_run_ask rfl).trans h₂), hkept'⟩

end Lookups

/-! ### All calls -/

/-- **Every call** says what the store makes it say, and leaves the cache as good as it was. -/
theorem kept_call (site : Registry S) (o : Order) (l : S) :
    ∃ r l', ∀ {limit now c s}, Unhindered limit now [] l c s →
      (∀ c' ∈ c, c'.Right (site.row l) now) →
      ∃ s', (site.call o.call).play s = (.ok r, s') ∧ site.Kept limit now l' c.isSome s' := by
  cases ho : o.looksUp with
  | false => exact site.kept_call_of_not_looksUp ho l
  | true =>
    obtain ⟨i, hi⟩ := Order.looksUp_iff.mp ho
    obtain ⟨within, f, hcall, hf⟩ := o.call_of_looksUp hi
    choose r hr using fun n => site.exists_yields (hf n) l
    rw [hcall]
    refine ⟨(site.row l i).elim (.error (.uncounted i)) r, l, ?_⟩
    intro limit now c s h hc
    exact site.kept_counts hr h hc

/-! ### Runs -/

variable {cached : Bool}

theorem Tidy.sleep (h : site.Tidy limit now l cached s) (time : Nat) :
    site.Tidy limit (now + time) l cached (World.upkeep.sleep time s) := by
  obtain ⟨c, hs, hcached, hc⟩ := h
  exact ⟨c, hs.sleep time, hcached, fun c' hc' => (hc c' hc').later (Nat.le_add_right ..)⟩

theorem Kept.drain (h : site.Kept limit now l cached s) :
    site.Tidy limit now l cached (World.upkeep.drain s) := by
  obtain ⟨us, c, hs, hcached, hc⟩ := h
  exact ⟨_, hs.drain, by simpa [keptUp] using hcached, hc⟩

theorem Transparent.of_tidy {s₁ s₂ : Scene S} {r : Except CallFailure Answer}
    (h₁ : site.Tidy limit now l true s₁) (h₂ : site.Tidy limit now l false s₂) :
    site.Transparent (.ok r, s₁) (.ok r, s₂) := by
  obtain ⟨c, ⟨steps, reports, rfl⟩, hcached, hc⟩ := h₁
  obtain ⟨_, ⟨_, _, rfl⟩, -⟩ := h₂
  obtain ⟨c, rfl⟩ := Option.isSome_iff_exists.mp hcached
  exact ⟨rfl, ⟨r, rfl⟩, rfl, c, rfl, hc c rfl⟩

/-- Beside each other, tidy scenes with a cache and without stay alike. -/
theorem transparent_of_tidy (site : Registry S) (os : List (Nat × Order)) {s₁ s₂ : Scene S}
    (h₁ : site.Tidy limit now l true s₁) (h₂ : site.Tidy limit now l false s₂) :
    List.Forall₂ site.Transparent (site.drained os s₁) (site.drained os s₂) := by
  induction os generalizing now l s₁ s₂ with
  | nil => exact .nil
  | cons po os ih =>
    obtain ⟨pause, o⟩ := po
    obtain ⟨r, l', hcall⟩ := site.kept_call o l
    have hdrained : ∀ {cached s}, site.Tidy limit now l cached s → ∃ s',
        (Action.thenIdle (site.call o.call)).play (World.upkeep.sleep pause s) = (.ok r, s') ∧
          site.Tidy limit (now + pause) l' cached s' := by
      intro cached s h
      obtain ⟨c, hs, rfl, hc⟩ := h.sleep pause
      obtain ⟨s', hplay, hkept⟩ := hcall hs hc
      exact ⟨_, Act.play_thenIdle hplay, hkept.drain⟩
    obtain ⟨s₁', hplay₁, htidy₁⟩ := hdrained h₁
    obtain ⟨s₂', hplay₂, htidy₂⟩ := hdrained h₂
    rw [Site.drained, Site.drained, hplay₁, hplay₂]
    exact .cons (.of_tidy htidy₁ htidy₂) (ih htidy₁ htidy₂)

/-- **The cache cannot be told from none.** In a run where the crew is let finish after every call,
with an empty cache of any lifetime and capacity at the beginning, every call says what it says
without a cache, and all live entries have the counts of their rows after it. -/
theorem drained_transparent (site : Registry S) (l : S) (options : Cache.Options) (limit now : Nat)
    (os : List (Nat × Order)) :
    List.Forall₂ site.Transparent
      (site.drained os ({ limit, now }, { store := l, cache := some options.build }))
      (site.drained os ({ limit, now }, { store := l, cache := none })) := by
  have hcached : site.Tidy limit now l true
      ({ limit, now }, { store := l, cache := some options.build }) :=
    ⟨_, ⟨_, _, rfl⟩, rfl, fun c hc => Option.some.inj hc ▸ Cache.right_build options⟩
  have hplain : site.Tidy limit now l false ({ limit, now }, { store := l, cache := none }) :=
    ⟨_, ⟨_, _, rfl⟩, rfl, nofun⟩
  exact site.transparent_of_tidy os hcached hplain

end Registry

/-! ### A small run -/

namespace Ledger

/-- An article that nobody has touched, with a cache or without. -/
def scene (c : Option Cache) : Scene Ledger :=
  ({ limit := 500 }, { store := untouched, cache := c })

/-- A cache that has room for one entry, which lives for 10 ms. -/
def narrow : Cache.Options := { lifetime := 10, capacity := 1 }

/-- The article is looked up, liked, looked up again, and once more at the end of its entry. -/
def orders : List (Nat × Order) :=
  [(0, .counts article), (5, .record (.like article 7)), (1, .counts article),
    (4, .summary article 7)]

end Ledger

/-- Only the second lookup finds the article in the cache. It finds the like there, and so says what
the store would have said. -/
theorem Registry.drained_transparent_article :
    let cached := Ledger.registry.drained Ledger.orders (Ledger.scene (some Ledger.narrow.build))
    let plain := Ledger.registry.drained Ledger.orders (Ledger.scene none)
    List.Forall₂ Ledger.registry.Transparent cached plain ∧
      cached.map (·.1) =
        [.ok (.ok (.summary ⟨Ledger.article, .zero, false, false⟩)), .ok (.ok .recorded),
          .ok (.ok (.summary ⟨Ledger.article, ⟨0, 1, 0⟩, false, false⟩)),
          .ok (.ok (.summary ⟨Ledger.article, ⟨0, 1, 0⟩, true, false⟩))] ∧
      cached.map (fun x => x.2.2.reports.count (.count .cacheHit)) = [0, 0, 1, 1] := by
  intro cached plain
  have hall : List.Forall₂ Ledger.registry.Transparent cached plain :=
    Registry.drained_transparent Ledger.registry Ledger.untouched Ledger.narrow 500 0 Ledger.orders
  have hresults : cached.map (·.1) = plain.map (·.1) := by
    rw [← List.forall₂_eq_eq_eq, List.forall₂_map_left_iff, List.forall₂_map_right_iff]
    exact hall.imp fun _ _ h => h.result_eq
  -- What the calls say is computed without the cache.
  exact ⟨hall, hresults.trans (by decide +kernel), by decide +kernel⟩

end Popularity
