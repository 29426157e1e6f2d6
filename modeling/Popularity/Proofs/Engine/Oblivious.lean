import Popularity.Proofs.Engine.Replies
import Popularity.Proofs.Service.Lookup

/-!
# The store does not notice the cache

The same session is held twice, on stores that are the same at the beginning, but with caches of any
kind: they may know nothing or talk nonsense, refuse, come late or never answer at all, as long as
they do not crash. What was recorded is the same after every call, and so is what every call says
that does not look into the cache.

Nor does a write notice the cache by its time. It takes as long as the store does, and a single read
that awaits the cache may take one limit more.

## Main definitions

* `Engagement`, `Seen`, `Site.session` — a session, and what can be seen of it
* `Stubborn` — a kind of cache that is no use

## Main results

* `Registry.session_alike`
-/

namespace Popularity

variable {S C C₁ C₂ : Type}

/-! ### Sessions -/

/-- A call of a session: it begins after a pause, and its requests may meet troubles. -/
structure Engagement where
  pause : Nat := 0
  troubles : List (String × StoreTrouble) := []
  order : Service.Order
  deriving DecidableEq, Repr, Inhabited

/-- The time that the store takes for the request of a call. -/
def Engagement.time (g : Engagement) : Nat :=
  g.order.request?.elim 0 fun r => StoreTrouble.time (takeFirst r.method g.troubles).1

/-- What is seen of a call. -/
structure Seen (S : Type) where
  call : Engagement
  result : Except Crash (Except CallFailure Service.Answer)
  elapsed : Nat
  /-- The store afterwards. -/
  store : S

namespace Site

variable [CacheKind C]

/-- A scene when a call of a session begins. -/
def await (g : Engagement) (s : Scene S C) : Scene S C :=
  let s := World.upkeep.sleep g.pause s
  (s.1, { s.2 with storeTroubles := g.troubles })

/-- Makes a call of a session. -/
def engage (site : Site S) (g : Engagement) (s : Scene S C) : Seen S × Scene S C :=
  let s := await g s
  let (r, s') := (site.call g.order.call).play s
  (⟨g, r, s'.1.now - s.1.now, s'.2.store⟩, s')

/-- Makes the calls of a session one after another. -/
def session (site : Site S) : List Engagement → Scene S C → List (Seen S)
  | [], _ => []
  | g :: gs, s => (site.engage g s).1 :: session site gs (site.engage g s).2

variable {s : Scene S C} {g : Engagement}

theorem engage_eq {site : Site S} {r : Except Crash (Except CallFailure Service.Answer)}
    {s' : Scene S C} (h : (site.call g.order.call).play (await g s) = (r, s')) :
    site.engage g s = (⟨g, r, s'.1.now - (await g s).1.now, s'.2.store⟩, s') := by
  rw [engage, h]

theorem reached_await : Reached s (await g s) s.2.store g.troubles g.pause :=
  have h : Steady s (World.upkeep.sleep g.pause s) := steady_sleep
  ⟨h.store_eq, rfl, h.limit_eq, Craft.sleep_now _⟩

end Site

/-! ### Calls -/

open Service

/-- What a call shows of its order, and of the store, but not of the cache. -/
structure Seen.Alike (o₁ o₂ : Seen S) : Prop where
  call_eq : o₁.call = o₂.call
  store_eq : o₁.store = o₂.store
  result_eq : o₁.call.order.looksUp = false → o₁.result = o₂.result

/-- A call that ends, and takes the time of its store, and of the cache only if it waits for it. -/
structure Seen.Timely (limit : Nat) (o : Seen S) : Prop where
  result_ok : ∃ r, o.result = .ok r
  elapsed_eq : o.call.order.awaits = false → o.elapsed = o.call.time
  elapsed_le : o.elapsed ≤ o.call.time + limit

namespace Registry

variable {site : Registry S} {g : Engagement}

/-- **A call that does not look into the cache** says what the store makes it say. -/
theorem engage_of_not_looksUp (site : Registry S) (hg : g.order.looksUp = false) (l : S) :
    ∃ r l', ∀ {C : Type} [CalmCache C] (s : Scene S C), s.2.store = l →
      (site.engage g s).1.result = .ok r ∧ (site.engage g s).1.store = l' ∧
        (site.engage g s).1.Timely s.1.limit := by
  rcases g.order.run_of_not_looksUp hg with ⟨hnone, r, hrun⟩ | ⟨q, next, settled, hq, hrun, hnext⟩
  · have htime : g.time = 0 := by rw [Engagement.time, hnone, Option.elim_none]
    refine ⟨r, l, ?_⟩
    intro C _ s hl
    have hawait := Site.reached_await (s := s) (g := g)
    have hplay : (site.call g.order.call).play (Site.await g s) = (.ok r, Site.await g s) := by
      rw [Site.call, hrun]
      rfl
    rw [Site.engage_eq hplay, Nat.sub_self]
    exact ⟨rfl, hawait.store_eq.trans hl, ⟨r, rfl⟩, fun _ => htime.symm, Nat.zero_le _⟩
  · have htime : g.time = StoreTrouble.time (takeFirst q.method g.troubles).1 := by
      rw [Engagement.time, hq, Option.elim_some]
    let x := site.respond (takeFirst q.method g.troubles).1 q l
    refine ⟨settled x.1, x.2, ?_⟩
    intro C _ s hl
    have hawait := Site.reached_await (s := s) (g := g)
    obtain ⟨s₁, h₁, hr₁⟩ := Site.play_request site.toSite q (Site.await g s)
    rw [hawait.storeTroubles_eq, hawait.store_eq, hl] at h₁ hr₁
    obtain ⟨s₂, h₂, hsteady, hle, heq⟩ := Site.play_settled site.toSite (hnext x.1) s₁
    have hplay : (site.call g.order.call).play (Site.await g s) = (.ok (settled x.1), s₂) := by
      have hreply : (site.reply (.store q)).play (Site.await g s) = (.ok x.1, s₁) := h₁
      rw [Site.call, hrun, Site.play_run_ask hreply, h₂]
    have hexact : g.order.awaits = false → s₂.1.now - (Site.await g s).1.now = g.time := by
      intro haw
      rw [heq haw, hr₁.now_eq, htime, Nat.add_sub_cancel_left]
    have hbound : s₂.1.now - (Site.await g s).1.now ≤ g.time + s.1.limit := by
      rw [hr₁.now_eq, hr₁.limit_eq, hawait.limit_eq, ← htime] at hle
      omega
    rw [Site.engage_eq hplay]
    exact ⟨rfl, hsteady.store_eq.trans hr₁.store_eq, ⟨_, rfl⟩, hexact, hbound⟩

/-- A call that may look into the cache records nothing. -/
theorem store_engage_of_looksUp (site : Registry S) (hg : g.order.looksUp = true) [CacheKind C]
    (s : Scene S C) : (site.engage g s).1.store = s.2.store := by
  obtain ⟨i, hi⟩ := Order.looksUp_iff.mp hg
  obtain ⟨next, hrun, hnext⟩ := g.order.meets_of_looksUp hi fun _ => True
  have hmeets : g.order.call.run.Meets (fun q => ∀ w, q ≠ .store (.write w)) (fun _ _ => True)
      fun _ => True := by
    rw [hrun]
    refine ⟨by simp, ?_⟩
    intro x _
    refine (hnext x fun _ _ => trivial).imp ?_ (fun q a _ => Lookup.hears_true q a)
      fun _ _ => trivial
    rintro q hq w rfl
    cases hq
  exact (Site.store_run site hmeets _).trans Site.reached_await.store_eq

theorem limit_engage (site : Site S) [CacheKind C] (s : Scene S C) :
    (site.engage g s).2.1.limit = s.1.limit :=
  (Site.limit_run site _ _).trans Site.reached_await.limit_eq

/-- One call made in two scenes with the same store. -/
theorem engage_alike (site : Registry S) [CalmCache C₁] [CalmCache C₂] {s₁ : Scene S C₁}
    {s₂ : Scene S C₂} (h : s₁.2.store = s₂.2.store) :
    (site.engage g s₁).1.Alike (site.engage g s₂).1 := by
  cases hg : g.order.looksUp with
  | false =>
    obtain ⟨r, l', hr⟩ := site.engage_of_not_looksUp hg s₂.2.store
    obtain ⟨hr₁, hl₁, -⟩ := hr s₁ h
    obtain ⟨hr₂, hl₂, -⟩ := hr s₂ rfl
    exact ⟨rfl, hl₁.trans hl₂.symm, fun _ => hr₁.trans hr₂.symm⟩
  | true =>
    refine ⟨rfl, ?_, fun hfalse => absurd (hg.symm.trans hfalse) (by simp)⟩
    rw [site.store_engage_of_looksUp hg, site.store_engage_of_looksUp hg, h]

theorem timely_session (site : Registry S) [CalmCache C] (gs : List Engagement) (s : Scene S C) :
    ∀ o ∈ site.session gs s, o.call.order.looksUp = false → o.Timely s.1.limit := by
  induction gs generalizing s with
  | nil =>
    intro o ho
    cases ho
  | cons g gs ih =>
    intro o ho hlooks
    rcases List.mem_cons.mp ho with rfl | ho
    · obtain ⟨r, l', hr⟩ := site.engage_of_not_looksUp hlooks s.2.store
      exact (hr s rfl).2.2
    · have htimely := ih (site.engage g s).2 o ho hlooks
      rwa [limit_engage site.toSite s] at htimely

/-- **The store does not notice the cache.** Whatever two calm caches do, what is recorded after
each call of a session is the same, and so is what each call says that does not look into the cache.
Writes take the time of their requests, a single read at most one limit more. -/
theorem session_alike (site : Registry S) [CalmCache C₁] [CalmCache C₂] (gs : List Engagement)
    {s₁ : Scene S C₁} {s₂ : Scene S C₂} (h : s₁.2.store = s₂.2.store) :
    List.Forall₂ Seen.Alike (site.session gs s₁) (site.session gs s₂) ∧
      (∀ o ∈ site.session gs s₁, o.call.order.looksUp = false → o.Timely s₁.1.limit) ∧
      ∀ o ∈ site.session gs s₂, o.call.order.looksUp = false → o.Timely s₂.1.limit := by
  refine ⟨?_, site.timely_session gs s₁, site.timely_session gs s₂⟩
  induction gs generalizing s₁ s₂ with
  | nil => exact .nil
  | cons g gs ih =>
    have halike := site.engage_alike (g := g) h
    exact .cons halike (ih halike.store_eq)

end Registry

/-! ### A cache that is no use -/

/-- A cache that holds nothing and makes the same trouble of every operation. -/
structure Stubborn where
  trouble : Option CacheTrouble
  deriving DecidableEq, Repr, Inhabited

instance Stubborn.calm : CalmCache Stubborn where
  mood _ _ c := (c.trouble, c)
  work _ o c := ((.ok (.ok o.missed), c), [])
  calm _ o c := ⟨.ok o.missed, c, [], rfl⟩

/-- A scene where an article has not been touched, with a cache that is no use. -/
def Stubborn.scene (trouble : CacheTrouble) : Scene Ledger Stubborn :=
  ({ limit := 500 }, { store := Ledger.untouched, cache := ⟨some trouble⟩ })

/-- Some calls, and what their requests meet. -/
def Stubborn.calls : List Engagement :=
  [⟨0, [("find", .fail .timeout)], .counts Ledger.article⟩,
    ⟨5, [("incr_read_cnt", .delay 10)], .record (.read Ledger.article)⟩,
    ⟨5, [("insert_like", .delay 20)], .record (.like Ledger.article 7)⟩,
    ⟨5, [], .marked .like Ledger.article 7⟩]

/-- A cache that refuses everything beside one that ends nothing. -/
theorem Registry.session_alike_stubborn :
    (Stubborn.scene (.fail .timeout)).2.store = (Stubborn.scene .stall).2.store ∧
      List.Forall₂ Seen.Alike
        (Ledger.registry.session Stubborn.calls (Stubborn.scene (.fail .timeout)))
        (Ledger.registry.session Stubborn.calls (Stubborn.scene .stall)) ∧
      ∀ o ∈ Ledger.registry.session Stubborn.calls (Stubborn.scene .stall),
        o.call.order.looksUp = false → o.Timely 500 := by
  have hstore : (Stubborn.scene (.fail .timeout)).2.store = (Stubborn.scene .stall).2.store := rfl
  obtain ⟨halike, -, htimely⟩ := Registry.session_alike Ledger.registry Stubborn.calls hstore
  exact ⟨hstore, halike, htimely⟩

end Popularity
