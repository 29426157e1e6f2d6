import Popularity.Proofs.Engine.Unhindered
import Popularity.Proofs.Service.Lookup

/-!
# A cache that is asked once

A cache that holds nothing answers like none at all, so the first that is asked of it says nothing.
To hold something it must be given something, and that is left to a job. A call of the service asks
the cache only before it leaves any job. So where the cache is empty at the beginning, what a call
comes to, and what becomes of the store, can be told from the store alone.

It is told by holding the dialogue with the store and giving each question to the cache the answer
that nobody gives.

## Main definitions

* `Site.bare`, `Site.told` — a dialogue with a store and nothing else
* `Call.Unconsulted` — no question for the cache comes after a job was left

## Main results

* `Service.Order.unconsulted` — so it is with every order
* `Site.play_run_of_unconsulted`
-/

namespace Popularity

variable {S α β : Type}

/-! ### A store and nothing else -/

namespace Site

/-- The answer to a question where there is no cache and nothing is in the way of the store. -/
def bare (site : Site S) : (q : Call.Query) → S → q.Answer × S
  | .store r, v => site.answer r v
  | .marks i user, v =>
    let (liked, v) := site.answer (.marked .like i user) v
    let (collected, v) := site.answer (.marked .collection i user) v
    ((liked, collected), v)
  | .cached _, v => (.ok none, v)
  | .adjust _, v => (.answered .skipped, v)
  | .detach _, v => ((), v)
  | .report _, v => ((), v)

/-- What a dialogue comes to there, and what becomes of the store. -/
def told (site : Site S) : Dialogue Call.Query Call.Query.Answer α → S → α × S
  | .done a, v => (a, v)
  | .ask q next, v => site.told (next (site.bare q v).1) (site.bare q v).2

theorem told_bind (site : Site S) (d : Dialogue Call.Query Call.Query.Answer α)
    (f : α → Dialogue Call.Query Call.Query.Answer β) (v : S) :
    site.told (d >>= f) v = site.told (f (site.told d v).1) (site.told d v).2 := by
  change site.told (d.bind f) v = _
  induction d generalizing v with
  | done a => rfl
  | ask q next ih => exact ih (site.bare q v).1 (site.bare q v).2

/-- What no answer of the store can break holds when all is told. -/
theorem told_induction {site : Site S} {motive : S → Prop}
    (hanswer : ∀ r v, motive v → motive (site.answer r v).2)
    (d : Dialogue Call.Query Call.Query.Answer α) {v : S} (hv : motive v) :
    motive (site.told d v).2 := by
  induction d generalizing v with
  | done a => exact hv
  | ask q next ih =>
    refine ih _ ?_
    cases q with
    | store r => exact hanswer r v hv
    | marks i user => exact hanswer _ _ (hanswer _ v hv)
    | cached | adjust | detach | report => exact hv

/-- What is said aside changes nothing. -/
theorem told_aside (site : Site S) {r : Except CallFailure α}
    {d : Dialogue Call.Query Call.Query.Answer (Except CallFailure α)}
    (hd : d.Meets (fun q => q.isAside = true) (fun _ _ => True) (· = r)) (v : S) :
    site.told d v = (r, v) := by
  induction d with
  | done a => exact congrArg (·, v) hd
  | ask q next ih =>
    obtain ⟨hq, hnext⟩ := hd
    cases q with
    | detach u => exact ih () (hnext () trivial)
    | report r => exact ih () (hnext () trivial)
    | store | marks | cached | adjust => cases hq

theorem told_call_bind (site : Site S) (c : Call α) (f : α → Call β) (v : S) :
    site.told (c >>= f).run v = match site.told c.run v with
      | (.ok a, v') => site.told (f a).run v'
      | (.error why, v') => (.error why, v') := by
  rw [ExceptT.run_bind, told_bind]
  rcases site.told c.run v with ⟨why | a, v'⟩ <;> rfl

end Site

/-! ### Questions for the cache -/

namespace Call

/-- Whether a question is for the cache. -/
def Query.isForCache : Query → Bool
  | .cached _ | .adjust _ => true
  | _ => false

/-- Whether a question is answered without a wait for more than the store, and leaves no job. -/
def Query.leavesNothing : Query → Bool
  | .detach _ | .marks .. => false
  | _ => true

/-- Whether all that a dialogue asks of the cache is asked before it leaves any job. -/
inductive Unconsulted : Dialogue Query Query.Answer α → Prop
  | blind {d : Dialogue Query Query.Answer α}
    (h : d.Meets (fun q => q.isForCache = false) (fun _ _ => True) (fun _ => True)) : Unconsulted d
  | ask {q : Query} {next : q.Answer → Dialogue Query Query.Answer α}
    (hq : q.leavesNothing = true) (h : ∀ x, Unconsulted (next x)) : Unconsulted (.ask q next)

/-- To make something of the result asks nothing more. -/
theorem Unconsulted.map {d : Dialogue Query Query.Answer (Except CallFailure α)}
    (h : Unconsulted d) (f : α → β) : Unconsulted (f <$> (ExceptT.mk d : Call α)).run := by
  induction h with
  | blind h => exact .blind (meets_map.mpr (h.mono fun _ _ => trivial))
  | @ask q next hq _ ih =>
    rw [run_map_ask (c := ExceptT.mk (.ask q next)) rfl]
    exact .ask hq ih

theorem isForCache_of_isAside {q : Query} (h : q.isAside = true) : q.isForCache = false := by
  cases q <;> first | rfl | cases h

/-- What is settled by the store asks at most for one adjustment, and does so at once. -/
theorem Settled.unconsulted {awaits : Bool} {r : Except CallFailure α}
    {d : Dialogue Query Query.Answer (Except CallFailure α)} (h : Settled awaits r d) :
    Unconsulted d := by
  have haside {d : Dialogue Query Query.Answer (Except CallFailure α)}
      (hd : d.Meets (fun q => q.isAside = true) (fun _ _ => True) (· = r)) : Unconsulted d :=
    .blind (hd.imp (fun _ => isForCache_of_isAside) (fun _ _ => id) fun _ _ => trivial)
  rcases h with h | ⟨-, a, next, rfl, h⟩
  · exact haside h
  · exact .ask rfl fun b => haside (h b)

end Call

/-- **Every order asks the cache before it leaves a job**, or not at all. -/
theorem Service.Order.unconsulted (o : Service.Order) : Call.Unconsulted o.call.run := by
  cases ho : o.looksUp with
  | true =>
    obtain ⟨i, hi⟩ := Service.Order.looksUp_iff.mp ho
    obtain ⟨next, hrun, hnext⟩ := o.meets_of_looksUp hi fun _ => True
    rw [hrun]
    refine .ask rfl fun x => .blind ((hnext x fun _ _ => trivial).imp ?_ ?_ fun _ _ => trivial)
    · intro q hq
      cases q <;> first | rfl | cases hq
    · exact fun q a _ => Service.Lookup.hears_true q a
  | false =>
    rcases o.run_of_not_looksUp ho with ⟨-, r, hrun⟩ | ⟨q, next, settled, -, hrun, hnext⟩
    · rw [hrun]
      exact .blind trivial
    · rw [hrun]
      exact .ask rfl fun x => (hnext x).unconsulted

/-! ### In the engine -/

namespace Site

/-- What is not asked of the cache is answered as if there were none, if nothing is in the way of
the store. -/
theorem reply_of_not_isForCache {C : Type} [CacheKind C] (site : Site S) {q : Call.Query}
    (hq : q.isForCache = false) {s : Scene S C} (hs : s.2.storeTroubles = []) :
    ∃ s', (site.reply q).play s = (.ok (site.bare q s.2.store).1, s') ∧
      s'.2.store = (site.bare q s.2.store).2 ∧ s'.2.storeTroubles = [] := by
  cases q with
  | store r =>
    obtain ⟨s', hplay, hreached⟩ := site.play_request r s
    rw [hs] at hplay hreached
    exact ⟨s', hplay, hreached.store_eq, hreached.storeTroubles_eq⟩
  | marks i user =>
    obtain ⟨s', hplay, hreached⟩ := site.play_marks i user s
    rw [hs] at hplay hreached
    exact ⟨s', hplay, hreached.store_eq, hreached.storeTroubles_eq⟩
  | cached i => cases hq
  | adjust a => cases hq
  | detach u => exact ⟨_, rfl, rfl, hs⟩
  | report r => exact ⟨_, rfl, rfl, hs⟩

theorem play_run_of_blind {C : Type} [CacheKind C] (site : Site S)
    {d : Dialogue Call.Query Call.Query.Answer α}
    (hd : d.Meets (fun q => q.isForCache = false) (fun _ _ => True) (fun _ => True))
    {s : Scene S C} (hs : s.2.storeTroubles = []) :
    ∃ s', (Dialogue.run site.reply d).play s = (.ok (site.told d s.2.store).1, s') ∧
      s'.2.store = (site.told d s.2.store).2 := by
  induction d generalizing s with
  | done a => exact ⟨s, rfl, rfl⟩
  | ask q next ih =>
    obtain ⟨s₁, h₁, hstore, htroubles⟩ := site.reply_of_not_isForCache hd.1 hs
    obtain ⟨s₂, h₂, hstore₂⟩ := ih _ (hd.2 _ trivial) htroubles
    rw [hstore] at h₂ hstore₂
    exact ⟨s₂, (play_run_ask h₁).trans h₂, hstore₂⟩

/-- A cache that holds nothing, or none, is asked in vain and stays so. -/
theorem work_eq_missed {c : Option Cache} (hc : ∀ c' ∈ c, c'.entries = []) (now : Nat) (i : Item) :
    (Cache.work now (.get i) c).1 = (.ok none, c) ∧
      ∀ k by_, (Cache.work now (.adjust i k by_) c).1 = (.ok .skipped, c) := by
  cases c with
  | none => exact ⟨rfl, fun k by_ => rfl⟩
  | some c =>
    obtain ⟨capacity, lifetime, entries, tainted⟩ := c
    obtain rfl : entries = [] := hc _ rfl
    exact ⟨rfl, fun k by_ => rfl⟩

/-- The store may be asked, and the cache in vain, with no difference to anything else. -/
theorem reply_of_leavesNothing (site : Site S) {limit now : Nat} {v : S} {c : Option Cache}
    (hc : ∀ c' ∈ c, c'.entries = []) {q : Call.Query} (hq : q.leavesNothing = true)
    {s : Scene S (Option Cache)} (hs : Unhindered limit now [] v c s) :
    ∃ s', (site.reply q).play s = (.ok (site.bare q v).1, s') ∧
      Unhindered limit now [] (site.bare q v).2 c s' := by
  cases q with
  | store r => exact hs.request site r
  | cached i =>
    obtain ⟨s', hplay, hs'⟩ := hs.cache (.get i)
    have hmissed := (work_eq_missed hc now i).1
    rw [← Cache.work_snd, hmissed] at hs'
    rw [hmissed] at hplay
    exact ⟨s', hplay, hs'⟩
  | adjust a =>
    obtain ⟨s', hplay, hs'⟩ := hs.bounded a.op
    have hmissed := (work_eq_missed hc now a.item).2 a.counter a.by_
    rw [← Cache.work_snd, Adjustment.op, hmissed] at hs'
    rw [Adjustment.op, hmissed] at hplay
    exact ⟨s', hplay, hs'⟩
  | report r => exact ⟨_, rfl, hs.tell [r]⟩
  | marks i user => cases hq
  | detach u => cases hq

/-- **A call that starts with an empty cache, or none,** comes to what the store makes it come
to. -/
theorem play_run_of_unconsulted (site : Site S) {limit now : Nat} {v : S} {c : Option Cache}
    (hc : ∀ c' ∈ c, c'.entries = []) {d : Dialogue Call.Query Call.Query.Answer α}
    (hd : Call.Unconsulted d) {s : Scene S (Option Cache)}
    (hs : Unhindered limit now [] v c s) :
    ∃ s', (Dialogue.run site.reply d).play s = (.ok (site.told d v).1, s') ∧
      s'.2.store = (site.told d v).2 := by
  induction hd generalizing v s with
  | blind hd =>
    obtain ⟨steps, reports, rfl⟩ := hs
    exact site.play_run_of_blind hd rfl
  | @ask q next hq _ ih =>
    obtain ⟨s₁, h₁, hs₁⟩ := site.reply_of_leavesNothing hc hq hs
    obtain ⟨s₂, h₂, hstore⟩ := ih _ hs₁
    exact ⟨s₂, (play_run_ask h₁).trans h₂, hstore⟩

end Site

end Popularity
