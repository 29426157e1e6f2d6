import Popularity.Proofs.Engine.Unhindered
import Popularity.Proofs.Service.Recording

/-!
# Calls that come to an end

Whatever a call asks, and whatever troubles and caches it meets, no job of the crew gets more time
than the limit: jobs are only ever started by the crew, and the clock never goes back. So the crew
is at the end of all its jobs within one limit after any call.

A call can only crash where the cache does. A cache in memory, or none, does not crash when it is
looked into, and an empty one has nothing that an adjustment could overflow; so in a scene of which
nobody has made use yet every order gets its answer.

## Main results

* `Site.timely_call`
* `Site.call_ok`
-/

namespace Popularity

variable {S C α : Type}

/-! ### Jobs in time -/

namespace Act

/-- What does not touch the crew does not make a job late. -/
theorem timely_onWorld (f : World S C → α × World S C) :
    Keeps Craft.Timely (Action.onWorld f : Act S C α) :=
  fun _ h => h

variable [CacheKind C]

theorem timely_sleep (time : Nat) : Keeps Craft.Timely (Action.sleep time : Act S C Unit) :=
  fun _ h => h.sleep time

theorem timely_settle : Keeps Craft.Timely (Action.settle : Act S C Unit) := fun _ h => h.settle

theorem timely_work (o : Cache.Op) : Keeps Craft.Timely (Action.work o : Act S C _) := by
  intro s h
  rw [play_work]
  exact h

theorem timely_met {s : Scene S C} (h : Craft.Timely s) (o : Cache.Op) : Craft.Timely (met o s) := h

theorem timely_cache (o : Cache.Op) : Keeps Craft.Timely (Action.cache o : Act S C _) := by
  intro s h
  have hmet := timely_met h o
  rcases cache_cases o s with ⟨time, heq⟩ | ⟨why, heq⟩ <;> rw [heq]
  · exact timely_work o _ (hmet.sleep time)
  · exact hmet

theorem timely_bounded (o : Cache.Op) : Keeps Craft.Timely (Action.bounded o : Act S C _) := by
  intro s h
  have hmet := timely_met h o
  rcases bounded_cases o s with ⟨time, -, heq⟩ | ⟨why, heq⟩ | heq <;> rw [heq]
  · rw [play_map]
    exact timely_work o _ (hmet.sleep time)
  · exact hmet
  · exact hmet.sleep _

end Act

namespace Site

open Act

variable [CacheKind C]

theorem timely_carry (site : Site S) (r : Request) (trouble : Option StoreTrouble) :
    Keeps Craft.Timely (site.carry r trouble : Act S C _) := by
  have hreached : Keeps Craft.Timely (site.carry r none : Act S C _) := by
    unfold carry
    cases site.remote with
    | false => exact fun _ h => h
    | true => exact timely_settle.bind fun _ => timely_onWorld _
  rcases trouble with _ | time | why
  · exact hreached
  · exact hreached
  · exact .pure _

theorem timely_request (site : Site S) (r : Request) :
    Keeps Craft.Timely (site.request r : Act S C _) :=
  (timely_onWorld _).bind fun _ => (timely_sleep _).bind fun _ => site.timely_carry r _

theorem timely_marks (site : Site S) (i : Item) (user : Int64) :
    Keeps Craft.Timely (site.marks i user : Act S C _) :=
  (timely_onWorld _).bind fun _ => (timely_onWorld _).bind fun _ => (timely_sleep _).bind fun _ =>
    (site.timely_carry _ _).bind fun _ => (site.timely_carry _ _).bind fun _ => .pure _

theorem timely_reply (site : Site S) (q : Call.Query) :
    Keeps Craft.Timely (site.reply q : Act S C q.Answer) := by
  cases q with
  | store r => exact site.timely_request r
  | marks i user => exact site.timely_marks i user
  | cached i => exact timely_cache (.get i)
  | adjust a => exact timely_bounded a.op
  | detach u => exact fun _ h => h
  | report r => exact timely_onWorld _

/-- **No job is late after a call**, however it ended. -/
theorem timely_call (site : Site S) (c : Call α) :
    Keeps Craft.Timely (site.call c : Act S C (Except CallFailure α)) :=
  fun _ hs => run_induction (fun q s _ => site.timely_reply q s) c.run.meets_true hs

/-! ### Calls that do not crash -/

/-- What is answered without a crash ends without one. -/
theorem play_run_ok {site : Site S} {asks : Call.Query → Prop}
    (hreply : ∀ q (s : Scene S C), asks q → ∃ x, ((site.reply q).play s).1 = .ok x)
    {d : Dialogue Call.Query Call.Query.Answer α}
    (hd : d.Meets asks (fun _ _ => True) (fun _ => True)) (s : Scene S C) :
    ∃ r, ((Dialogue.run site.reply d : Act S C α).play s).1 = .ok r := by
  induction d generalizing s with
  | done a => exact ⟨a, rfl⟩
  | ask q next ih =>
    obtain ⟨x, hx⟩ := hreply q s hd.1
    obtain ⟨r, hr⟩ := ih x (hd.2 x trivial) ((site.reply q).play s).2
    exact ⟨r, (congrArg Prod.fst (play_run_ask (Prod.ext hx rfl))).trans hr⟩

/-- To look into the cache is safe. -/
theorem reply_lookup_ok (site : Site S) {q : Call.Query} (hq : q.isLookup = true)
    (s : Scene S (Option Cache)) : ∃ x, ((site.reply q).play s).1 = .ok x := by
  cases q with
  | store r =>
    obtain ⟨s', h, -⟩ := site.play_request r s
    exact ⟨_, congrArg Prod.fst h⟩
  | marks i user =>
    obtain ⟨s', h, -⟩ := site.play_marks i user s
    exact ⟨_, congrArg Prod.fst h⟩
  | cached i =>
    have hwork (s : Scene S (Option Cache)) :
        ∃ x, ((Action.work (.get i) : Action S _).play s).1 = .ok x := by
      rw [play_work]
      cases hc : s.2.cache with
      | none => exact ⟨_, by rw [World.work, hc]; rfl⟩
      | some c => exact ⟨_, by rw [World.work, hc]; rfl⟩
    change ∃ x, ((Action.cache (.get i)).play s).1 = .ok x
    rcases cache_cases (.get i) s with ⟨time, heq⟩ | ⟨why, heq⟩ <;> rw [heq]
    · exact hwork _
    · exact ⟨_, rfl⟩
  | adjust a => cases hq
  | detach u => exact ⟨_, rfl⟩
  | report r => exact ⟨_, rfl⟩

/-- Whatever is asked, a cache that no adjustment can break lets a call for a write get to its
end. -/
theorem call_ok_of_records (site : Site S) {o : Service.Order} {w : Write}
    (ho : o.request? = some (.write w)) {limit now : Nat} {v : S} {c : Option Cache}
    {s : Scene S (Option Cache)} (hs : Unhindered limit now [] v c s)
    (hc : ∀ a : Adjustment, ∃ out, (Cache.work now a.op c).1.1 = .ok out) :
    ∃ r, ((site.call o.call).play s).1 = .ok r := by
  obtain ⟨next, hrun, -, hnext⟩ := Service.Order.run_of_records ho
  obtain ⟨s₁, h₁, hs₁⟩ := hs.request site (.write w)
  have hreply : (site.reply (.store (.write w))).play s = (.ok (site.answer (.write w) v).1, s₁) :=
    h₁
  rw [call, hrun, play_run_ask hreply]
  rcases hnext (site.answer (.write w) v).1 with haside | ⟨-, a, next', heq, haside⟩
  · obtain ⟨s₂, h₂, -⟩ := hs₁.aside site haside
    exact ⟨_, congrArg Prod.fst h₂⟩
  · obtain ⟨out, hout⟩ := hc a
    obtain ⟨s₂, h₂, hs₂⟩ := hs₁.bounded a.op
    rw [hout] at h₂
    have hreply₂ : (site.reply (.adjust a)).play s₁ = (.ok (.answered out), s₂) := h₂
    obtain ⟨s₃, h₃, -⟩ := hs₂.aside site (haside (.answered out))
    rw [heq, play_run_ask hreply₂]
    exact ⟨_, congrArg Prod.fst h₃⟩

/-- **Every order gets its answer** where the cache is empty, or there is none. -/
theorem call_ok (site : Site S) (o : Service.Order) (limit now : Nat) (v : S)
    (options : Cache.Options) :
    ∃ r, ((site.call o.call).play
      ({ limit, now }, { store := v, cache := options.build? })).1 = .ok r := by
  by_cases ho : ∃ w, o.request? = some (.write w)
  · obtain ⟨w, ho⟩ := ho
    refine site.call_ok_of_records ho ⟨_, _, rfl⟩ fun a => ?_
    unfold Cache.Options.build?
    split
    · exact ⟨.skipped, rfl⟩
    · exact ⟨.skipped, rfl⟩
  · exact play_run_ok (fun q s hq => site.reply_lookup_ok hq s)
      (Service.Order.meets_lookup fun w hw => ho ⟨w, hw⟩) _

end Site

end Popularity
