import Popularity.Proofs.Table
import Popularity.Proofs.Traffic.Basic
import Mathlib.Data.List.Count

/-!
# The books balance

In whatever order calls and jobs take their turns, every change of a counter in the store is matched
by one adjustment of the cache, which is owed from the moment of the change until it comes to its
end, well or not. Nothing else adjusts the cache.

So the changes in the history of a state are the adjustments that have come to their end together
with those that are pending. The proof follows one adjustment through the hands it passes: the
answer of the store, the call, the job.

## Main results

* `Traffic.Run.dutiful` — calls on their way discharge their obligations
* `Traffic.Run.balanced` — changes made, adjustments settled and adjustments pending
-/

namespace Popularity.Traffic

variable {S : Type} {site : Site S} {s s' : Traffic S}

/-! ### Calls on their way -/

/-- All calls on their way are dutiful. -/
def Dutiful (s : Traffic S) : Prop :=
  ∀ c v d, s.calls.get? c = some v → v.rest = some d → Call.Dutiful d

/-- A reply leaves the calls to themselves. -/
theorem Replies.calls_eq {c : Nat} {v : Visit} {q : Call.Query} {a : q.Answer}
    (h : Replies site s c v q a s') : s'.calls = s.calls := by
  cases h <;> rfl

theorem Dutiful.of_calls_eq (h : Dutiful s) (hc : s'.calls = s.calls) : Dutiful s' :=
  fun c v d hv => h c v d (hc ▸ hv)

theorem Dutiful.visit (h : Dutiful s) {c : Nat} {v : Visit}
    (hv : ∀ d, v.rest = some d → Call.Dutiful d) : Dutiful (s.visit c v) := by
  intro c' v' d hc' hd
  rw [calls_visit] at hc'
  rcases Table.get?_put_eq_some hc' with ⟨-, rfl⟩ | ⟨-, hc'⟩
  · exact hv d hd
  · exact h c' v' d hc' hd

theorem Step.dutiful (h : Step site s s') (hs : Dutiful s) : Dutiful s' := by
  cases h with
  | pass time => exact hs
  | enter c o hc => exact hs.visit fun d hd => by cases hd; exact o.dutiful_call
  | hear hc hv hr =>
    exact (hs.of_calls_eq hr.calls_eq).visit fun d hd => by cases hd; exact (hs _ _ _ hc hv _).2
  | await hc hv ht => exact hs.visit fun d hd => hs _ _ d hc hd
  | crash hc hv ht hnow hout => exact (hs.of_calls_eq rfl).visit nofun
  | start hj ht => exact hs
  | finish hj hended ht hnow => exact hs
  | lose hj hended ht => exact hs

theorem Run.dutiful (h : Run site s s') (hs : Dutiful s) : Dutiful s' := by
  induction h with
  | refl => exact hs
  | tail _ hstep ih => exact hstep.dutiful ih

/-! ### Accounts -/

theorem pending_visit (s : Traffic S) (c : Nat) (v : Visit) (u : Upkeep) :
    (s.visit c v).pending.count u + ((s.calls.get? c).elim [] Visit.due).count u
      = s.pending.count u + v.due.count u := by
  have h := Table.count_gather_put Visit.due s.calls c v u
  simp only [pending, visit, List.count_append]
  omega

theorem pending_chore (s : Traffic S) (j : Nat) (ch : Chore) (u : Upkeep) :
    (s.chore j ch).pending.count u + ((s.jobs.get? j).elim [] Chore.due).count u
      = s.pending.count u + ch.due.count u := by
  have h := Table.count_gather_put Chore.due s.jobs j ch u
  simp only [pending, chore, List.count_append]
  omega

@[simp] theorem pending_note (s : Traffic S) (d : Option Deed) :
    (s.note d).pending = s.pending := rfl

@[simp] theorem pending_with_store (s : Traffic S) (store : S) :
    { s with store }.pending = s.pending := rfl

@[simp] theorem pending_with_cache (s : Traffic S) (cache : Cache) :
    { s with cache }.pending = s.pending := rfl

@[simp] theorem changes_note (s : Traffic S) (d : Option Deed) :
    (s.note d).history.changes = d.elim [] Deed.changes ++ s.history.changes := by
  cases d <;> rfl

@[simp] theorem endings_note (s : Traffic S) (d : Option Deed) :
    (s.note d).history.endings = d.elim [] Deed.endings ++ s.history.endings := by
  cases d <;> rfl

/-- The adjustments due after a change are the change. -/
theorem count_owes (c : Nat) (r : Request) (x : Except StoreFailure r.Answer) (a : Adjustment) :
    (Call.Query.owes (.store r) x).count (.adjust a)
      = ((Deed.ofAnswer c r x).elim [] Deed.changes).count a := by
  have hinj : Function.Injective Upkeep.adjust := fun _ _ h => Upkeep.adjust.inj h
  cases r with
  | write w =>
    rcases x with why | b
    · rfl
    · cases b with
      | false => rfl
      | true => exact List.count_map_of_injective _ _ hinj a
  | counts i =>
    rcases x with why | n
    · rfl
    · cases n <;> rfl
  | countsOf kind ids => rfl
  | marked m i user => rfl

@[simp] theorem endings_ofAnswer (c : Nat) (r : Request) (x : Except StoreFailure r.Answer) :
    (Deed.ofAnswer c r x).elim [] Deed.endings = [] := by
  cases h : Deed.ofAnswer c r x with
  | none => rfl
  | some d =>
    unfold Deed.ofAnswer at h
    split at h <;> cases h <;> rfl

/-- A job that comes to its end settles the adjustment that it stands for. -/
theorem count_endings_ofWork (j : Nat) (u : Upkeep) (x : Except Crash u.op.Answer)
    (a : Adjustment) :
    ((Deed.ofWork j u x).elim [] Deed.endings).count a = [u].count (.adjust a) := by
  cases u with
  | adjust b => by_cases h : b = a <;> simp [Deed.ofWork, Deed.endings, h]
  | populate i n => cases x <;> rfl

theorem count_endings_ofLoss (u : Upkeep) (a : Adjustment) :
    ((Deed.ofLoss u).elim [] Deed.endings).count a = [u].count (.adjust a) := by
  cases u with
  | adjust b => by_cases h : b = a <;> simp [Deed.ofLoss, Deed.endings, h]
  | populate i n => rfl

/-! ### Steps and runs -/

/-- Every change is matched by an adjustment that is settled or pending. -/
def Balanced (s : Traffic S) : Prop :=
  ∀ a, s.history.changes.count a = s.history.endings.count a + s.pending.count (.adjust a)

theorem balanced_opening (limit : Nat) (store : S) (o : Cache.Options) :
    Balanced (opening limit store o) := fun _ => rfl

/-- What was owed before a reply is settled by it, or handed on, or owed by the call as before. -/
theorem Replies.balanced {c : Nat} {v : Visit} {q : Call.Query} {x : q.Answer}
    {next : q.Answer → Site.CallUnderway Service.Answer} (h : Replies site s c v q x s')
    (hd : Call.Dutiful (.ask q next)) (hs : Balanced s) (a : Adjustment) :
    s'.history.changes.count a + (Call.due (.ask q next)).count (.adjust a)
      = s'.history.endings.count a + s'.pending.count (.adjust a)
        + (Call.due (next x)).count (.adjust a) := by
  have hsa := hs a
  cases h with
  | store r =>
    have howes := (congrArg (List.count (Upkeep.adjust a)) ((hd _).1 rfl)).trans
      (count_owes c r (site.answer r s.store).1 a)
    simp only [changes_note, endings_note, pending_note, pending_with_store, endings_ofAnswer,
      List.count_append, Call.due_store, List.count_nil, List.nil_append, howes]
    omega
  | storeFailed r why =>
    rw [(hd _).1 rfl, Call.Query.owes_store_error]
    simpa using hsa
  | marks i user looked =>
    rw [(hd _).1 rfl]
    simpa [Call.Query.owes] using hsa
  | cached i =>
    rw [(hd _).1 rfl]
    simpa [Call.Query.owes, Deed.changes, Deed.endings] using hsa
  | cacheFailed i why =>
    rw [(hd _).1 rfl]
    simpa [Call.Query.owes, Deed.changes, Deed.endings] using hsa
  | adjusted b t out cache ht hnow hout =>
    rw [(hd _).1 rfl]
    by_cases hb : b = a <;> simp [Call.Query.owes, Deed.changes, Deed.endings, hb] <;> omega
  | adjustFailed b t why ht =>
    rw [(hd _).1 rfl]
    by_cases hb : b = a <;> simp [Call.Query.owes, Deed.changes, Deed.endings, hb] <;> omega
  | adjustLate b t ht hnow =>
    rw [(hd _).1 rfl]
    by_cases hb : b = a <;> simp [Call.Query.owes, Deed.changes, Deed.endings, hb] <;> omega
  | detached u j hj =>
    have hp := pending_chore s j ⟨u, s.now, none, false⟩ (.adjust a)
    rw [hj] at hp
    rw [Option.elim_none, List.count_nil, Nat.add_zero] at hp
    rw [Call.due_detach, List.count_cons, ← List.count_singleton, changes_note, endings_note,
      pending_note, hp]
    simp only [Option.elim_some, Deed.changes, Deed.endings, List.nil_append, history_chore,
      Chore.due]
    simp
    omega
  | reported r => simpa using hsa

theorem Step.balanced (h : Step site s s') (hd : Dutiful s) (hs : Balanced s) : Balanced s' := by
  intro a
  have hsa := hs a
  cases h with
  | pass time => exact hsa
  | enter c o hc =>
    have hp := pending_visit s c ⟨o, some o.call.run, none⟩ (.adjust a)
    rw [hc] at hp
    simp only [Visit.due, Option.elim_some, o.due_call, Option.elim_none, List.count_nil] at hp
    simp only [history_visit]
    omega
  | @hear s₁ c v q x next hc hv hr =>
    have hb := hr.balanced (hd c v _ hc hv) hs a
    have hp := pending_visit s₁ c ⟨v.order, some (next x), none⟩ (.adjust a)
    rw [hr.calls_eq, hc] at hp
    simp only [Visit.due, Option.elim_some, hv] at hp
    simp only [history_visit]
    omega
  | @await c v b next hc hv ht =>
    have hp := pending_visit s c { v with since := some s.now } (.adjust a)
    rw [hc] at hp
    simp only [Visit.due, Option.elim_some] at hp
    simp only [history_visit]
    omega
  | @crash c t v b cache crash next hc hv ht hnow hout =>
    have hp := pending_visit ({ s with cache }.note (some (.settled b false))) c
      ⟨v.order, none, none⟩ (.adjust a)
    simp only [calls_note, hc, Visit.due, Option.elim_some, hv, Call.due_adjust, Option.elim_none,
      List.count_nil, pending_note, pending_with_cache] at hp
    by_cases hba : b = a <;> simp [hba, Deed.changes, Deed.endings] at hp ⊢ <;> omega
  | @start j ch hj ht =>
    have hp := pending_chore s j { ch with since := some s.now } (.adjust a)
    rw [hj] at hp
    simp only [Chore.due, Option.elim_some] at hp
    simp only [history_chore]
    omega
  | @finish j t ch hj hended ht hnow =>
    have hp := pending_chore ({ s with cache := (s.cache.exec s.now ch.job.op).2 }.note
      (Deed.ofWork j ch.job (s.cache.exec s.now ch.job.op).1)) j { ch with ended := true }
      (.adjust a)
    have hw := count_endings_ofWork j ch.job (s.cache.exec s.now ch.job.op).1 a
    simp only [jobs_note, hj, Chore.due, Option.elim_some, hended, pending_note,
      pending_with_cache, if_true, List.count_nil] at hp
    simp only [history_chore, changes_note, endings_note, Deed.changes_ofWork, List.count_append,
      hw, List.nil_append]
    simp at hp
    omega
  | @lose j t ch hj hended ht =>
    have hp := pending_chore (s.note (Deed.ofLoss ch.job)) j { ch with ended := true } (.adjust a)
    have hl := count_endings_ofLoss ch.job a
    simp only [jobs_note, hj, Chore.due, Option.elim_some, hended, pending_note, if_true,
      List.count_nil] at hp
    simp only [history_chore, changes_note, endings_note, Deed.changes_ofLoss, List.count_append,
      hl, List.nil_append]
    simp at hp
    omega

/-- **The books balance.** Every change of a counter in the store is matched by one adjustment of
the cache, which has come to its end or is pending. -/
theorem Run.balanced (h : Run site s s') (hd : Dutiful s) (hs : Balanced s) : Balanced s' := by
  induction h with
  | refl => exact hs
  | tail hrun hstep ih => exact hstep.balanced (Run.dutiful hrun hd) ih

end Popularity.Traffic
