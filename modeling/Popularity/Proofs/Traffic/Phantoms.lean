import Popularity.Proofs.Service.Lookup
import Popularity.Proofs.Traffic.Rooted

/-!
# Neither phantoms nor blind spots

A lookup shows an item only if it has a row, and it says that there is none only if the store has
just said so: what the cache does not hold is asked of the store each time, and nobody remembers
that a row was missing. So once a row was made, no lookup that begins later misses it.

The history of a state has what was done, but not what a lookup was told by the cache. To speak of
that, a run is looked at through the eyes of one call: a `Hearing` is a run with all that the call
was told on it, each answer with the state in which it was given. Every run has one.

## Main definitions

* `Heard`, `Traffic.Hearing`
* `Traffic.Stage` — how far a lookup can be, and what it was told by then

## Main results

* `Traffic.exists_hearing` — every run has a hearing
* `Traffic.Hearing.not_missed` — entries have rows, and a lookup says that a row is missing just if
  it is
-/

namespace Popularity

open Service

variable {S : Type} {site : Site S} {row : S → Item → Option Counts} {kept : Item → Prop}

/-! ### Hearings -/

/-- What a call was told, and when. -/
structure Heard (S : Type) where
  state : Traffic S
  question : Call.Query
  answer : question.Answer

namespace Heard

variable {x : Heard S} {i : Item}

/-- The cache had an answer to a lookup. -/
def Hit (i : Item) (x : Heard S) : Prop := ∃ s n, x = ⟨s, .cached i, .ok (some n)⟩

/-- The store was asked for a row. -/
def AsksRow (i : Item) (x : Heard S) : Prop := x.question = .store (.counts i)

/-- The store has failed. -/
def Failed (x : Heard S) : Prop := ∃ s r why, x = ⟨s, .store r, .error why⟩

end Heard

namespace Traffic

variable {s₀ s s' : Traffic S} {c : Nat} {i : Item} {hs : List (Heard S)}

/-- Any number of steps, with all that one call was told on them, the latest first. -/
inductive Hearing (site : Site S) (c : Nat) (s₀ : Traffic S) : List (Heard S) → Traffic S → Prop
  | start : Hearing site c s₀ [] s₀
  | hear {hs : List (Heard S)} {s s' : Traffic S} {v : Visit} {q : Call.Query} {x : q.Answer}
    {next : q.Answer → Site.CallUnderway Answer} (h : Hearing site c s₀ hs s)
    (hc : s.calls.get? c = some v) (hv : v.rest = some (.ask q next))
    (hr : Replies site s c v q x s') :
    Hearing site c s₀ (⟨s, q, x⟩ :: hs) (s'.visit c ⟨v.order, some (next x), none⟩)
  /-- A step in which the call is told nothing: it still has to say what it had, or it is gone. -/
  | pass {hs : List (Heard S)} {s s' : Traffic S} (h : Hearing site c s₀ hs s)
    (hstep : Step site s s') (hquiet : ∀ v, s.calls.get? c = some v →
      ∃ v', s'.calls.get? c = some v' ∧ v'.order = v.order ∧ (v'.rest = v.rest ∨ v'.rest = none)) :
    Hearing site c s₀ hs s'

theorem Hearing.run (h : Hearing site c s₀ hs s) : Run site s₀ s := by
  induction h with
  | start => exact .refl
  | hear _ hc hv hr ih => exact ih.tail (.hear hc hv hr)
  | pass _ hstep _ ih => exact ih.tail hstep

/-- A call that is not touched still has to say what it had. -/
theorem quiet_of_calls_eq (h : s'.calls.get? c = s.calls.get? c) (v : Visit)
    (hv : s.calls.get? c = some v) : ∃ v', s'.calls.get? c = some v' ∧ v'.order = v.order ∧
      (v'.rest = v.rest ∨ v'.rest = none) :=
  ⟨v, h.trans hv, rfl, .inl rfl⟩

/-- A call that is put in another state has nothing new to say, or it is gone. -/
theorem quiet_of_visit {c' : Nat} {v₀ v₁ : Visit} (hc' : s.calls.get? c' = some v₀)
    (hcalls : s'.calls = s.calls.put c' v₁) (horder : v₁.order = v₀.order)
    (hrest : v₁.rest = v₀.rest ∨ v₁.rest = none) (v : Visit) (hv : s.calls.get? c = some v) :
    ∃ v', s'.calls.get? c = some v' ∧ v'.order = v.order ∧ (v'.rest = v.rest ∨ v'.rest = none) := by
  rw [hcalls, Table.get?_put]
  by_cases hcc : c = c'
  · subst hcc
    rw [if_pos (beq_self_eq_true c)]
    obtain rfl : v₀ = v := Option.some.inj (hc'.symm.trans hv)
    exact ⟨v₁, rfl, horder, hrest⟩
  · rw [if_neg (by simpa using hcc)]
    exact ⟨v, hv, rfl, .inl rfl⟩

/-- **Every run has a hearing.** -/
theorem exists_hearing (h : Run site s₀ s) (c : Nat) : ∃ hs, Hearing site c s₀ hs s := by
  induction h with
  | refl => exact ⟨[], .start⟩
  | tail _ hstep ih =>
    obtain ⟨hs, h⟩ := ih
    cases hstep with
    | @hear s₁ c' v q x next hc hv hr =>
      by_cases hcc : c = c'
      · subst hcc
        exact ⟨_, h.hear hc hv hr⟩
      · refine ⟨hs, h.pass (.hear hc hv hr) (quiet_of_calls_eq ?_)⟩
        rw [calls_visit, Table.get?_put, if_neg (by simpa using hcc), hr.calls_eq]
    | pass time => exact ⟨hs, h.pass (.pass _ time) (quiet_of_calls_eq rfl)⟩
    | enter c' o hc =>
      refine ⟨hs, h.pass (.enter _ c' o hc) fun v hv => ?_⟩
      have hcc : c ≠ c' := by
        rintro rfl
        rw [hc] at hv
        cases hv
      refine quiet_of_calls_eq ?_ v hv
      rw [calls_visit, Table.get?_put, if_neg (by simpa using hcc)]
    | await hc hv ht =>
      exact ⟨hs, h.pass (.await hc hv ht) (quiet_of_visit hc rfl rfl (.inl rfl))⟩
    | crash hc hv ht hnow hout =>
      exact ⟨hs, h.pass (.crash hc hv ht hnow hout) (quiet_of_visit hc rfl rfl (.inr rfl))⟩
    | start hj ht => exact ⟨hs, h.pass (.start hj ht) (quiet_of_calls_eq rfl)⟩
    | finish hj hended ht hnow =>
      exact ⟨hs, h.pass (.finish hj hended ht hnow) (quiet_of_calls_eq rfl)⟩
    | lose hj hended ht => exact ⟨hs, h.pass (.lose hj hended ht) (quiet_of_calls_eq rfl)⟩

/-! ### Stages of a lookup -/

/-- Whether a question can come after the counts. -/
def isTrailing (q : Call.Query) : Bool := Lookup.isGlance q || q.isAside

/-- How far a lookup can be, and what it was told by then. -/
inductive Stage (row : S → Item → Option Counts) (i : Item) (o : Order) (s : Traffic S) :
    List (Heard S) → Site.CallUnderway Answer → Prop
  | fresh : Stage row i o s [] o.call.run
  | missed {hs : List (Heard S)} {f : Counts → Call Answer} {d : Site.CallUnderway Answer}
    (hhit : ∀ x ∈ hs, ¬ x.Hit i) (hasks : ∀ x ∈ hs, ¬ x.AsksRow i) (hd : Lookup.Fetching i f d)
    (hf : ∀ n, (f n).run.Meets (fun q => isTrailing q = true) (fun _ _ => True)
      fun r => ∃ a, r = .ok a) : Stage row i o s hs d
  /-- It has the counts, from the cache or from the store, and there was a row each time. -/
  | told {hs : List (Heard S)} {d : Site.CallUnderway Answer}
    (hsome : (∃ x ∈ hs, x.Hit i) ∨ ∀ x ∈ hs, x.AsksRow i → row x.state.store i ≠ none)
    (hrow : (row s.store i).isSome) (hd : d.Meets (fun q => isTrailing q = true) (fun _ _ => True)
      fun r => ∃ a, r = .ok a) : Stage row i o s hs d
  | absent {hs : List (Heard S)} {x : Heard S} (hhit : ∀ x ∈ hs, ¬ x.Hit i) (hx : x ∈ hs)
    (hasks : x.AsksRow i) (hrow : row x.state.store i = none) :
    Stage row i o s hs (.done (.error (.uncounted i)))
  | failed {hs : List (Heard S)} {why : StoreFailure} {x : Heard S} (hx : x ∈ hs)
    (hfailed : x.Failed) : Stage row i o s hs (.done (.error (.store why)))

variable {o : Order} {v : Visit} {q : Call.Query} {x : q.Answer} {d : Site.CallUnderway Answer}
variable {next : q.Answer → Site.CallUnderway Answer}

/-- Whatever a lookup was told, rows last. -/
theorem Stage.frame (h : Stage row i o s hs d)
    (hrow : (row s.store i).isSome → (row s'.store i).isSome) : Stage row i o s' hs d := by
  cases h with
  | fresh => exact .fresh
  | missed hhit hasks hd hf => exact .missed hhit hasks hd hf
  | told hsome hold hd => exact .told hsome (hrow hold) hd
  | absent hhit hx hasks hnone => exact .absent hhit hx hasks hnone
  | failed hx hfailed => exact .failed hx hfailed

/-- What the cache holds of an item has a row. -/
theorem Rooted.isSome_of_get (hroot : Rooted row kept s) {n : Counts}
    (h : (s.cache.get s.now i).1 = some n) : (row s.store i).isSome := by
  obtain ⟨e, he, hname, -, -⟩ := Cache.get_eq_some h
  obtain ⟨j, hj, hrow⟩ := hroot.entry e he
  obtain rfl : j = i := Item.cacheKey_injective (hj.symm.trans hname)
  exact hrow

/-- What comes after the counts is no lookup. -/
theorem exists_counts_of_looksUp (ho : o.LooksUp i) : ∃ within f,
    o.call = Service.counts i within >>= f ∧ ∀ n, (f n).run.Meets (fun q => isTrailing q = true)
      (fun _ _ => True) fun r => ∃ a, r = .ok a := by
  obtain ⟨within, f, hcall, hf⟩ := o.call_of_looksUp ho
  refine ⟨within, f, hcall, fun n => (hf n).imp ?_ (fun _ _ _ => trivial) ?_⟩
  · intro q hq
    rw [isTrailing, hq, Bool.true_or]
  · rintro r ⟨a, rfl, -⟩
    exact ⟨_, rfl⟩

/-- The cache is asked. -/
theorem stage_cached (ho : o.LooksUp i) (hroot : Rooted row kept s)
    (hrun : o.call.run = .ask q next) (hr : Replies site s c v q x s') :
    Stage row i o s' [⟨s, q, x⟩] (next x) := by
  obtain ⟨within, f, hcall, hf⟩ := exists_counts_of_looksUp ho
  obtain ⟨next', hcounts, hhit, hmiss⟩ := Lookup.exists_run_counts i within f
  rw [hcall, hcounts] at hrun
  cases hrun
  by_cases hx : ∃ n, x = .ok (some n)
  · obtain ⟨n, rfl⟩ := hx
    rw [hhit]
    refine .told (.inl ⟨_, List.mem_cons_self, s, n, rfl⟩) ?_ ⟨rfl, fun _ _ => hf n⟩
    generalize heq : (Except.ok (some n) : Except CacheFailure (Option Counts)) = x at hr
    cases hr with
    | cached => exact hroot.isSome_of_get (Except.ok.inj heq).symm
    | cacheFailed => cases heq
  · refine .missed (List.forall_mem_singleton.mpr ?_) (List.forall_mem_singleton.mpr ?_)
      (hmiss x fun n hn => hx ⟨n, hn⟩) hf
    · rintro ⟨s₁, n, heq⟩
      cases heq
      exact hx ⟨n, rfl⟩
    · intro hasks
      cases hasks

/-- The store is asked. -/
theorem stage_stored {f : Counts → Call Answer} {x : Except StoreFailure (Option Counts)}
    (hsite : site.Lasting row kept) (hhit : ∀ y ∈ hs, ¬ y.Hit i) (hasks : ∀ y ∈ hs, ¬ y.AsksRow i)
    (hf : ∀ n, (f n).run.Meets (fun q => isTrailing q = true) (fun _ _ => True)
      fun r => ∃ a, r = .ok a) (hr : Replies site s c v (.store (.counts i)) x s') :
    Stage row i o s' (⟨s, .store (.counts i), x⟩ :: hs) (Lookup.afterStore i f x) := by
  have hrow : ∀ n, x = .ok n → row s.store i = n := by
    intro n hn
    cases hr with
    | store => exact hsite.tells i s.store n hn
    | storeFailed => cases hn
  rcases x with why | n
  · exact .failed List.mem_cons_self ⟨s, _, why, rfl⟩
  · cases n with
    | none =>
      refine .absent (List.forall_mem_cons.mpr ⟨?_, hhit⟩) List.mem_cons_self rfl (hrow none rfl)
      rintro ⟨s₁, n, heq⟩
      cases heq
    | some n =>
      have hsome : row s.store i ≠ none := by
        rw [hrow _ rfl]
        exact Option.some_ne_none n
      exact .told (.inr (List.forall_mem_cons.mpr
          ⟨fun _ => hsome, fun y hy hy' => absurd hy' (hasks y hy)⟩))
        (hr.isSome_row hsite (Option.isSome_iff_ne_none.mpr hsome)) ⟨rfl, fun _ _ => hf n⟩

/-- **What a lookup is told takes it from one stage to the next.** -/
theorem Stage.hear (h : Stage row i o s hs (.ask q next)) (ho : o.LooksUp i)
    (hsite : site.Lasting row kept) (hroot : Rooted row kept s) (hr : Replies site s c v q x s') :
    Stage row i o s' (⟨s, q, x⟩ :: hs) (next x) := by
  generalize heq : (Dialogue.ask q next : Site.CallUnderway Answer) = d at h
  cases h with
  | fresh => exact stage_cached ho hroot heq.symm hr
  | missed hhit hasks hd hf =>
    cases hd with
    | fetch =>
      rw [Lookup.run_fetch_bind] at heq
      cases heq
      exact stage_stored hsite hhit hasks hf hr
    | report r hd =>
      cases heq
      refine .missed (List.forall_mem_cons.mpr ⟨?_, hhit⟩) (List.forall_mem_cons.mpr ⟨?_, hasks⟩)
        hd hf
      · rintro ⟨s₁, n, heq⟩
        cases heq
      · intro hy
        cases hy
  | told hsome hrow hd =>
    subst heq
    refine .told ?_ (hr.isSome_row hsite hrow) (hd.2 x trivial)
    refine hsome.imp (fun ⟨y, hy, hhit⟩ => ⟨y, List.mem_cons_of_mem _ hy, hhit⟩)
      fun hsome => List.forall_mem_cons.mpr ⟨fun hy => ?_, hsome⟩
    -- what comes after the counts does not ask for them
    obtain rfl : q = .store (.counts i) := hy
    cases hd.1
  | absent | failed => cases heq

/-- A call that is new is at its beginning. -/
theorem Step.eq_fresh (h : Step site s s') (hc : s.calls.get? c = none)
    (hv : s'.calls.get? c = some v) : v = ⟨v.order, some v.order.call.run, none⟩ := by
  have hput {c' : Nat} {v₀ v₁ : Visit} (hc' : s.calls.get? c' = some v₀)
      (hcalls : s'.calls = s.calls.put c' v₁) : False := by
    rw [hcalls] at hv
    obtain ⟨rfl, -⟩ | ⟨-, hv⟩ := Table.get?_put_eq_some hv
    · rw [hc] at hc'
      cases hc'
    · rw [hc] at hv
      cases hv
  cases h with
  | enter c' o hc' =>
    obtain ⟨-, rfl⟩ | ⟨-, hv⟩ := Table.get?_put_eq_some hv
    · rfl
    · rw [hc] at hv
      cases hv
  | hear hc' hv' hr => exact (hput hc' (by rw [calls_visit, hr.calls_eq])).elim
  | await hc' => exact (hput hc' rfl).elim
  | crash hc' => exact (hput hc' rfl).elim
  | pass | start | finish | lose => exact absurd (hc.symm.trans hv) nofun

/-- **A lookup is always at one of its stages.** -/
theorem Hearing.stage {limit : Nat} {store : S} {opt : Cache.Options}
    (hsite : site.Lasting row kept) (h₀ : Run site (Traffic.opening limit store opt) s₀)
    (hc₀ : s₀.calls.get? c = none) (h : Hearing site c s₀ hs s) :
    (s.calls.get? c = none → hs = []) ∧ ∀ v i d, s.calls.get? c = some v → v.order.LooksUp i →
      v.rest = some d → Stage row i v.order s hs d := by
  induction h with
  | start => exact ⟨fun _ => rfl, fun v i d hv => absurd (hc₀.symm.trans hv) nofun⟩
  | @hear hs s s' v q x next h hc hv hr ih =>
    have hroot : Rooted row kept s := Run.rooted (h₀.trans h.run) hsite
    have hself : (s'.visit c ⟨v.order, some (next x), none⟩).calls.get? c
        = some ⟨v.order, some (next x), none⟩ := by simp [Table.get?_put]
    refine ⟨fun hnone => absurd (hself.symm.trans hnone) nofun, ?_⟩
    intro v' i d hv' ho hd
    obtain rfl := Option.some.inj (hself.symm.trans hv')
    cases hd
    have hstage : Stage row i v.order s hs (.ask q next) := ih.2 v i _ hc ho hv
    exact (hstage.hear ho hsite hroot hr).frame id
  | @pass hs s s' h hstep hquiet ih =>
    cases hc : s.calls.get? c with
    | none =>
      rw [ih.1 hc]
      refine ⟨fun _ => rfl, fun v i d hv ho hd => ?_⟩
      rw [hstep.eq_fresh hc hv] at hd
      cases hd
      exact .fresh
    | some v =>
      obtain ⟨v', hv', horder, hrest⟩ := hquiet v hc
      refine ⟨fun hnone => absurd (hv'.symm.trans hnone) nofun, ?_⟩
      intro v'' i d hv'' ho hd
      obtain rfl := Option.some.inj (hv'.symm.trans hv'')
      rw [horder] at ho ⊢
      obtain hrest | hrest := hrest <;> rw [hrest] at hd
      · exact (ih.2 v i d hc ho hd).frame (hstep.isSome_row hsite)
      · cases hd

/-! ### Results -/

/-- What a call was told, it was told on the way. -/
theorem Hearing.run_of_mem (h : Hearing site c s₀ hs s) {x : Heard S} (hx : x ∈ hs) :
    Run site s₀ x.state := by
  induction h with
  | start => cases hx
  | hear h hc hv hr ih =>
    obtain rfl | hx := List.mem_cons.mp hx
    · exact h.run
    · exact ih hx
  | pass _ _ _ ih => exact ih hx

/-- How a lookup can end. -/
theorem Stage.done_cases {result : Except CallFailure Answer}
    (h : Stage row i o s hs (.done result)) (ho : o.LooksUp i) :
    (∃ a, result = .ok a ∧ (row s.store i).isSome ∧
      ((∃ x ∈ hs, x.Hit i) ∨ ∀ x ∈ hs, x.AsksRow i → row x.state.store i ≠ none)) ∨
    (result = .error (.uncounted i) ∧ (∀ x ∈ hs, ¬ x.Hit i) ∧
      ∃ x ∈ hs, x.AsksRow i ∧ row x.state.store i = none) ∨
    ∃ why, result = .error (.store why) ∧ ∃ x ∈ hs, x.Failed := by
  generalize heq : (Dialogue.done result : Site.CallUnderway Answer) = d at h
  cases h with
  | fresh =>
    obtain ⟨next, hrun, -⟩ := o.meets_of_looksUp ho fun _ => True
    rw [hrun] at heq
    cases heq
  | missed hhit hasks hd =>
    cases hd with
    | fetch =>
      rw [Lookup.run_fetch_bind] at heq
      cases heq
    | report r => cases heq
  | told hsome hrow hd =>
    subst heq
    obtain ⟨a, rfl⟩ := hd
    exact .inl ⟨a, rfl, hrow, hsome⟩
  | absent hhit hx hasks hnone =>
    cases heq
    exact .inr (.inl ⟨rfl, hhit, _, hx, hasks, hnone⟩)
  | failed hx hfailed =>
    cases heq
    exact .inr (.inr ⟨_, rfl, _, hx, hfailed⟩)

/-- A lookup that shows an item has seen a row. -/
theorem Stage.isSome_row {a : Answer} (h : Stage row i o s hs (.done (.ok a)))
    (ho : o.LooksUp i) : (row s.store i).isSome := by
  obtain ⟨-, -, hrow, -⟩ | ⟨heq, -⟩ | ⟨why, heq, -⟩ := h.done_cases ho
  · exact hrow
  · cases heq
  · cases heq

/-- A lookup that misses a row has asked the store for it. -/
theorem Stage.exists_of_uncounted (h : Stage row i o s hs (.done (.error (.uncounted i))))
    (ho : o.LooksUp i) : ∃ x ∈ hs, row x.state.store i = none := by
  obtain ⟨a, heq, -⟩ | ⟨-, -, x, hx, -, hnone⟩ | ⟨why, heq, -⟩ := h.done_cases ho
  · cases heq
  · exact ⟨x, hx, hnone⟩
  · cases heq

/-- A lookup says that there is no row just if the cache had no answer, and the store had no row
when it was asked. -/
theorem Stage.eq_uncounted_iff {result : Except CallFailure Answer}
    (h : Stage row i o s hs (.done result)) (ho : o.LooksUp i) (hfailed : ∀ x ∈ hs, ¬ x.Failed) :
    result = .error (.uncounted i) ↔
      (∀ x ∈ hs, ¬ x.Hit i) ∧ ∃ x ∈ hs, x.AsksRow i ∧ row x.state.store i = none := by
  obtain ⟨a, rfl, -, hsome⟩ | ⟨rfl, hhit, hx⟩ | ⟨why, rfl, x, hx, hx'⟩ := h.done_cases ho
  · refine iff_of_false nofun ?_
    rintro ⟨hhit, x, hx, hasks, hnone⟩
    obtain ⟨y, hy, hy'⟩ | hsome := hsome
    · exact hhit y hy hy'
    · exact hsome x hx hasks hnone
  · exact iff_of_true rfl ⟨hhit, hx⟩
  · exact absurd hx' (hfailed x hx)

/-- **Neither phantoms nor blind spots.** In every state that is reached, every entry of the cache
has a row. A lookup that shows an item does so while there is a row; if the store does not fail it,
it says that there is none just if the cache had no answer and the store had no row when it was
asked; and it never says so if the item was written about, by a write that changed something, before
the lookup began. -/
theorem Hearing.not_missed {limit : Nat} {store : S} {opt : Cache.Options}
    (hsite : site.Lasting row kept) (h₀ : Run site (Traffic.opening limit store opt) s₀)
    (hc₀ : s₀.calls.get? c = none) (h : Hearing site c s₀ hs s) :
    (∀ e ∈ s.cache.entries, ∃ i, e.name = i.cacheKey ∧ (row s.store i).isSome) ∧
    ∀ v i result, s.calls.get? c = some v → v.order.LooksUp i → v.rest = some (.done result) →
      (∀ a, result = .ok a → (row s.store i).isSome) ∧
      ((∀ x ∈ hs, ¬ x.Failed) → (result = .error (.uncounted i) ↔
        (∀ x ∈ hs, ¬ x.Hit i) ∧ ∃ x ∈ hs, x.AsksRow i ∧ row x.state.store i = none)) ∧
      ∀ t c' w, (t, .recorded c' w) ∈ s₀.history → (∃ a ∈ w.adjustments, a.item = i) → kept i →
        result ≠ .error (.uncounted i) := by
  refine ⟨(Run.rooted (h₀.trans h.run) hsite).entry, ?_⟩
  intro v i result hc ho hdone
  have hstage : Stage row i v.order s hs (.done result) :=
    (h.stage hsite h₀ hc₀).2 v i _ hc ho hdone
  refine ⟨?_, hstage.eq_uncounted_iff ho, ?_⟩
  · rintro a rfl
    exact hstage.isSome_row ho
  · rintro t c' w hmem ⟨a, ha, rfl⟩ hkept rfl
    have hrow : (row s₀.store a.item).isSome :=
      (Run.rooted h₀ hsite).written t c' w hmem a ha hkept
    obtain ⟨x, hx, hnone⟩ := hstage.exists_of_uncounted ho
    have hlast := (h.run_of_mem hx).isSome_row hsite hrow
    rw [hnone] at hlast
    cases hlast

section Discovery

open Ledger

/-- The ledger when an article was read once. -/
def discovered : Ledger := { counts := [(article, ⟨1, 0, 0⟩)] }

theorem answer_missing : Ledger.answer (.counts article) {} = (.ok none, {}) := rfl

theorem answer_discovery : Ledger.answer (.write (.read article)) {} = (.ok true, discovered) := rfl

theorem answer_discovered :
    Ledger.answer (.counts article) discovered = (.ok (some ⟨1, 0, 0⟩), discovered) := rfl

/-- An article is looked up before anybody has read it, then it is read, and looked up again. -/
theorem exists_discovery : ∃ (s₁ s₂ s₃ : Traffic Ledger) (hs : List (Heard Ledger)) (v v' : Visit)
    (result : Except CallFailure Answer),
    Hearing registry.toSite 0 (Traffic.opening 500 {} {}) hs s₁ ∧ (∀ x ∈ hs, ¬ x.Failed) ∧
      s₁.calls.get? 0 = some v ∧ v.order = .counts article ∧
      v.rest = some (.done (.error (.uncounted article))) ∧
      Run registry.toSite s₁ s₂ ∧ (0, .recorded 1 (.read article)) ∈ s₂.history ∧
      s₂.calls.get? 2 = none ∧ Run registry.toSite s₂ s₃ ∧ s₃.calls.get? 2 = some v' ∧
      v'.order = .counts article ∧ v'.rest = some (.done result) := by
  have at_ {s₀ s : Traffic Ledger} (_ : Run registry.toSite s₀ s) : Run registry.toSite s s := .refl
  have h₀ : Hearing registry.toSite 0 (Traffic.opening 500 {} {}) [] (Traffic.opening 500 {} {}) :=
    .start
  have h₁ := h₀.pass (.enter _ 0 (.counts article) rfl) nofun
  have h₂ := h₁.hear (c := 0) rfl rfl (.cached article)
  have h₃ := h₂.hear (c := 0) rfl rfl (.reported _)
  have h₄ := h₃.hear (c := 0) rfl rfl (.answered answer_missing)
  have r₁ := (at_ h₄.run).tail (.enter _ 1 (.record (.read article)) rfl)
  have r₂ := r₁.tail (.hear (c := 1) rfl rfl (.answered answer_discovery))
  have r₃ := (at_ r₂).tail (.enter _ 2 (.counts article) rfl)
  have r₄ := r₃.tail (.hear (c := 2) rfl rfl (.cached article))
  have r₅ := r₄.tail (.hear (c := 2) rfl rfl (.reported _))
  have r₆ := r₅.tail (.hear (c := 2) rfl rfl (.answered answer_discovered))
  have r₇ := r₆.tail (.hear (c := 2) rfl rfl (.detached _ 0 rfl))
  refine ⟨_, _, _, _, _, _, _, h₄, List.forall_mem_cons.mpr ⟨?_, List.forall_mem_cons.mpr ⟨?_,
    List.forall_mem_singleton.mpr ?_⟩⟩, rfl, rfl, rfl, r₂, .head _, rfl, r₇, rfl, rfl, rfl⟩
  all_goals
    rintro ⟨s, r, why, heq⟩
    cases heq

/-- The first lookup is told that there is no row, and the second one is not. -/
theorem not_missed_discovery : ∃ (s₁ s₂ s₃ : Traffic Ledger) (hs : List (Heard Ledger)) (v : Visit)
    (result : Except CallFailure Answer),
    Hearing registry.toSite 0 (Traffic.opening 500 {} {}) hs s₁ ∧
      (∃ x ∈ hs, x.AsksRow article ∧ registry.row x.state.store article = none) ∧
      Run registry.toSite s₁ s₂ ∧ Run registry.toSite s₂ s₃ ∧ s₃.calls.get? 2 = some v ∧
      v.rest = some (.done result) ∧ result ≠ .error (.uncounted article) := by
  obtain ⟨s₁, s₂, s₃, hs, v, v', result, h, hfailed, hv, ho, hd, hrun, hread, habsent, hrun', hv',
    ho', hd'⟩ := exists_discovery
  obtain ⟨hs', h'⟩ := exists_hearing hrun' 2
  have hfirst := (Hearing.not_missed registry.lasting .refl rfl h).2 v article _ hv (.inl ho) hd
  have hsecond := (Hearing.not_missed registry.lasting (h.run.trans hrun) habsent h').2 v' article
    result hv' (.inl ho') hd'
  exact ⟨s₁, s₂, s₃, hs, v', result, h, ((hfirst.2.1 hfailed).mp rfl).2, hrun, hrun', hv', hd',
    hsecond.2.2 0 1 _ hread ⟨_, List.mem_cons_self, rfl⟩ trivial⟩

end Discovery

end Traffic

end Popularity
