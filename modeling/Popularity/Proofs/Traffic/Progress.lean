import Popularity.Proofs.Traffic.Basic

/-!
# What one step can do

A step adds at most one deed to the history. Whatever it does to the rows of the store and to the
entries of the cache can be read off this deed, and so can who was entitled to it: an entry is set
or adjusted only by a job that was left, or by a call that awaits just that, and only within its
time.

So what holds along a run of the rows, the entries and the history is proved from `Progress`, once
for each sort of deed and not once for each kind of step.

## Main definitions

* `Traffic.Entitled` — who may adjust an entry
* `Traffic.Provenance` — where an entry of the cache comes from in one step
* `Traffic.Progress` — all that a step does to the store, the cache and the history

## Main results

* `Traffic.Step.progress`
-/

namespace Popularity.Traffic

variable {S : Type} {site : Registry S} {s s' : Traffic S} {d : Option Deed} {e : Entry}

/-! ### Entitlement -/

/-- A call or a job that is about to do an upkeep, and has the time to. -/
def Entitled (s : Traffic S) (u : Upkeep) : Prop :=
  (∃ c v t, s.calls.get? c = some v ∧ u ∈ v.due ∧ v.since = some t ∧ s.now ≤ t + s.limit) ∨
    ∃ j ch t, s.jobs.get? j = some ch ∧ ch.job = u ∧ ch.ended = false ∧ ch.since = some t ∧
      s.now ≤ t + s.limit

/-- Where an entry of the cache comes from, after a step with a deed. -/
inductive Provenance (s : Traffic S) (d : Option Deed) (e : Entry) : Prop
  | placed (j : Nat) (i : Item) (n : Counts) (hd : d = some (.placed j i n))
    (he : e = ⟨i.cacheKey, n, s.now + s.cache.lifetime⟩)
  | adjusted (a : Adjustment) (e₀ : Entry) (hd : d = some (.settled a true))
    (he₀ : e₀ ∈ s.cache.entries) (hname : e₀.name = a.item.cacheKey)
    (hcounts : e₀.counts.add? a.counter a.by_ = some e.counts) (he : e.name = e₀.name)
    (hexpires : e.expiresAt = e₀.expiresAt)
  | kept (he : e ∈ s.cache.entries)
    (hplaced : ∀ j i n, d = some (.placed j i n) → e.name ≠ i.cacheKey)
    (hadjusted : ∀ a, d = some (.settled a true) → e.name ≠ a.item.cacheKey)

/-- An entry that stays as it is, in a step whose deed is about other things. -/
theorem Provenance.kept_of_mem (he : e ∈ s.cache.entries)
    (hplaced : ∀ j i n, d ≠ some (.placed j i n))
    (hadjusted : ∀ a, d ≠ some (.settled a true)) : Provenance s d e :=
  .kept he (fun j i n hd => absurd hd (hplaced j i n)) fun a hd => absurd hd (hadjusted a)

/-! ### Progress -/

/-- What a step with a deed, or none, does to the store, the cache and the history. -/
structure Progress (site : Registry S) (s s' : Traffic S) (d : Option Deed) : Prop where
  limit_eq : s'.limit = s.limit
  lifetime_eq : s'.cache.lifetime = s.cache.lifetime
  now_le : s.now ≤ s'.now
  history_eq : s'.history = d.toList.map (s.now, ·) ++ s.history
  row_moved : ∀ i, Row.Moved i (d.elim [] Deed.changes) (site.row s.store i) (site.row s'.store i)
  row_found : ∀ c i n, d = some (.found c i n) → site.row s'.store i = n
  provenance : ∀ e ∈ s'.cache.entries, Provenance s d e
  placer : ∀ j i n, d = some (.placed j i n) → ∃ ch t, s.jobs.get? j = some ch ∧
    ch.job = .populate i n ∧ ch.ended = false ∧ ch.since = some t ∧ s.now ≤ t + s.limit
  settler : ∀ a, d = some (.settled a true) → s.Entitled (.adjust a)

namespace Progress

/-- Whatever is in the history was done just now, or it was there before. -/
theorem mem_history (h : Progress site s s' d) {x : Nat × Deed} (hx : x ∈ s'.history) :
    d = some x.2 ∧ x.1 = s.now ∨ x ∈ s.history := by
  rw [h.history_eq, List.mem_append] at hx
  rcases hx with hx | hx
  · obtain ⟨d', hd', rfl⟩ := List.mem_map.mp hx
    exact .inl ⟨Option.mem_toList.mp hd', rfl⟩
  · exact .inr hx

/-- Nothing has happened. -/
theorem refl (s : Traffic S) : Progress site s s none where
  limit_eq := rfl
  lifetime_eq := rfl
  now_le := Nat.le_refl _
  history_eq := rfl
  row_moved _ := Row.Moved.refl
  row_found := nofun
  provenance _ he := .kept_of_mem he nofun nofun
  placer := nofun
  settler := nofun

/-- Progress does not ask where the calls are. -/
theorem visit (h : Progress site s s' d) (c : Nat) (v : Visit) : Progress site s (s'.visit c v) d :=
  { h with }

theorem chore (h : Progress site s s' d) (j : Nat) (ch : Chore) :
    Progress site s (s'.chore j ch) d :=
  { h with }

/-- A deed that changed neither the rows nor the entries. -/
theorem note (hr : d.elim [] Deed.changes = []) (hf : ∀ c i n, d = some (.found c i n) →
      site.row s.store i = n) (hp : ∀ j i n, d ≠ some (.placed j i n))
    (ha : ∀ a, d ≠ some (.settled a true)) : Progress site s (s.note d) d where
  limit_eq := rfl
  lifetime_eq := rfl
  now_le := Nat.le_refl _
  history_eq := rfl
  row_moved _ := by rw [hr]; exact Row.Moved.refl
  row_found := hf
  provenance _ he := .kept_of_mem he hp ha
  placer j i n hd := absurd hd (hp j i n)
  settler a hd := absurd hd (ha a)

end Progress

/-! ### Deeds at the store -/

/-- The store is remembered for what it has changed and what it has told. -/
theorem ofAnswer_eq_some {c : Nat} {r : Request}
    {x : Except StoreFailure r.Answer} {d : Deed} (h : Deed.ofAnswer c r x = some d) :
    (∃ w, d = .recorded c w) ∨ ∃ i n, d = .found c i n := by
  unfold Deed.ofAnswer at h
  split at h <;> cases h
  · exact .inl ⟨_, rfl⟩
  · exact .inr ⟨_, _, rfl⟩

theorem moved_answer (site : Registry S) (l : S) (c : Nat) (r : Request) (i : Item) :
    Row.Moved i ((Deed.ofAnswer c r (site.answer r l).1).elim [] Deed.changes) (site.row l i)
      (site.row (site.answer r l).2 i) := by
  cases r with
  | write w =>
    have hchanged := site.row_changed w l
    have hunchanged := site.row_unchanged w l
    rcases hx : (site.answer (.write w) l).1 with why | b
    · rw [hunchanged (by simp [hx])]; exact Row.Moved.refl
    · cases b with
      | false => rw [hunchanged (by simp [hx])]; exact Row.Moved.refl
      | true => exact hchanged hx i
  | counts i => rw [site.answer_counts]; exact Row.Moved.refl
  | countsOf kind ids => rw [site.answer_lookup _ _ (by simp)]; exact Row.Moved.refl
  | marked m i user => rw [site.answer_lookup _ _ (by simp)]; exact Row.Moved.refl

theorem found_answer (site : Registry S) (l : S) {c c' : Nat} {r : Request} {i : Item}
    {n : Option Counts} (h : Deed.ofAnswer c r (site.answer r l).1 = some (.found c' i n)) :
    site.row (site.answer r l).2 i = n := by
  cases r with
  | write w =>
    rcases hx : (site.answer (.write w) l).1 with why | b
    · rw [hx] at h; cases h
    · rw [hx] at h; cases b <;> cases h
  | counts j => rw [site.answer_counts] at h ⊢; cases h; rfl
  | countsOf kind ids => cases h
  | marked m j user => cases h

/-- A row that was told is the row that is there, and nothing but a write that changed something
moves the rows. -/
theorem Progress.store (site : Registry S) (s : Traffic S) (c : Nat) (r : Request) :
    Progress site s ({ s with store := (site.answer r s.store).2 }.note
      (Deed.ofAnswer c r (site.answer r s.store).1))
      (Deed.ofAnswer c r (site.answer r s.store).1) where
  limit_eq := rfl
  lifetime_eq := rfl
  now_le := Nat.le_refl _
  history_eq := rfl
  row_moved := moved_answer site s.store c r
  row_found _ _ _ hd := found_answer site s.store hd
  provenance _ he := .kept_of_mem he
    (fun j i n hd => by rcases ofAnswer_eq_some hd with ⟨_, h⟩ | ⟨_, _, h⟩ <;> cases h)
    (fun a hd => by rcases ofAnswer_eq_some hd with ⟨_, h⟩ | ⟨_, _, h⟩ <;> cases h)
  placer j i n hd := by rcases ofAnswer_eq_some hd with ⟨_, h⟩ | ⟨_, _, h⟩ <;> cases h
  settler a hd := by rcases ofAnswer_eq_some hd with ⟨_, h⟩ | ⟨_, _, h⟩ <;> cases h

/-! ### Deeds at the cache -/

/-- An adjustment of the cache by somebody who is entitled to it. -/
theorem Progress.adjust {a : Adjustment} {x : Except Crash Adjusted} {cache : Cache}
    (hu : s.Entitled (.adjust a)) (hx : s.cache.adjust s.now a.item a.counter a.by_ = (x, cache)) :
    Progress site s ({ s with cache }.note (some (.settled a (Adjusted.took x))))
      (some (.settled a (Adjusted.took x))) where
  limit_eq := rfl
  lifetime_eq := by
    have hcache : cache = (s.cache.adjust s.now a.item a.counter a.by_).2 :=
      (congrArg Prod.snd hx).symm
    rw [hcache]
    exact Cache.lifetime_adjust
  now_le := Nat.le_refl _
  history_eq := rfl
  row_moved _ := Row.Moved.refl
  row_found := nofun
  provenance e he := by
    have he' : e ∈ (s.cache.adjust s.now a.item a.counter a.by_).2.entries := by
      rw [hx]
      exact he
    have hmem := Cache.mem_entries_adjust he'
    rw [hx] at hmem
    rcases hmem with ⟨e₀, he₀, hname, -, hcounts, hsame, hexpires, htook⟩ | ⟨he', hne⟩
    · exact .adjusted a e₀ (by rw [htook]) he₀ hname hcounts hsame hexpires
    · refine .kept he' nofun fun b hb => ?_
      injection hb with hb
      injection hb with hb htook
      subst hb
      obtain ⟨out, hout⟩ := Adjusted.ok_of_took htook
      exact hne out hout
  placer := nofun
  settler b hb := by
    injection hb with hb
    injection hb with hb
    exact hb ▸ hu

/-- A job that sets an entry is remembered only if it does. -/
theorem ofWork_populate {j : Nat} {i : Item} {n : Counts} {x : Except Crash Unit} {d : Deed}
    (h : Deed.ofWork j (.populate i n) x = some d) : x = .ok () ∧ d = .placed j i n := by
  cases x with
  | error crash => cases h
  | ok _ => cases h; exact ⟨rfl, rfl⟩

/-- Counts that are set by the job that was left for it. -/
theorem Progress.place {j t : Nat} {ch : Chore} {i : Item} {n : Counts} {x : Except Crash Unit}
    {cache : Cache} (hj : s.jobs.get? j = some ch) (hjob : ch.job = .populate i n)
    (hended : ch.ended = false) (ht : ch.since = some t) (hnow : s.now ≤ t + s.limit)
    (hx : s.cache.set s.now i n = (x, cache)) :
    Progress site s ({ s with cache }.note (Deed.ofWork j (.populate i n) x))
      (Deed.ofWork j (.populate i n) x) where
  limit_eq := rfl
  lifetime_eq := by
    have hcache : cache = (s.cache.set s.now i n).2 := (congrArg Prod.snd hx).symm
    rw [hcache]
    exact Cache.lifetime_set
  now_le := Nat.le_refl _
  history_eq := rfl
  row_moved _ := by cases x <;> exact Row.Moved.refl
  row_found c k m hd := by rcases ofWork_populate hd with ⟨_, h⟩; cases h
  provenance e he := by
    have he' : e ∈ (s.cache.set s.now i n).2.entries := by
      rw [hx]
      exact he
    have hmem := Cache.mem_entries_set he'
    rw [hx] at hmem
    rcases hmem with ⟨rfl, rfl⟩ | ⟨he', hne⟩
    · exact .placed j i n rfl rfl
    · refine .kept he' ?_ ?_
      · intro j' k m hd
        obtain ⟨hok, h⟩ := ofWork_populate hd
        cases h
        exact hne hok
      · intro a hd
        rcases ofWork_populate hd with ⟨_, h⟩; cases h
  placer j' k m hd := by
    obtain ⟨-, h⟩ := ofWork_populate hd
    cases h
    exact ⟨ch, t, hj, hjob, hended, ht, hnow⟩
  settler a hd := by rcases ofWork_populate hd with ⟨_, h⟩; cases h

/-- The work of a job that is within its time. -/
theorem Progress.exec {j t : Nat} {ch : Chore} (hj : s.jobs.get? j = some ch)
    (hended : ch.ended = false) (ht : ch.since = some t) (hnow : s.now ≤ t + s.limit) :
    Progress site s ({ s with cache := (s.cache.exec s.now ch.job.op).2 }.note
      (Deed.ofWork j ch.job (s.cache.exec s.now ch.job.op).1))
      (Deed.ofWork j ch.job (s.cache.exec s.now ch.job.op).1) := by
  obtain ⟨job, left, since, ended⟩ := ch
  cases job with
  | adjust a => exact .adjust (.inr ⟨j, _, t, hj, rfl, hended, ht, hnow⟩) rfl
  | populate i n => exact .place hj rfl hended ht hnow rfl

/-- A job that does nothing. -/
theorem Progress.lose (s : Traffic S) (u : Upkeep) :
    Progress site s (s.note (Deed.ofLoss u)) (Deed.ofLoss u) := by
  refine .note (Deed.changes_ofLoss u) ?_ ?_ ?_ <;> cases u <;> simp [Deed.ofLoss]

/-! ### Steps -/

/-- A reply makes progress. Who looks into the cache is the call that is answered. -/
theorem Replies.progress {c : Nat} {v : Visit} {q : Call.Query} {x : q.Answer}
    {next : q.Answer → Site.CallUnderway Service.Answer} (hc : s.calls.get? c = some v)
    (hv : v.rest = some (.ask q next)) (h : Replies site.toSite s c v q x s') :
    ∃ d, Progress site s s' d ∧ ∀ c' i, d = some (.looked c' i) → c' = c ∧ q = .cached i := by
  cases h with
  | store r =>
    refine ⟨_, .store site s c r, ?_⟩
    intro c' i hd
    rcases ofAnswer_eq_some hd with ⟨_, h⟩ | ⟨_, _, h⟩ <;> cases h
  | storeFailed r why => exact ⟨none, .refl s, by simp⟩
  | marks i user looked => exact ⟨none, .refl s, by simp⟩
  | cached i =>
    exact ⟨some (.looked c i),
      { Progress.note (d := some (.looked c i)) rfl (by simp) (by simp) (by simp) with
        lifetime_eq := Cache.lifetime_get
        provenance := fun e he => .kept_of_mem (Cache.mem_entries_get he) (by simp) (by simp) },
      fun c' j hd => by cases hd; exact ⟨rfl, rfl⟩⟩
  | cacheFailed i why =>
    exact ⟨_, .note rfl (by simp) (by simp) (by simp), fun c' j hd => by cases hd; exact ⟨rfl, rfl⟩⟩
  | adjusted b t out cache ht hnow hout =>
    exact ⟨_, .adjust (.inl ⟨c, v, t, hc, by simp [Visit.due, hv], ht, hnow⟩) hout, by simp⟩
  | adjustFailed b t why ht => exact ⟨_, .note rfl (by simp) (by simp) (by simp), by simp⟩
  | adjustLate b t ht hnow => exact ⟨_, .note rfl (by simp) (by simp) (by simp), by simp⟩
  | detached u j hj =>
    exact ⟨_, (Progress.note rfl (by simp) (by simp) (by simp)).chore .., by simp⟩
  | reported r => exact ⟨none, .refl s, by simp⟩

theorem Step.progress (h : Step site.toSite s s') : ∃ d, Progress site s s' d := by
  cases h with
  | pass time => exact ⟨none, { Progress.refl s with now_le := Nat.le_add_right .. }⟩
  | enter c o hc => exact ⟨none, (Progress.refl s).visit c _⟩
  | hear hc hv hr =>
    obtain ⟨d, hd, -⟩ := hr.progress hc hv
    exact ⟨d, hd.visit ..⟩
  | await hc hv ht => exact ⟨none, (Progress.refl s).visit ..⟩
  | @crash c t v a cache crash next hc hv ht hnow hout =>
    have hdue : Upkeep.adjust a ∈ v.due := by simp [Visit.due, hv]
    have hentitled : s.Entitled (.adjust a) := .inl ⟨c, v, t, hc, hdue, ht, hnow⟩
    exact ⟨_, (Progress.adjust hentitled hout).visit ..⟩
  | start hj ht => exact ⟨none, (Progress.refl s).chore ..⟩
  | finish hj hended ht hnow => exact ⟨_, (Progress.exec hj hended ht hnow).chore ..⟩
  | lose hj hended ht => exact ⟨_, (Progress.lose s _).chore ..⟩

end Popularity.Traffic
