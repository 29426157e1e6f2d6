import Popularity.Proofs.Traffic.Pledges

/-!
# Entries have rows

A cache that held an entry for an item without a row would show an item that is not there, and one
that remembered that a row was missing would hide an item that has come into being. Neither can
happen: whatever is in the cache was told by the store when the row was there, and rows last. It
does not matter what the counts are, so little is asked of the store: it tells whether there is a
row, it never loses one, and a write that changes something makes the rows that were missing.

The last of these is asked for some items only. A table may put what is written about an item under
another one; see `Server.lasting`.

## Main definitions

* `Site.Lasting` — a store whose rows last
* `Traffic.Rooted` — every entry has a row, and so has all that was told and written

## Main results

* `Registry.lasting`
* `Traffic.Run.rooted`
-/

namespace Popularity

variable {S : Type} {site : Site S} {row : S → Item → Option Counts} {kept : Item → Prop}

/-! ### Stores -/

/-- A store whose rows last, and in which a write makes the rows of the items that are `kept`. -/
structure Site.Lasting (site : Site S) (row : S → Item → Option Counts) (kept : Item → Prop) :
    Prop where
  tells : ∀ i l n, (site.answer (.counts i) l).1 = .ok n → row l i = n
  lasts : ∀ r l i, (row l i).isSome → (row (site.answer r l).2 i).isSome
  makes : ∀ w l, (site.answer (.write w) l).1 = .ok true → ∀ a ∈ w.adjustments, kept a.item →
    (row (site.answer (.write w) l).2 a.item).isSome

/-- The rows of a registry last. -/
theorem Registry.lasting (site : Registry S) : site.toSite.Lasting site.row fun _ => True where
  tells i l n h := by
    rw [site.answer_counts] at h
    exact Except.ok.inj h
  lasts r l i h := by
    by_cases hr : ∃ w, r = .write w
    · obtain ⟨w, rfl⟩ := hr
      by_cases hok : (site.answer (.write w) l).1 = .ok true
      · exact (site.row_changed w l hok i).isSome_iff.mpr (.inl h)
      · rwa [site.row_unchanged w l hok]
    · rwa [site.answer_lookup r l fun w hw => hr ⟨w, hw⟩]
  makes w l h a ha _ := (site.row_changed w l h a.item).isSome_iff.mpr (.inr ⟨a, ha, rfl⟩)

/-! ### Answers of the store -/

namespace Deed

/-- Whether a deed is an answer of the store. -/
def isAnswer : Deed → Bool
  | .found .. | .recorded .. => true
  | .looked .. | .left .. | .placed .. | .settled .. => false

theorem isAnswer_of_ofWork {j : Nat} {u : Upkeep} {x : Except Crash u.op.Answer} {d : Deed}
    (h : ofWork j u x = some d) : d.isAnswer = false := by
  cases u with
  | adjust a =>
    cases h
    rfl
  | populate i n =>
    cases x with
    | error crash => cases h
    | ok _ =>
      cases h
      rfl

theorem isAnswer_of_ofLoss {u : Upkeep} {d : Deed} (h : ofLoss u = some d) :
    d.isAnswer = false := by
  cases u with
  | adjust a =>
    cases h
    rfl
  | populate i n => cases h

end Deed

namespace Traffic

variable {s s' : Traffic S} {c : Nat} {i : Item}

/-! ### Rows last -/

theorem Replies.isSome_row {v : Visit} {q : Call.Query} {x : q.Answer}
    (hr : Replies site s c v q x s') (hsite : site.Lasting row kept)
    (h : (row s.store i).isSome) : (row s'.store i).isSome := by
  cases hr with
  | store r => exact hsite.lasts r s.store i h
  | storeFailed | marks | cached | cacheFailed | adjusted | adjustFailed | adjustLate | detached
  | reported => exact h

theorem Step.isSome_row (hstep : Step site s s') (hsite : site.Lasting row kept)
    (h : (row s.store i).isSome) : (row s'.store i).isSome := by
  cases hstep with
  | hear hc hv hr => exact hr.isSome_row hsite h
  | pass | enter | await | crash | start | finish | lose => exact h

theorem Run.isSome_row (hrun : Run site s s') (hsite : site.Lasting row kept)
    (h : (row s.store i).isSome) : (row s'.store i).isSome := by
  induction hrun with
  | refl => exact h
  | tail _ hstep ih => exact hstep.isSome_row hsite ih

/-! ### Names of entries -/

/-- The names of the entries after an operation of the cache: no operation but `set` brings a new
one. -/
theorem exists_name_of_mem_exec {cache : Cache} {now : Nat} {u : Upkeep} {e : Entry}
    (h : e ∈ (cache.exec now u.op).2.entries) : (∃ e₀ ∈ cache.entries, e₀.name = e.name) ∨
      ∃ i n, u = .populate i n ∧ e.name = i.cacheKey := by
  cases u with
  | adjust a =>
    obtain ⟨e₀, he₀, -, -, -, hname, -⟩ | ⟨he, -⟩ := Cache.mem_entries_adjust h
    · exact .inl ⟨e₀, he₀, hname.symm⟩
    · exact .inl ⟨e, he, rfl⟩
  | populate i n =>
    obtain ⟨rfl, -⟩ | ⟨he, -⟩ := Cache.mem_entries_set h
    · exact .inr ⟨i, n, rfl, rfl⟩
    · exact .inl ⟨e, he, rfl⟩

/-! ### Rooted states -/

/-- Every entry has a row, and so has every item whose row was told or written about. -/
structure Rooted (row : S → Item → Option Counts) (kept : Item → Prop) (s : Traffic S) : Prop where
  entry : ∀ e ∈ s.cache.entries, ∃ i, e.name = i.cacheKey ∧ (row s.store i).isSome
  told : ∀ t c i n, (t, .found c i (some n)) ∈ s.history → (row s.store i).isSome
  written : ∀ t c w, (t, .recorded c w) ∈ s.history → ∀ a ∈ w.adjustments, kept a.item →
    (row s.store a.item).isSome

theorem Rooted.opening (limit : Nat) (store : S) (o : Cache.Options) :
    Rooted row kept (opening limit store o) := ⟨nofun, nofun, nofun⟩

/-- Nothing is lost by a step that brings no new name and no answer of the store. -/
theorem Rooted.frame (hs : Rooted row kept s) {s' : Traffic S} (hstore : s'.store = s.store)
    (hentry : ∀ e ∈ s'.cache.entries, ∃ e₀ ∈ s.cache.entries, e₀.name = e.name)
    (hhistory : ∀ t d, (t, d) ∈ s'.history → d.isAnswer = true → (t, d) ∈ s.history) :
    Rooted row kept s' where
  entry e he := by
    obtain ⟨e₀, he₀, hname⟩ := hentry e he
    obtain ⟨i, hi, hrow⟩ := hs.entry e₀ he₀
    exact ⟨i, hname ▸ hi, hstore ▸ hrow⟩
  told t c i n hmem := hstore ▸ hs.told t c i n (hhistory t _ hmem rfl)
  written t c w hmem := hstore ▸ hs.written t c w (hhistory t _ hmem rfl)

/-- What is new in the history after a deed was noted is that deed. -/
theorem mem_history_note {d : Option Deed} {t : Nat} {d' : Deed}
    (h : (t, d') ∈ (s.note d).history) : d = some d' ∨ (t, d') ∈ s.history := by
  rw [history_note, List.mem_append] at h
  obtain h | h := h
  · obtain ⟨d₀, hd₀, heq⟩ := List.mem_map.mp h
    cases heq
    exact .inl (Option.mem_toList.mp hd₀)
  · exact .inr h

/-- A deed that is no answer of the store. -/
theorem Rooted.note (hs : Rooted row kept s) {d : Option Deed}
    (h : ∀ d', d = some d' → d'.isAnswer = false) : Rooted row kept (s.note d) := by
  refine hs.frame rfl (fun e he => ⟨e, he, rfl⟩) fun t d' hmem hanswer => ?_
  obtain hd | hmem := mem_history_note hmem
  · rw [h d' hd] at hanswer
    cases hanswer
  · exact hmem

theorem Rooted.noteSome (hs : Rooted row kept s) {d : Deed} (h : d.isAnswer = false) :
    Rooted row kept (s.note (some d)) :=
  hs.note fun _ hd' => Option.some.inj hd' ▸ h

/-- An operation of the cache that brings no new name. -/
theorem Rooted.withCache (hs : Rooted row kept s) {cache : Cache}
    (h : ∀ e ∈ cache.entries, ∃ e₀ ∈ s.cache.entries, e₀.name = e.name) :
    Rooted row kept { s with cache } :=
  hs.frame rfl h fun _ _ hmem _ => hmem

/-- An adjustment brings no new name. -/
theorem exists_name_of_mem_adjust {cache : Cache} {a : Adjustment} {x : Except Crash Adjusted}
    (h : s.cache.adjust s.now a.item a.counter a.by_ = (x, cache)) :
    ∀ e ∈ cache.entries, ∃ e₀ ∈ s.cache.entries, e₀.name = e.name := by
  obtain rfl : (s.cache.adjust s.now a.item a.counter a.by_).2 = cache := congrArg Prod.snd h
  intro e he
  obtain hname | ⟨i, n, hu, -⟩ := exists_name_of_mem_exec (u := .adjust a) he
  · exact hname
  · cases hu

/-- An answer of the store. -/
theorem Rooted.answer (hs : Rooted row kept s) (hsite : site.Lasting row kept) (c : Nat)
    (r : Request) : Rooted row kept ({ s with store := (site.answer r s.store).2 }.note
      (Deed.ofAnswer c r (site.answer r s.store).1)) where
  entry e he := by
    obtain ⟨i, hi, hrow⟩ := hs.entry e he
    exact ⟨i, hi, hsite.lasts r s.store i hrow⟩
  told t c' i n hmem := by
    obtain hd | hmem := mem_history_note hmem
    · unfold Deed.ofAnswer at hd
      split at hd <;> cases hd
      next hx =>
        refine hsite.lasts (.counts i) s.store i ?_
        rw [hsite.tells i s.store (some n) hx]
        rfl
    · exact hsite.lasts r s.store i (hs.told t c' i n hmem)
  written t c' w hmem a ha hkept := by
    obtain hd | hmem := mem_history_note hmem
    · unfold Deed.ofAnswer at hd
      split at hd <;> cases hd
      next hx => exact hsite.makes w s.store hx a ha hkept
    · exact hsite.lasts r s.store a.item (hs.written t c' w hmem a ha hkept)

theorem Replies.rooted {v : Visit} {q : Call.Query} {x : q.Answer}
    (hr : Replies site s c v q x s') (hsite : site.Lasting row kept) (hs : Rooted row kept s) :
    Rooted row kept s' := by
  cases hr with
  | store r => exact hs.answer hsite c r
  | cached i =>
    exact (hs.withCache fun e he => ⟨e, Cache.mem_entries_get he, rfl⟩).noteSome rfl
  | adjusted a t out cache ht hnow hout =>
    exact (hs.withCache (exists_name_of_mem_adjust hout)).noteSome rfl
  | cacheFailed i why => exact hs.noteSome rfl
  | adjustFailed a t why ht => exact hs.noteSome rfl
  | adjustLate a t ht hnow => exact hs.noteSome rfl
  | detached u j hj =>
    have hleft : Rooted row kept (s.note (some (.left c j u))) := hs.noteSome rfl
    exact ⟨hleft.entry, hleft.told, hleft.written⟩
  | storeFailed | marks | reported => exact hs

/-- A job sets no entry but of an item whose row was told. -/
theorem Pledged.isSome_row (hp : Pledged False s) (hs : Rooted row kept s) {j : Nat} {ch : Chore}
    (hj : s.jobs.get? j = some ch) (hended : ch.ended = false) {n : Counts}
    (hjob : ch.job = .populate i n) : (row s.store i).isSome := by
  obtain ⟨t, ⟨newer, c, before, hhist, d, hobliges, hmem⟩, -⟩ := hp.job j ch hj hended
  rw [hjob] at hobliges
  cases hobliges
  exact hs.told t c i n (hhist ▸ List.mem_append_right newer (List.mem_cons_of_mem _ hmem))

/-- The work of a job. -/
theorem Rooted.exec (hs : Rooted row kept s) (hp : Pledged False s) {j : Nat} {ch : Chore}
    (hj : s.jobs.get? j = some ch) (hended : ch.ended = false) :
    Rooted row kept { s with cache := (s.cache.exec s.now ch.job.op).2 } where
  entry e he := by
    obtain ⟨e₀, he₀, hname⟩ | ⟨i, n, hjob, hname⟩ := exists_name_of_mem_exec he
    · obtain ⟨i, hi, hrow⟩ := hs.entry e₀ he₀
      exact ⟨i, hname ▸ hi, hrow⟩
    · exact ⟨i, hname, hp.isSome_row hs hj hended hjob⟩
  told := hs.told
  written := hs.written

theorem Step.rooted (h : Step site s s') (hsite : site.Lasting row kept) (hp : Pledged False s)
    (hs : Rooted row kept s) : Rooted row kept s' := by
  cases h with
  | pass time => exact ⟨hs.entry, hs.told, hs.written⟩
  | enter c o hc => exact ⟨hs.entry, hs.told, hs.written⟩
  | hear hc hv hr =>
    have hheard := hr.rooted hsite hs
    exact ⟨hheard.entry, hheard.told, hheard.written⟩
  | await hc hv ht => exact ⟨hs.entry, hs.told, hs.written⟩
  | @crash c t v a cache crash next hc hv ht hnow hout =>
    have hcrashed : Rooted row kept ({ s with cache }.note (some (.settled a false))) :=
      (hs.withCache (exists_name_of_mem_adjust hout)).noteSome rfl
    exact ⟨hcrashed.entry, hcrashed.told, hcrashed.written⟩
  | start hj ht => exact ⟨hs.entry, hs.told, hs.written⟩
  | @finish j t ch hj hended ht hnow =>
    have hworked := (hs.exec hp hj hended).note fun _ => Deed.isAnswer_of_ofWork
      (j := j) (x := (s.cache.exec s.now ch.job.op).1)
    exact ⟨hworked.entry, hworked.told, hworked.written⟩
  | @lose j t ch hj hended ht =>
    have hlost := hs.note fun _ => Deed.isAnswer_of_ofLoss (u := ch.job)
    exact ⟨hlost.entry, hlost.told, hlost.written⟩

/-- **Every entry has a row**, in every state that is reached. -/
theorem Run.rooted {limit : Nat} {store : S} {o : Cache.Options}
    (h : Run site (Traffic.opening limit store o) s) (hsite : site.Lasting row kept) :
    Rooted row kept s := by
  have hstart : Dutiful (Traffic.opening limit store o) := nofun
  have hall : Dutiful s ∧ Pledged False s ∧ Rooted row kept s := by
    induction h with
    | refl => exact ⟨hstart, .opening limit store o, .opening limit store o⟩
    | tail _ hstep ih =>
      obtain ⟨hd, hp, hs⟩ := ih
      exact ⟨hstep.dutiful hd, hstep.pledged False.elim hd hp, hstep.rooted hsite hp hs⟩
  exact hall.2.2

end Traffic

end Popularity
