import Popularity.Proofs.Service.Lookup
import Popularity.Proofs.Traffic.Origins

/-!
# How long a stale entry can be seen

Entries can be wrong: a row may change while it is on its way to the cache, and an adjustment may be
lost, or come twice in effect. But neither lookups nor adjustments prolong the life of an entry, and
a job that was left does its work within its limit or never. So an entry that is live long enough
after the last change of its row goes back to a row that was told after this change, and it was
touched by no adjustment that belongs to it. Such an entry is right.

How long is long enough is one lifetime and one limit, if calls and jobs are prompt. The last moment
counts: an entry is not live any more at the end of its lifetime, but a job may be done at the end
of its limit.

## Main definitions

* `History.ChangedAt`
* `Traffic.Faithful` — what a lookup on its way is going to say

## Main results

* `Traffic.Sound.fresh` — which entries are right
* `Traffic.PromptRun.agrees`
-/

namespace Popularity

/-! ### Changes of a row -/

namespace History

variable {h h' : History} {i : Item} {c t : Nat}

/-- Whether the row of an item was changed at a time. -/
def ChangedAt (h : History) (i : Item) (t : Nat) : Prop :=
  ∃ c w, (t, .recorded c w) ∈ h ∧ ∃ a ∈ w.adjustments, a.item = i

theorem changedAt_append : (h ++ h').ChangedAt i t ↔ h.ChangedAt i t ∨ h'.ChangedAt i t := by
  simp only [ChangedAt, List.mem_append, or_and_right, exists_or]

theorem changedAt_of_mem_changes {a : Adjustment} (ha : a ∈ h.changes) :
    ∃ t, h.ChangedAt a.item t ∧ ∃ d, (t, d) ∈ h := by
  obtain ⟨⟨t, d⟩, hmem, had⟩ := List.mem_flatMap.mp ha
  cases d with
  | recorded c w => exact ⟨t, ⟨c, w, hmem, a, had, rfl⟩, _, hmem⟩
  | looked | found | left | placed | settled => cases had

theorem Owed.changedAt {a : Adjustment} (h' : h.Owed c (.adjust a) t) : h.ChangedAt a.item t := by
  obtain ⟨d, hd, hmem⟩ := h'
  cases hd with
  | recorded ha => exact ⟨c, _, hmem, a, ha, rfl⟩

end History

namespace Traffic

variable {S : Type} {site : Registry S} {s s' : Traffic S} {i : Item} {p : Prop} {d : Option Deed}

/-! ### Entries that are right -/

/-- What comes later in the history is not earlier in time. -/
theorem Sound.le_of_mem (hs : Sound p site s) {newer older : History} {x y : Nat × Deed}
    (h : s.history = newer ++ x :: older) (hy : y ∈ newer) : x.1 ≤ y.1 := by
  have hord := hs.ordered
  rw [h] at hord
  exact (List.pairwise_append.mp hord).2.2 y hy x List.mem_cons_self

/-- **An entry is right** if it will live longer than a lifetime and a limit after each change of
its row. -/
theorem Sound.fresh (hs : Sound True site s) {e : Entry} (he : e ∈ s.cache.entries)
    (hname : e.name = i.cacheKey)
    (hold : ∀ t, s.history.ChangedAt i t → t + s.limit + s.cache.lifetime < e.expiresAt) :
    site.row s.store i = some e.counts := by
  obtain ⟨j, g, hg⟩ := hs.explained e he
  obtain rfl : j = i := Item.cacheKey_injective (hg.name_eq.symm.trans hname)
  obtain ⟨hleft, hplaced⟩ := hg.prompt trivial
  have hexp := hg.expiresAt_eq
  -- a change made since the row was told would be too young
  have hchanges : ∀ a ∈ g.newer.changes, a.item ≠ j := by
    rintro a ha rfl
    obtain ⟨t, hchanged, d, hmem⟩ := History.changedAt_of_mem_changes ha
    have hyoung := hs.le_of_mem g.eq_newer_append hmem
    have := hold t (g.eq_newer_append ▸ History.changedAt_append.mpr (.inl hchanged))
    dsimp only at hyoung
    omega
  -- and so would one whose adjustment was made since the entry was set
  have happlied : ∀ a ∈ g.after.applied, a.item ≠ j := by
    rintro a ha rfl
    obtain ⟨⟨t, d⟩, hmem, had⟩ := List.mem_flatMap.mp ha
    rw [Deed.mem_applied] at had
    subst had
    obtain ⟨newer, older, hafter⟩ := List.append_of_mem hmem
    have hhist := g.history_eq
    rw [hafter, List.append_assoc] at hhist
    obtain ⟨c, t₀, howed, hlate⟩ := hs.owed _ _ _ _ hhist
    have hyoung := hs.le_of_mem g.history_eq hmem
    have := hold t₀ (by
      rw [hhist]
      exact History.changedAt_append.mpr (.inr ((howed.append [_]).changedAt)))
    have := hlate trivial
    dsimp only at hyoung
    omega
  rw [Row.eq_of_moved (hs.moved_origin g) hchanges]
  refine congrArg some (Counts.eq_of_toInt_get_eq fun k => ?_)
  rw [hg.counts_eq, Adjustment.total_eq_zero happlied, Int.add_zero]

/-! ### Lookups on their way -/

/-- What a call that looks something up is going to say. It has not looked into the cache yet; or it
never will again, and if it looked long enough after the last change of the row, and the row has not
changed since, then it will say what the row is, as long as it is told so. -/
def Faithful (site : Registry S) (s : Traffic S) (c : Nat) (v : Visit) : Prop :=
  ∀ i d, v.order.LooksUp i → v.rest = some d →
    d = v.order.call.run ∧ (∀ t, (t, .looked c i) ∉ s.history) ∨
      d.Meets (Service.Lookup.asks i) (Service.Lookup.hears fun _ => True)
        (Service.Order.Agrees i fun _ => True) ∧
      ∀ (after : History) t before, s.history = after ++ (t, .looked c i) :: before →
        (∀ t', History.ChangedAt before i t' → t' + s.limit + s.cache.lifetime ≤ t) →
        (∀ t', ¬ after.ChangedAt i t') →
        d.Meets (Service.Lookup.asks i) (Service.Lookup.hears (· = site.row s.store i))
          (Service.Order.Agrees i (· = site.row s.store i))

/-- A deed that is no change of a row leaves it as it is. -/
theorem Progress.row_eq (h : Progress site s s' d)
    (hd : ∀ t, ¬ History.ChangedAt (d.toList.map (s.now, ·)) i t) :
    site.row s'.store i = site.row s.store i := by
  refine Row.eq_of_moved (h.row_moved i) ?_
  intro a ha hi
  cases d with
  | none => cases ha
  | some d =>
    obtain ⟨t, ht, -⟩ := History.changedAt_of_mem_changes (h := [(s.now, d)]) (a := a)
      (by simpa using ha)
    exact hd t (hi ▸ ht)

/-- Nobody else can change what a call is going to say, unless the row is changed. -/
theorem Faithful.frame {c : Nat} {v : Visit} (hf : Faithful site s c v) (h : Progress site s s' d)
    (hd : ∀ i, d ≠ some (.looked c i)) : Faithful site s' c v := by
  intro i r ho hv
  rcases hf i r ho hv with ⟨hr, hnot⟩ | ⟨hr, hlater⟩
  · refine .inl ⟨hr, ?_⟩
    intro t hmem
    rcases h.mem_history hmem with ⟨hlook, -⟩ | hmem
    · exact hd i hlook
    · exact hnot t hmem
  · refine .inr ⟨hr, ?_⟩
    intro after t before hx hold hquiet
    rcases h.split hx with ⟨-, hlook, -, -⟩ | ⟨after', rfl, hx'⟩
    · exact absurd hlook (hd i)
    · simp only [History.changedAt_append, not_or] at hquiet
      rw [h.row_eq fun t => (hquiet t).1]
      rw [h.limit_eq, h.lifetime_eq] at hold
      exact hlater after' t before hx' hold fun t => (hquiet t).2

/-- The store says what the row is. -/
theorem Replies.hears {c : Nat} {v : Visit} {q : Call.Query} {x : q.Answer}
    (hr : Replies site.toSite s c v q x s') (hq : Service.Lookup.asks i q) :
    Service.Lookup.hears (· = site.row s.store i) q x := by
  cases hr with
  | store r =>
    obtain rfl : r = .counts i := hq
    rw [site.answer_counts]
    rfl
  | storeFailed r why =>
    obtain rfl : r = .counts i := hq
    trivial
  | cached | cacheFailed | adjusted | adjustFailed | adjustLate => exact hq.elim
  | marks | detached | reported => trivial

/-- What the cache says long enough after the last change of a row is what the row is. -/
theorem Sound.get_eq_some (hs : Sound True site s) {n : Counts}
    (hold : ∀ t, s.history.ChangedAt i t → t + s.limit + s.cache.lifetime ≤ s.now)
    (hn : (s.cache.get s.now i).1 = some n) : some n = site.row s.store i := by
  obtain ⟨e, he, hname, hlive, rfl⟩ := Cache.get_eq_some hn
  exact (hs.fresh he hname fun t ht => Nat.lt_of_le_of_lt (hold t ht) hlive).symm

/-- **An answer does not make a lookup lie.** -/
theorem Replies.faithful {c : Nat} {v : Visit} {q : Call.Query} {x : q.Answer}
    {next : q.Answer → Site.CallUnderway Service.Answer} (hs : Sound True site s)
    (hc : s.calls.get? c = some v) (hv : v.rest = some (.ask q next))
    (hr : Replies site.toSite s c v q x s') (hf : Faithful site s c v) :
    Faithful site s' c ⟨v.order, some (next x), none⟩ := by
  intro i r ho hrest
  cases hrest
  obtain ⟨d, h, hlook⟩ := hr.progress hc hv
  refine .inr ?_
  rcases hf i _ ho hv with ⟨hcall, hnot⟩ | ⟨hmeets, hlater⟩
  · -- the call looks into the cache now
    obtain ⟨next', hrun, -⟩ := v.order.meets_of_looksUp ho fun _ => True
    cases hcall.trans hrun
    have hmeets := v.order.meets_of_run_eq ho hrun
    refine ⟨hmeets _ fun _ _ => trivial, ?_⟩
    intro after t before hx hold hquiet
    rw [h.limit_eq, h.lifetime_eq] at hold
    rcases h.split hx with ⟨rfl, -, rfl, rfl⟩ | ⟨after', -, hx'⟩
    · cases hr with
      | cached i =>
        exact hmeets _ fun n hn => hs.get_eq_some hold (Except.ok.inj hn)
      | cacheFailed i why => exact hmeets _ nofun
    · exact absurd (hx' ▸ List.mem_append_right _ List.mem_cons_self) (hnot t)
  · -- the call has looked into the cache before
    refine ⟨hmeets.2 x (Service.Lookup.hears_true q x), ?_⟩
    intro after t before hx hold hquiet
    rw [h.limit_eq, h.lifetime_eq] at hold
    rcases h.split hx with ⟨-, hd, -, -⟩ | ⟨after', rfl, hx'⟩
    · obtain ⟨-, rfl⟩ := hlook c i hd
      exact hmeets.1.elim
    · simp only [History.changedAt_append, not_or] at hquiet
      rw [h.row_eq fun t => (hquiet t).1]
      exact (hlater after' t before hx' hold fun t => (hquiet t).2).2 x (hr.hears hmeets.1)

/-- Nobody has looked into the cache but calls that are there, and they all say what they should. -/
structure Lookups (site : Registry S) (s : Traffic S) : Prop where
  known : ∀ t c i, (t, .looked c i) ∈ s.history → s.calls.get? c ≠ none
  faithful : ∀ c v, s.calls.get? c = some v → Faithful site s c v

theorem Lookups.opening (limit : Nat) (store : S) (o : Cache.Options) :
    Lookups site (opening limit store o) := ⟨nofun, nofun⟩

/-- What is new in the history was done by somebody. -/
theorem Progress.known (h : Progress site s s' d) (hl : Lookups site s) {t c : Nat}
    (hmem : (t, .looked c i) ∈ s'.history) : d = some (.looked c i) ∨ s.calls.get? c ≠ none := by
  rcases h.mem_history hmem with ⟨hlook, -⟩ | hmem
  · exact .inl hlook
  · exact .inr (hl.known t c i hmem)

/-- A call goes on. The deed is no lookup, or its own. -/
theorem Lookups.visit (hl : Lookups site s) (h : Progress site s s' d) (hcalls : s'.calls = s.calls)
    {c : Nat} {v : Visit} (hd : ∀ c' i, d = some (.looked c' i) → c' = c)
    (hv : Faithful site s' c v) : Lookups site (s'.visit c v) where
  known t c' i hmem := by
    rw [calls_visit, Table.get?_put, hcalls]
    split
    · exact Option.some_ne_none _
    next hne =>
      refine (h.known hl hmem).resolve_left fun hlook => hne ?_
      exact beq_iff_eq.mpr (hd c' i hlook)
  faithful c' v' hc := by
    rw [calls_visit, hcalls] at hc
    rcases Table.get?_put_eq_some hc with ⟨rfl, rfl⟩ | ⟨hne, hc⟩
    · exact hv
    · exact (hl.faithful c' v' hc).frame (h.visit c v) fun i hlook => hne (hd c' i hlook)

/-- A job goes on. -/
theorem Lookups.chore (hl : Lookups site s) (h : Progress site s s' d) (hcalls : s'.calls = s.calls)
    (hd : ∀ c i, d ≠ some (.looked c i)) (j : Nat) (ch : Chore) : Lookups site (s'.chore j ch) where
  known _ c i hmem := hcalls ▸ (h.known hl hmem).resolve_left (hd c i)
  faithful c v hc := (hl.faithful c v (hcalls ▸ hc)).frame (h.chore j ch) (hd c)

/-- **No step makes a lookup lie.** -/
theorem Step.lookups (h : Step site.toSite s s') (hs : Sound True site s) (hl : Lookups site s) :
    Lookups site s' := by
  cases h with
  | pass time => exact ⟨hl.known, hl.faithful⟩
  | enter c o hc =>
    refine hl.visit (.refl s) rfl (by simp) fun i r ho hr => .inl ?_
    cases hr
    exact ⟨rfl, fun t hmem => hl.known t c i hmem hc⟩
  | hear hc hv hr =>
    obtain ⟨d, h, hlook⟩ := hr.progress hc hv
    exact hl.visit h hr.calls_eq (fun c' i hd => (hlook c' i hd).1)
      (hr.faithful hs hc hv (hl.faithful _ _ hc))
  | await hc hv ht =>
    exact hl.visit (.refl s) rfl (by simp) fun i r ho hr => hl.faithful _ _ hc i r ho hr
  | crash hc hv ht hnow hout =>
    exact hl.visit (.adjust (.inl ⟨_, _, _, hc, by simp [Visit.due, hv], ht, hnow⟩) hout) rfl
      (by simp) fun i r ho hr => nomatch hr
  | start hj ht => exact hl.chore (.refl s) rfl (by simp) ..
  | finish hj hended ht hnow =>
    exact hl.chore (.exec hj hended ht hnow) rfl (fun _ _ => Deed.ofWork_ne_looked) ..
  | lose hj hended ht =>
    exact hl.chore (.lose ..) rfl (fun _ _ => Deed.ofLoss_ne_looked) ..

/-! ### Runs -/

theorem RunIf.lookups (h : RunIf True site.toSite s s') (hs : Sound True site s)
    (hl : Lookups site s) : Lookups site s' := by
  induction h with
  | refl => exact hl
  | tail hrun hstep ih => exact hstep.1.lookups (RunIf.sound hrun hs) ih

/-- The limit and the lifetime are what they were. -/
theorem RunIf.limit_eq (h : RunIf p site.toSite s s') :
    s'.limit = s.limit ∧ s'.cache.lifetime = s.cache.lifetime := by
  induction h with
  | refl => exact ⟨rfl, rfl⟩
  | tail _ hstep ih =>
    obtain ⟨d, hd⟩ := hstep.1.progress
    exact ⟨hd.limit_eq.trans ih.1, hd.lifetime_eq.trans ih.2⟩

/-- **Staleness is bounded.** If calls and jobs are prompt, then whoever looks into the cache not
before a lifetime and a limit have passed since the last change of a row, and has an answer before
the row is changed again, is told what the row is, or an error of the store. -/
theorem PromptRun.agrees {limit : Nat} {store : S} {o : Cache.Options}
    (h : PromptRun site.toSite (opening limit store o) s) {c : Nat} {v : Visit}
    {result : Except CallFailure Service.Answer} (hc : s.calls.get? c = some v)
    (hv : v.order.LooksUp i) (hdone : v.rest = some (.done result)) {after before : History}
    {t : Nat} (hlooked : s.history = after ++ (t, .looked c i) :: before)
    (hold : ∀ t', before.ChangedAt i t' → t' + limit + o.lifetime ≤ t)
    (hquiet : ∀ t', ¬ after.ChangedAt i t') :
    Service.Order.Agrees i (· = site.row s.store i) result := by
  have hrun := PromptRun.runIf h
  have hs : Sound True site (opening limit store o) := .opening limit store o
  obtain ⟨hlimit, hlife⟩ := RunIf.limit_eq hrun
  have hl := (RunIf.lookups hrun hs (.opening limit store o)).faithful c v hc
  rcases hl i _ hv hdone with ⟨hcall, -⟩ | ⟨-, hlater⟩
  · -- a lookup is not done before it has begun
    obtain ⟨next, hrun', -⟩ := v.order.meets_of_looksUp hv fun _ => True
    cases hcall.trans hrun'
  · refine hlater after t before hlooked ?_ hquiet
    rw [hlimit, hlife]
    exact hold

/-! ### The first moment -/

theorem Prompt.of_now_eq (h : s'.now = s.now) : Prompt s s' :=
  fun hlt => absurd (h ▸ hlt) (Nat.lt_irrefl _)

theorem Attended.of_forall (hcalls : ∀ r ∈ s.calls, r.2.due = [])
    (hjobs : ∀ r ∈ s.jobs, r.2.since ≠ none) : Attended s where
  call _ _ hc hdue := absurd (hcalls _ (Table.mem_of_get?_eq_some hc)) hdue
  job _ _ hj := hjobs _ (Table.mem_of_get?_eq_some hj)

section Moment

open Ledger

/-- An article is liked, and looked up just when a lifetime and a limit have passed. -/
theorem exists_run_moment : ∃ (s : Traffic Ledger) (v : Visit)
    (result : Except CallFailure Service.Answer) (after before : History),
      PromptRun registry.toSite (opening 500 untouched {}) s ∧ s.calls.get? 1 = some v ∧
      v.order = .counts article ∧ v.rest = some (.done result) ∧
      s.history = after ++ (900500, .looked 1 article) :: before ∧
      before.map Prod.fst = [0, 0, 0] ∧ after.changes = [] := by
  have h₁ := (Relation.ReflTransGen.refl (a := opening 500 untouched {})
    (r := fun s s' => Step registry.toSite s s' ∧ Prompt s s')).tail
    ⟨.enter _ 0 (.record (.like article 7)) rfl, .of_now_eq rfl⟩
  have h₂ := h₁.tail ⟨.hear (c := 0) rfl rfl (.answered answer_like), .of_now_eq rfl⟩
  have h₃ := h₂.tail ⟨.hear (c := 0) rfl rfl (.detached _ 0 rfl), .of_now_eq rfl⟩
  have h₄ := h₃.tail ⟨.start (j := 0) rfl rfl, .of_now_eq rfl⟩
  have h₅ := h₄.tail ⟨.finish (j := 0) rfl rfl rfl (by decide), .of_now_eq rfl⟩
  have h₆ := h₅.tail ⟨.pass _ 900500, fun _ => .of_forall
    (fun r hr => by cases List.mem_singleton.mp hr; rfl)
    fun r hr => by cases List.mem_singleton.mp hr; exact Option.some_ne_none _⟩
  have h₇ := h₆.tail ⟨.enter _ 1 (.counts article) rfl, .of_now_eq rfl⟩
  have h₈ := h₇.tail ⟨.hear (c := 1) rfl rfl (.cached article), .of_now_eq rfl⟩
  have h₉ := h₈.tail ⟨.hear (c := 1) rfl rfl (.reported _), .of_now_eq rfl⟩
  have h₁₀ := h₉.tail ⟨.hear (c := 1) rfl rfl (.answered answer_liked), .of_now_eq rfl⟩
  have h₁₁ := h₁₀.tail ⟨.hear (c := 1) rfl rfl (.detached _ 1 rfl), .of_now_eq rfl⟩
  exact ⟨_, _, _, [_, _], [_, _, _], h₁₁, rfl, rfl, rfl, rfl, rfl, rfl⟩

theorem agrees_moment : ∃ (s : Traffic Ledger) (v : Visit)
    (result : Except CallFailure Service.Answer),
    PromptRun registry.toSite (opening 500 untouched {}) s ∧ s.calls.get? 1 = some v ∧
      v.rest = some (.done result) ∧
      Service.Order.Agrees article (· = registry.row s.store article) result := by
  obtain ⟨s, v, result, after, before, hrun, hc, horder, hdone, hhist, htimes, hchanges⟩ :=
    exists_run_moment
  refine ⟨s, v, result, hrun, hc, hdone, PromptRun.agrees hrun hc (.inl horder) hdone hhist ?_ ?_⟩
  · rintro t ⟨c, w, hmem, -⟩
    have ht : t ∈ before.map Prod.fst := List.mem_map_of_mem hmem
    obtain rfl : t = 0 := by simpa [htimes] using ht
    decide
  · rintro t ⟨c, w, hmem, a, ha, -⟩
    have hmem' : a ∈ after.changes := List.mem_flatMap.mpr ⟨_, hmem, ha⟩
    rw [hchanges] at hmem'
    cases hmem'

end Moment

end Traffic

end Popularity
